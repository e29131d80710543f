import CodeAtlas.Decimal.Shortest
import Mathlib.Data.Int.Log
import Mathlib.Data.Rat.Floor
import Mathlib.Tactic.Linarith
import Mathlib.Tactic.Positivity
import Mathlib.Tactic.Ring

/-!
# Rounding to binary fractions

A quantity is rounded to a multiple of its last place, which is 52 binary places after
its first one, or `2 ^ -1074` if that is larger. A tie goes to the even multiple.

* `IsNearest`: the whole number nearest to a quantity.
* `Rounds`: a quantity and what it is rounded to.
* `Rounds.le_short`, `Rounds.short_le`: **rounding does not pass a short number.**
* `Rounds.lt_two_zpow_iff`: what is rounded to less than a power of two.
* `Rounds.error_le`: how far rounding goes.
-/

namespace CodeAtlas.Decimal

variable {q r s : ℚ} {n k : ℕ}

/-! ## The nearest whole number -/

/-- **The whole number nearest to a quantity**, of two the even one. -/
structure IsNearest (q : ℚ) (n : ℕ) : Prop where
  sub_le : (n : ℚ) - 1 / 2 ≤ q
  le_add : q ≤ n + 1 / 2
  even_of_tie : q = n - 1 / 2 ∨ q = n + 1 / 2 → n % 2 = 0

namespace IsNearest

theorem natCast (n : ℕ) : IsNearest n n where
  sub_le := by linarith
  le_add := by linarith
  even_of_tie := by
    rintro (h | h) <;> exfalso <;> linarith

theorem le_natCast (h : IsNearest q n) (hq : q ≤ k) : n ≤ k := by
  by_contra! hlt
  have hk : (k : ℚ) + 1 ≤ n := by exact_mod_cast hlt
  linarith [h.sub_le]

theorem natCast_le (h : IsNearest q n) (hq : (k : ℚ) ≤ q) : k ≤ n := by
  by_contra! hlt
  have hn : (n : ℚ) + 1 ≤ k := by exact_mod_cast hlt
  linarith [h.le_add]

theorem eq_of_lt (h : IsNearest q n) (hlo : (k : ℚ) - 1 / 2 < q) (hhi : q < k + 1 / 2) : n = k := by
  refine le_antisymm ?_ ?_
  · by_contra! hlt
    have hk : (k : ℚ) + 1 ≤ n := by exact_mod_cast hlt
    linarith [h.sub_le]
  · by_contra! hlt
    have hn : (n : ℚ) + 1 ≤ k := by exact_mod_cast hlt
    linarith [h.le_add]

end IsNearest

theorem natCast_div_eq (n : ℕ) {d : ℕ} (hd : 0 < d) : (n : ℚ) / d = (n / d : ℕ) + ((n % d : ℕ) : ℚ) / d := by
  have hd' : (d : ℚ) ≠ 0 := by exact_mod_cast hd.ne'
  rw [eq_comm, ← eq_sub_iff_add_eq', div_sub' hd', div_left_inj' hd', eq_sub_iff_add_eq]
  exact_mod_cast Nat.mod_add_div n d

/-- The rounded quotient is the nearest whole number. -/
theorem isNearest_roundDiv (n : ℕ) {d : ℕ} (hd : 0 < d) : IsNearest ((n : ℚ) / d) (roundDiv n d) := by
  have hd' : (0 : ℚ) < d := by exact_mod_cast hd
  have hsplit := natCast_div_eq n hd
  generalize ht : ((n % d : ℕ) : ℚ) / d = t at hsplit
  have hlow : 0 ≤ t := ht ▸ by positivity
  have hhigh : t < 1 := by
    rw [← ht, div_lt_one hd']
    exact_mod_cast Nat.mod_lt n hd
  have hlt : 2 * (n % d) < d ↔ t < 1 / 2 := by
    rw [← ht, div_lt_iff₀ hd', ← Nat.cast_lt (α := ℚ)]
    push_cast
    constructor <;> intro h <;> linarith
  have hgt : d < 2 * (n % d) ↔ 1 / 2 < t := by
    rw [← ht, lt_div_iff₀ hd', ← Nat.cast_lt (α := ℚ)]
    push_cast
    constructor <;> intro h <;> linarith
  rw [hsplit]
  simp only [roundDiv, hlt, hgt]
  split_ifs with h₁ h₂ h₃
  · refine ⟨by linarith, by linarith, ?_⟩
    rintro (h | h) <;> exfalso <;> linarith
  · refine ⟨by push_cast; linarith, by push_cast; linarith, ?_⟩
    rintro (h | h) <;> exfalso <;> push_cast at h <;> linarith
  · exact ⟨by linarith, by linarith, fun _ => h₃⟩
  · exact ⟨by push_cast; linarith, by push_cast; linarith, fun _ => by omega⟩

/-! ## The last place -/

/-- The exponent of the last place to which a quantity is rounded. -/
def lastPlace (q : ℚ) : ℤ := max (Int.log 2 q - 52) (-1074)

theorem le_lastPlace (q : ℚ) : -1074 ≤ lastPlace q := le_max_right _ _

theorem two_zpow_pos (e : ℤ) : (0 : ℚ) < 2 ^ e := zpow_pos two_pos e

theorem two_zpow_le {d e : ℤ} (h : d ≤ e) : (2 : ℚ) ^ d ≤ 2 ^ e := zpow_le_zpow_right₀ one_le_two h

theorem two_zpow_add (d e : ℤ) : (2 : ℚ) ^ (d + e) = 2 ^ d * 2 ^ e := zpow_add₀ two_ne_zero d e

/-- A quantity has at most 53 places down to its last. -/
theorem lt_two_zpow_lastPlace (q : ℚ) : q < 2 ^ (lastPlace q + 53) := by
  refine (Int.lt_zpow_succ_log_self one_lt_two q).trans_le (zpow_le_zpow_right₀ one_le_two ?_)
  have := le_max_left (Int.log 2 q - 52) (-1074)
  unfold lastPlace
  omega

/-- It has 53 of them unless its last place is the least of all. -/
theorem two_zpow_lastPlace_le (hq : 0 < q) (h : -1074 < lastPlace q) : 2 ^ (lastPlace q + 52) ≤ q := by
  have hlog : lastPlace q + 52 = Int.log 2 q := by
    unfold lastPlace at *
    omega
  rw [hlog]
  exact Int.zpow_log_le_self one_lt_two hq

theorem lastPlace_eq_of_le_of_lt {e : ℤ} (he : -1022 ≤ e) (hlow : 2 ^ e ≤ q) (hhigh : q < 2 ^ (e + 1)) :
    lastPlace q = e - 52 := by
  have hq : 0 < q := (two_zpow_pos e).trans_le hlow
  have h₁ : e ≤ Int.log 2 q := (Int.zpow_le_iff_le_log one_lt_two hq).1 hlow
  have h₂ : Int.log 2 q < e + 1 := (Int.lt_zpow_iff_log_lt one_lt_two hq).1 hhigh
  unfold lastPlace
  omega

/-- **A quantity and what it is rounded to.** -/
def Rounds (q r : ℚ) : Prop := ∃ n : ℕ, IsNearest (q / 2 ^ lastPlace q) n ∧ r = n * 2 ^ lastPlace q

/-- A number for which 53 binary places are enough. -/
def IsShort (q : ℚ) : Prop := ∃ (m : ℕ) (e : ℤ), m < 2 ^ 53 ∧ -1074 ≤ e ∧ q = m * 2 ^ e

theorem isShort_natCast (h : n < 2 ^ 53) : IsShort n := ⟨n, 0, h, by decide, by simp⟩

theorem isShort_two_zpow {e : ℤ} (h : -1074 ≤ e) : IsShort (2 ^ e) := ⟨1, e, by decide, h, by simp⟩

/-- A multiple of a place is one of every lower place. -/
theorem exists_mul_two_zpow (m : ℕ) {d e : ℤ} (h : d ≤ e) : ∃ k : ℕ, (m : ℚ) * 2 ^ e = k * 2 ^ d := by
  obtain ⟨j, rfl⟩ := Int.le.dest h
  refine ⟨m * 2 ^ j, ?_⟩
  rw [two_zpow_add, zpow_natCast]
  push_cast
  ring

/-- A short number is below all quantities whose last place is above its own. -/
theorem mul_two_zpow_lt {m : ℕ} (hm : m < 2 ^ 53) {d e : ℤ} (h : d < e) : (m : ℚ) * 2 ^ d < 2 ^ (e + 52) := by
  calc (m : ℚ) * 2 ^ d < 2 ^ (53 : ℤ) * 2 ^ d :=
        mul_lt_mul_of_pos_right (by exact_mod_cast hm) (two_zpow_pos d)
    _ = 2 ^ (53 + d) := (two_zpow_add _ _).symm
    _ ≤ 2 ^ (e + 52) := two_zpow_le (by omega)

namespace Rounds

theorem nonneg (h : Rounds q r) : 0 ≤ r := by
  obtain ⟨n, -, rfl⟩ := h
  exact mul_nonneg n.cast_nonneg (two_zpow_pos _).le

theorem eq_zero (h : Rounds 0 r) : r = 0 := by
  obtain ⟨n, hn, rfl⟩ := h
  have hzero : n = 0 := Nat.le_zero.1 (hn.le_natCast (by simp))
  simp [hzero]

/-- **Rounding does not pass a short number** on the way down. -/
theorem short_le (h : Rounds q r) (hs : IsShort s) (hle : s ≤ q) : s ≤ r := by
  obtain ⟨m, e, hm, he, rfl⟩ := hs
  obtain ⟨n, hn, rfl⟩ := h
  rcases le_or_gt (lastPlace q) e with hplace | hplace
  · obtain ⟨k, hk⟩ := exists_mul_two_zpow m hplace
    rw [hk] at hle ⊢
    refine mul_le_mul_of_nonneg_right ?_ (two_zpow_pos _).le
    exact_mod_cast hn.natCast_le (by rwa [le_div_iff₀ (two_zpow_pos _)])
  rcases Nat.eq_zero_or_pos m with rfl | hpos
  · simpa using mul_nonneg n.cast_nonneg (two_zpow_pos (lastPlace q)).le
  have hq : 0 < q := (mul_pos (by exact_mod_cast hpos) (two_zpow_pos e)).trans_le hle
  have htop : 2 ^ (lastPlace q + 52) ≤ q := two_zpow_lastPlace_le hq (by omega)
  have hn : 2 ^ 52 ≤ n := by
    rw [add_comm, two_zpow_add, ← le_div_iff₀ (two_zpow_pos _)] at htop
    exact hn.natCast_le (by exact_mod_cast htop)
  refine (mul_two_zpow_lt hm hplace).le.trans ?_
  rw [add_comm, two_zpow_add]
  exact mul_le_mul_of_nonneg_right (by exact_mod_cast hn) (two_zpow_pos _).le

/-- **Rounding does not pass a short number** on the way up. -/
theorem le_short (h : Rounds q r) (hs : IsShort s) (hq : 0 ≤ q) (hle : q ≤ s) : r ≤ s := by
  rcases hq.eq_or_lt with rfl | hq
  · rwa [h.eq_zero]
  obtain ⟨m, e, hm, he, rfl⟩ := hs
  obtain ⟨n, hn, rfl⟩ := h
  have hplace : lastPlace q ≤ e := by
    by_contra! hplace
    have htop := two_zpow_lastPlace_le hq (by omega)
    exact absurd (htop.trans hle) (not_le.2 (mul_two_zpow_lt hm hplace))
  obtain ⟨k, hk⟩ := exists_mul_two_zpow m hplace
  rw [hk] at hle ⊢
  refine mul_le_mul_of_nonneg_right ?_ (two_zpow_pos _).le
  exact_mod_cast hn.le_natCast (by rwa [div_le_iff₀ (two_zpow_pos _)])

/-- A short number is its own rounding. -/
theorem eq_of_isShort (h : Rounds q r) (hs : IsShort q) (hq : 0 ≤ q) : r = q :=
  le_antisymm (h.le_short hs hq le_rfl) (h.short_le hs le_rfl)

/-- What a quantity is rounded to is short. -/
theorem isShort (h : Rounds q r) : IsShort r := by
  obtain ⟨n, hn, rfl⟩ := h
  have hle : n ≤ 2 ^ 53 := by
    refine hn.le_natCast ?_
    rw [div_le_iff₀ (two_zpow_pos _)]
    have := lt_two_zpow_lastPlace q
    rw [add_comm, two_zpow_add] at this
    exact_mod_cast this.le
  rcases hle.eq_or_lt with rfl | hlt
  · refine ⟨2 ^ 52, lastPlace q + 1, by decide, by have := le_lastPlace q; omega, ?_⟩
    rw [two_zpow_add]
    push_cast
    ring
  · exact ⟨n, _, hlt, le_lastPlace q, rfl⟩

/-- A quantity is rounded by at most half of its last place. -/
theorem abs_sub_le (h : Rounds q r) : |r - q| ≤ 2 ^ lastPlace q / 2 := by
  obtain ⟨n, hn, rfl⟩ := h
  have hpos := two_zpow_pos (lastPlace q)
  have hlow := hn.sub_le
  have hhigh := hn.le_add
  rw [le_div_iff₀ hpos] at hlow
  rw [div_le_iff₀ hpos] at hhigh
  rw [abs_le]
  constructor <;> linarith

/-- A quantity below a power of two is rounded by at most so much less. -/
theorem abs_sub_le_two_zpow (h : Rounds q r) (hq : 0 ≤ q) {e : ℤ} (he : -1021 ≤ e) (hlt : q < 2 ^ e) :
    |r - q| ≤ 2 ^ (e - 54) := by
  rcases hq.eq_or_lt with rfl | hpos
  · simpa [h.eq_zero] using (two_zpow_pos (e - 54)).le
  have hlog : Int.log 2 q < e := (Int.lt_zpow_iff_log_lt one_lt_two hpos).1 hlt
  have hplace : lastPlace q ≤ e - 54 + 1 := by
    unfold lastPlace
    omega
  calc |r - q| ≤ 2 ^ lastPlace q / 2 := h.abs_sub_le
    _ ≤ 2 ^ (e - 54 + 1) / 2 := div_le_div_of_nonneg_right (two_zpow_le hplace) zero_le_two
    _ = 2 ^ (e - 54) := by
      rw [two_zpow_add]
      ring

/-- **How far rounding goes**: by at most one part in `2 ^ 53`. -/
theorem error_le (h : Rounds q r) (hq : q = 0 ∨ 2 ^ (-1022 : ℤ) ≤ q) : |r - q| ≤ q * 2 ^ (-53 : ℤ) := by
  rcases hq with rfl | hq
  · simp [h.eq_zero]
  have hpos : 0 < q := (two_zpow_pos _).trans_le hq
  have hlog : -1022 ≤ Int.log 2 q := (Int.zpow_le_iff_le_log one_lt_two hpos).1 hq
  have hplace : lastPlace q = Int.log 2 q + -52 := by
    unfold lastPlace
    omega
  have hle : (2 : ℚ) ^ Int.log 2 q ≤ q := Int.zpow_log_le_self one_lt_two hpos
  refine h.abs_sub_le.trans ?_
  rw [hplace, two_zpow_add]
  calc (2 : ℚ) ^ Int.log 2 q * 2 ^ (-52 : ℤ) / 2 = 2 ^ Int.log 2 q * 2 ^ (-53 : ℤ) := by
        norm_num
        ring
    _ ≤ q * 2 ^ (-53 : ℤ) := mul_le_mul_of_nonneg_right hle (two_zpow_pos _).le

/-- **What is rounded to less than a power of two**: the quantities below the last tie,
which goes to the power. -/
theorem lt_two_zpow_iff (h : Rounds q r) {e : ℤ} (he : -1021 ≤ e) (hq : 0 ≤ q) :
    r < 2 ^ e ↔ q < 2 ^ e - 2 ^ (e - 54) := by
  have hgap := two_zpow_pos (e - 54)
  rcases lt_or_ge q (2 ^ (e - 1)) with hlow | hlow
  · have hhalf : (2 : ℚ) ^ e = 2 ^ (e - 1) + 2 ^ (e - 1) := by
      rw [← mul_two, ← zpow_add_one₀ two_ne_zero, sub_add_cancel]
    have hr : r ≤ 2 ^ (e - 1) := h.le_short (isShort_two_zpow (by omega)) hq hlow.le
    have hlt : (2 : ℚ) ^ (e - 54) ≤ 2 ^ (e - 1) := two_zpow_le (by omega)
    have hpos := two_zpow_pos (e - 1)
    exact iff_of_true (by linarith) (by linarith)
  rcases le_or_gt (2 ^ e) q with hhigh | hhigh
  · have hr : 2 ^ e ≤ r := h.short_le (isShort_two_zpow (by omega)) hhigh
    exact iff_of_false (not_lt.2 hr) (by linarith)
  -- on the scale of the last place the power is `2 ^ 53`
  have hplace : lastPlace q = e - 53 := by
    rw [lastPlace_eq_of_le_of_lt (e := e - 1) (by omega) hlow (by rwa [sub_add_cancel])]
    omega
  have hpower : (2 : ℚ) ^ e = 2 ^ 53 * 2 ^ (e - 53) := by
    rw [← zpow_natCast, ← two_zpow_add]
    congr 1
    push_cast
    omega
  have htie : (2 : ℚ) ^ (e - 54) = 1 / 2 * 2 ^ (e - 53) := by
    rw [← one_div_mul_eq_div, show e - 53 = e - 54 + 1 by omega, zpow_add_one₀ two_ne_zero]
    ring
  obtain ⟨n, hn, rfl⟩ := h
  have hunit := two_zpow_pos (e - 53)
  rw [hplace] at hn ⊢
  rw [htie, hpower, ← sub_mul, mul_lt_mul_iff_left₀ hunit, ← div_lt_iff₀ hunit]
  constructor
  · intro hlt
    have hle : n + 1 ≤ 2 ^ 53 := by exact_mod_cast hlt
    have hle' : (n : ℚ) + 1 ≤ 2 ^ 53 := by exact_mod_cast hle
    refine lt_of_le_of_ne (by linarith [hn.le_add]) fun heq => ?_
    have hge : 2 ^ 53 ≤ n + 1 := by
      have := hn.le_add
      rw [heq] at this
      exact_mod_cast (by linarith : (2 : ℚ) ^ 53 ≤ n + 1)
    have hn' : (n : ℚ) + 1 = 2 ^ 53 := by exact_mod_cast le_antisymm hle hge
    have heven := hn.even_of_tie (Or.inr (by linarith))
    omega
  · intro hlt
    linarith [hn.sub_le]

end Rounds

end CodeAtlas.Decimal
