import CodeAtlas.Proofs.Decimal.Floats

/-!
# Shares

Whether more than three tenths of some things are of a kind is found out with floats: a quotient is
rounded, and so is three tenths. The float for three tenths lies a little below it, and the next
quotient above three tenths is further away than rounding goes, unless there are very many
things.

* `Rounds.lt_iff_of_odd`: **what is rounded to more than a given float** with an odd mantissa.
* `exists_number?_share`: a share is a number.
* `threeTenths_lt_div_iff`: **a share above three tenths** is one as a float.
-/

namespace CodeAtlas.Decimal

variable {q r : ℚ} {m k n : ℕ} {e : ℤ}

/-- **What is rounded to more than a given float** with all its digits and an odd mantissa: from the
tie on, which goes up. -/
theorem Rounds.lt_iff_of_odd (h : Rounds q r) (hq : 0 ≤ q) (hm : Canonical m e) (hfull : 2 ^ 52 ≤ m)
    (hodd : m % 2 = 1) : (m : ℚ) * 2 ^ e < r ↔ (m + 1 / 2) * 2 ^ e ≤ q := by
  have hunit := two_zpow_pos e
  have he := hm.le
  have hlow : (2 : ℚ) ^ (e + 52) ≤ m * 2 ^ e := by
    rw [add_comm, two_zpow_add]
    exact mul_le_mul_of_nonneg_right (by exact_mod_cast hfull) hunit.le
  have hhigh : ((m : ℚ) + 1) * 2 ^ e ≤ 2 ^ (e + 53) := by
    rw [add_comm e, two_zpow_add]
    exact mul_le_mul_of_nonneg_right (by exact_mod_cast hm.lt) hunit.le
  have hhalf : (m : ℚ) * 2 ^ e < (m + 1 / 2) * 2 ^ e := mul_lt_mul_of_pos_right (by linarith) hunit
  have hone : ((m : ℚ) + 1 / 2) * 2 ^ e < (m + 1) * 2 ^ e := mul_lt_mul_of_pos_right (by linarith) hunit
  rcases lt_or_ge q (2 ^ (e + 52)) with hbelow | hbelow
  · have hr : r ≤ 2 ^ (e + 52) := h.le_short (isShort_two_zpow (by omega)) hq hbelow.le
    exact iff_of_false (not_lt.2 (hr.trans hlow)) (by linarith)
  rcases le_or_gt (2 ^ (e + 53)) q with habove | habove
  · have hr : 2 ^ (e + 53) ≤ r := h.short_le (isShort_two_zpow (by omega)) habove
    exact iff_of_true (by linarith) (by linarith)
  -- in between the last place is that of the float, and whole numbers are compared
  have hplace : lastPlace q = e := by
    rw [lastPlace_eq_of_le_of_lt (e := e + 52) (by omega) hbelow (by rwa [add_assoc])]
    omega
  obtain ⟨j, hj, rfl⟩ := h
  rw [hplace] at hj ⊢
  rw [mul_lt_mul_iff_left₀ hunit, ← le_div_iff₀ hunit, Nat.cast_lt]
  constructor
  · intro hlt
    have hnext : (m : ℚ) + 1 ≤ j := by exact_mod_cast hlt
    linarith [hj.sub_le]
  · intro hle
    have hmj : m ≤ j := by
      have hbound : (m : ℚ) ≤ j := by linarith [hj.le_add]
      exact_mod_cast hbound
    refine lt_of_le_of_ne hmj ?_
    rintro rfl
    have heven := hj.even_of_tie (Or.inr (le_antisymm hj.le_add hle))
    omega

/-- **A share of some things is a number** as a float, if the things are counted in a machine word. -/
theorem exists_number?_share (hn : 0 < n) (hk : k ≤ n) (hmany : n < 2 ^ 64) :
    ∃ r, number? (Float.ofNat k / Float.ofNat n) = some r := by
  have hcount {j : ℕ} (hj : j < 2 ^ 64) : ∃ r, Rounds j r ∧ number? (Float.ofNat j) = some r := by
    refine (isRounding_ofNat j).exists_number? j.cast_nonneg ?_
    have : (j : ℚ) ≤ 2 ^ 64 := by exact_mod_cast hj.le
    exact this.trans (by norm_num)
  obtain ⟨p, hp, hpk⟩ := hcount (hk.trans_lt hmany)
  obtain ⟨q, hq, hqn⟩ := hcount hmany
  have hone : 1 ≤ q := hq.short_le ⟨1, 0, by decide, by decide, by simp⟩ (by exact_mod_cast hn)
  have hpos : 0 < q := zero_lt_one.trans_le hone
  have hsmall : p ≤ 2 ^ (64 : ℤ) := by
    refine hp.le_short (isShort_two_zpow (by decide)) k.cast_nonneg ?_
    exact_mod_cast (hk.trans_lt hmany).le
  have hshare : p / q ≤ 2 ^ 100 := by
    calc p / q ≤ p := div_le_self hp.nonneg hone
      _ ≤ 2 ^ (64 : ℤ) := hsmall
      _ ≤ 2 ^ 100 := by norm_num
  obtain ⟨r, -, hr⟩ := (isRounding_div hpk hqn hpos).exists_number? (div_nonneg hp.nonneg hpos.le) hshare
  exact ⟨r, hr⟩

theorem number?_thirtyPercent : number? 0.30 = some (((5404319552844595 : ℕ) : ℚ) * 2 ^ (-54 : ℤ)) := rfl

/-- **A share above three tenths is one as a float**, and no other is. -/
theorem threeTenths_lt_div_iff (hn : 0 < n) (hk : k ≤ n) (hmany : 3 * n ≤ 2 ^ 54) :
    (0.30 : Float) < Float.ofNat k / Float.ofNat n ↔ 3 * n < 10 * k := by
  have hn' : (0 : ℚ) < n := by exact_mod_cast hn
  have hshare : (k : ℚ) / n ≤ 1 := (div_le_one hn').2 (by exact_mod_cast hk)
  have hround := isRounding_div (number?_ofNat (show k < 2 ^ 53 by omega)) (number?_ofNat (show n < 2 ^ 53 by omega))
    hn'
  obtain ⟨r, hr, hnumber⟩ := hround.exists_number? (by positivity) (hshare.trans (by norm_num))
  have hcanonical : Canonical 5404319552844595 (-54) := ⟨by decide, by decide, by decide, Or.inl (by decide)⟩
  rw [lt_iff number?_thirtyPercent hnumber, hr.lt_iff_of_odd (by positivity) hcanonical (by decide) (by decide),
    le_div_iff₀ hn']
  -- ten times the tie above the float is three more than thirty times the unit
  have htie : (((5404319552844595 : ℕ) : ℚ) + 1 / 2) * 2 ^ (-54 : ℤ) * n ≤ k ↔
      (3 * 2 ^ 54 + 3) * n ≤ 10 * 2 ^ 54 * k := by
    rw [← Nat.cast_le (α := ℚ)]
    push_cast
    norm_num
    constructor <;> intro h <;> linarith
  rw [htie]
  omega

/-- Among more things than that, a share above three tenths may be taken for three tenths. -/
example : ¬(0.30 : Float) < Float.ofNat 1801439850948199 / Float.ofNat 6004799503160663 ∧
    3 * 6004799503160663 < 10 * 1801439850948199 := by
  decide +kernel

end CodeAtlas.Decimal
