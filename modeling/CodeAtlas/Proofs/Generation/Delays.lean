import CodeAtlas.Generation.Provider
import CodeAtlas.Proofs.Decimal.Floats

/-!
# Delays between attempts

The delay after an attempt is a product of floats that is bounded after it has been made
a duration again. Nothing of what is rounded on the way is left in the result, and a product
beyond the longest duration ends the run.

* `isPower_power`: powers of two are exact, or infinite.
* `AsSeconds`: a duration in seconds, with all that is rounded.
* `ofSeconds_mul`: the product of a power of two and a duration.
* `delay_of_le`, `exists_delay_of_lt`: **every delay there can be.**
* `delays_doubled`: **delays double up to their bound, or the run fails.**
-/

namespace CodeAtlas.Retry

open Decimal

/-! ## Powers of two -/

/-- A float is a power of two, or infinite where that is beyond all floats. -/
def IsPower (x : Float) (k : ℕ) : Prop := (k < 1024 ∧ number? x = some (2 ^ k)) ∨ (1024 ≤ k ∧ IsInfinite x)

variable {x y r a : Float} {j k c d : ℕ}

theorem IsPower.mul (hx : IsPower x j) (hy : IsPower y k) : IsPower (x * y) (j + k) := by
  rcases hx with ⟨hj, hx⟩ | ⟨hj, hx⟩ <;> rcases hy with ⟨hk, hy⟩ | ⟨hk, hy⟩
  · have hproduct := isRounding_mul hx hy
    rw [← pow_add, ← zpow_natCast] at hproduct
    obtain ⟨r, hr, ⟨hlt, hnum⟩ | ⟨hge, hinf⟩⟩ := hproduct
    · rw [hr.eq_of_isShort (isShort_two_zpow (by omega)) (two_zpow_pos _).le] at hlt hnum
      have := (zpow_lt_zpow_iff_right₀ (one_lt_two (α := ℚ))).1 hlt
      exact Or.inl ⟨by omega, by rw [hnum, zpow_natCast]⟩
    · rw [hr.eq_of_isShort (isShort_two_zpow (by omega)) (two_zpow_pos _).le] at hge
      have := (zpow_le_zpow_iff_right₀ (one_lt_two (α := ℚ))).1 hge
      exact Or.inr ⟨by omega, hinf⟩
  · exact Or.inr ⟨by omega, isInfinite_mul_of_pos hx (by positivity) hy⟩
  · refine Or.inr ⟨by omega, ?_⟩
    rcases mul_of_isInfinite hx hy with ⟨hzero, -⟩ | ⟨-, hinf⟩
    · exact absurd hzero (by positivity)
    · exact hinf
  · exact Or.inr ⟨by omega, hx.mul hy⟩

/-- **Repeated squaring**: the digits of the exponent that are left add their part. -/
theorem isPower_powerWithin (n : ℕ) {b : ℕ} (hb : b < 2 ^ n) (hr : IsPower r c) (ha : IsPower a d) :
    IsPower (powerWithin n r a b) (c + d * b) := by
  induction n generalizing r a b c d with
  | zero =>
    obtain rfl : b = 0 := by omega
    simpa [powerWithin] using hr
  | succ n ih =>
    rw [pow_succ] at hb
    have hdigit : IsPower (if b % 2 = 1 then r * a else r) (c + d * (b % 2)) := by
      rcases Nat.mod_two_eq_zero_or_one b with h | h <;> rw [h]
      · simpa using hr
      · simpa using hr.mul ha
    simp only [powerWithin]
    generalize (if b % 2 = 1 then r * a else r) = r' at hdigit
    split_ifs with hlast
    · have h : b % 2 = b := by omega
      rwa [h] at hdigit
    · have := ih (b := b / 2) (by omega) hdigit (ha.mul ha)
      have hexp : c + d * (b % 2) + (d + d) * (b / 2) = c + d * b := by
        conv_rhs => rw [← Nat.mod_add_div b 2]
        ring
      rwa [hexp] at this

theorem isPower_two : IsPower 2.0 1 := by
  have h : (2.0 : Float).toModel.unpack = .finite .positive (2 ^ 52) (-51) (by decide) := rfl
  refine Or.inl ⟨by decide, ?_⟩
  simp only [number?, h]
  norm_num

/-- **A power of two by repeated squaring.** -/
theorem isPower_power {k : ℕ} (hk : k < 2 ^ 64) : IsPower (power 2.0 k) k := by
  have hone : IsPower 1.0 0 := Or.inl ⟨by decide, by rw [number?_one]; norm_num⟩
  have h := isPower_powerWithin 64 hk hone isPower_two
  rw [zero_add, one_mul] at h
  simp only [power, Int.natAbs_natCast]
  rwa [if_neg (by omega)]

/-! ## Seconds -/

section Seconds

variable {whole rest : ℕ} {A F V : ℚ}

/-- Thousandths are far from the least floats. -/
theorem thousandths_eq_zero_or_le (n : ℕ) : (n : ℚ) / 1000 = 0 ∨ (2 : ℚ) ^ (-10 : ℤ) ≤ n / 1000 := by
  rcases Nat.eq_zero_or_pos n with rfl | hpos
  · simp
  · have hone : (1 : ℚ) ≤ n := by exact_mod_cast hpos
    refine Or.inr (le_trans (by norm_num : (2 : ℚ) ^ (-10 : ℤ) ≤ 1 / 1000) ?_)
    linarith

theorem abs_sub_thousandths_le {n : ℕ} {r : ℚ} (h : Rounds ((n : ℚ) / 1000) r) :
    |r - n / 1000| ≤ n / 1000 * 2 ^ (-53 : ℤ) :=
  h.error_le ((thousandths_eq_zero_or_le n).imp_right (le_trans (two_zpow_le (by decide))))

theorem thousandths_lt_one (hrest : rest < 1000) : (rest : ℚ) / 1000 < 1 := by
  rw [div_lt_one (by norm_num)]
  exact_mod_cast hrest

theorem rounded_rest_le (hrest : rest < 1000) (hF : Rounds ((rest : ℚ) / 1000) F) : F ≤ rest / 1000 + 1 / 2 ^ 53 := by
  have hle := (thousandths_lt_one hrest).le
  have herr := (abs_le.1 (abs_sub_thousandths_le hF)).2
  have hunit : (2 : ℚ) ^ (-53 : ℤ) = 1 / 2 ^ 53 := by norm_num
  rw [hunit] at herr
  have := mul_le_mul_of_nonneg_right hle (by positivity : (0 : ℚ) ≤ 1 / 2 ^ 53)
  linarith

theorem rounded_rest_lt_one (hrest : rest < 1000) (hF : Rounds ((rest : ℚ) / 1000) F) : F < 1 := by
  have hrest' : (rest : ℚ) + 1 ≤ 1000 := by exact_mod_cast hrest
  linarith [rounded_rest_le hrest hF]

/-- A rest below the last tie of some places stays below it when it is rounded. -/
theorem rounded_rest_lt (hrest : rest < 1000) (hF : Rounds ((rest : ℚ) / 1000) F) {j : ℕ}
    (h : (rest : ℚ) / 1000 < 1 - 2 ^ (-j : ℤ)) : F < 1 - 2 ^ (-j : ℤ) := by
  have hle := rounded_rest_le hrest hF
  rcases le_or_gt j 10 with hj | hj
  · -- thousandths are further from a tie of at most ten places than they are moved
    have hunit : (2 : ℚ) ^ j * 2 ^ (-j : ℤ) = 1 := by rw [← zpow_natCast, ← two_zpow_add]; simp
    have hlow : 1 / 1024 ≤ (2 : ℚ) ^ (-j : ℤ) :=
      le_trans (by norm_num) (two_zpow_le (by omega : (-10 : ℤ) ≤ -j))
    generalize (2 : ℚ) ^ (-j : ℤ) = u at h hunit hlow
    have hwhole : rest * 2 ^ j + 1 + 1000 ≤ 1000 * 2 ^ j := by
      have hlt : (rest : ℚ) * 2 ^ j + 1000 < 1000 * 2 ^ j := by
        rw [div_lt_iff₀ (by norm_num)] at h
        have := mul_lt_mul_of_pos_right h (by positivity : (0 : ℚ) < 2 ^ j)
        linarith
      have : rest * 2 ^ j + 1000 < 1000 * 2 ^ j := by exact_mod_cast hlt
      omega
    have hgap : (rest : ℚ) + u + 1000 * u ≤ 1000 := by
      have hcast : (rest : ℚ) * 2 ^ j + 1 + 1000 ≤ 1000 * 2 ^ j := by exact_mod_cast hwhole
      have hscaled := mul_le_mul_of_nonneg_right hcast (by linarith : 0 ≤ u)
      have hleft : ((rest : ℚ) * 2 ^ j + 1 + 1000) * u = rest + u + 1000 * u := by linear_combination rest * hunit
      have hright : (1000 : ℚ) * 2 ^ j * u = 1000 := by linear_combination 1000 * hunit
      rwa [hleft, hright] at hscaled
    linarith
  · have hrest' : (rest : ℚ) + 1 ≤ 1000 := by exact_mod_cast hrest
    have hgap : (2 : ℚ) ^ (-j : ℤ) ≤ 1 / 2048 := le_trans (two_zpow_le (by omega : (-j : ℤ) ≤ -11)) (by norm_num)
    linarith

/-- The last tie below one second is short, so that nothing is rounded past it. -/
theorem isShort_one_sub {j : ℕ} (hj : j ≤ 53) : IsShort (1 - 2 ^ (-j : ℤ)) := by
  have hpos := Nat.one_le_two_pow (n := j)
  have hle : 2 ^ j ≤ 2 ^ 53 := Nat.pow_le_pow_right (by decide) hj
  refine ⟨2 ^ j - 1, -j, by omega, by omega, ?_⟩
  rw [Nat.cast_sub hpos, Nat.cast_pow, sub_mul, ← zpow_natCast, Nat.cast_ofNat, ← two_zpow_add]
  simp

/-! Rounding in steps stays below a power of two if rounding once does. The power decides
which step can reach it. -/

/-- A duration below one second is all rest. -/
theorem lt_two_zpow_iff_of_nonpos (hA : Rounds (whole : ℚ) A) (hF : Rounds ((rest : ℚ) / 1000) F)
    (hV : Rounds (A + F) V) {k : ℤ} (hk : -1021 ≤ k) (hk' : k ≤ 0) :
    V < 2 ^ k ↔ (whole + rest / 1000 : ℚ) < 2 ^ k - 2 ^ (k - 54) := by
  rcases Nat.eq_zero_or_pos whole with rfl | hpos
  · rw [Nat.cast_zero] at hA ⊢
    rw [hA.eq_zero, zero_add] at hV
    rw [zero_add, hV.eq_of_isShort hF.isShort hF.nonneg]
    exact hF.lt_two_zpow_iff hk (by positivity)
  · have hone : (1 : ℚ) ≤ whole := by exact_mod_cast hpos
    have hshort : IsShort 1 := by simpa using isShort_natCast (n := 1) (by decide)
    have hA' : 1 ≤ A := hA.short_le hshort hone
    have hV' : 1 ≤ V := hV.short_le hshort (by linarith [hF.nonneg])
    have hk'' : (2 : ℚ) ^ k ≤ 1 := by simpa using two_zpow_le hk'
    have hrest : (0 : ℚ) ≤ rest / 1000 := by positivity
    exact iff_of_false (by linarith) (by linarith [two_zpow_pos (k - 54)])

/-- Up to `2 ^ 53` seconds the whole ones are not rounded. -/
theorem lt_two_zpow_iff_of_le (hrest : rest < 1000) (hA : Rounds (whole : ℚ) A) (hF : Rounds ((rest : ℚ) / 1000) F)
    (hV : Rounds (A + F) V) {k : ℕ} (hk : 0 < k) (hk' : k ≤ 53) :
    V < 2 ^ (k : ℤ) ↔ (whole + rest / 1000 : ℚ) < 2 ^ (k : ℤ) - 2 ^ ((k : ℤ) - 54) := by
  have hf := thousandths_lt_one hrest
  have hf0 : (0 : ℚ) ≤ rest / 1000 := by positivity
  have hF1 := rounded_rest_lt_one hrest hF
  rw [hV.lt_two_zpow_iff (by omega) (add_nonneg hA.nonneg hF.nonneg), show (k : ℤ) - 54 = -(54 - k : ℕ) by omega,
    zpow_natCast]
  have hunit := two_zpow_pos (-(54 - k : ℕ))
  have hunit' : (2 : ℚ) ^ (-(54 - k : ℕ) : ℤ) ≤ 1 := by simpa using two_zpow_le (by omega : -((54 - k : ℕ) : ℤ) ≤ 0)
  rcases le_or_gt (2 ^ k) whole with hlarge | hsmall
  · have hlarge' : (2 : ℚ) ^ k ≤ whole := by exact_mod_cast hlarge
    have hA' : (2 : ℚ) ^ k ≤ A := by
      refine hA.short_le ?_ hlarge'
      simpa using isShort_two_zpow (e := k) (by omega)
    exact iff_of_false (by linarith [hF.nonneg]) (by linarith)
  have hwhole : whole < 2 ^ 53 := hsmall.trans_le (Nat.pow_le_pow_right (by decide) hk')
  rw [hA.eq_of_isShort (isShort_natCast hwhole) whole.cast_nonneg]
  -- only in the last second before the power does the rest decide
  rcases Nat.lt_or_eq_of_le (Nat.succ_le_of_lt hsmall) with hless | hlast
  · have hless' : (whole : ℚ) + 1 + 1 ≤ 2 ^ k := by exact_mod_cast hless
    exact iff_of_true (by linarith) (by linarith)
  · have hlast' : (2 : ℚ) ^ k = whole + 1 := by exact_mod_cast hlast.symm
    rw [hlast', add_sub_assoc, add_lt_add_iff_left, add_lt_add_iff_left]
    constructor
    · intro h
      by_contra! hge
      exact absurd h (not_lt.2 (hF.short_le (isShort_one_sub (by omega)) hge))
    · exact rounded_rest_lt hrest hF

/-- Only whole seconds matter above that, and no duration is as long as `2 ^ 55` of them. -/
theorem lt_two_zpow_iff_of_large (hwhole : 1000 * whole < 2 ^ 64) (hrest : rest < 1000) (hA : Rounds (whole : ℚ) A)
    (hF : Rounds ((rest : ℚ) / 1000) F) (hV : Rounds (A + F) V) {k : ℤ} (hk : 54 ≤ k) :
    V < 2 ^ k ↔ (whole + rest / 1000 : ℚ) < 2 ^ k - 2 ^ (k - 54) := by
  have hF1 := rounded_rest_lt_one hrest hF
  have hf := thousandths_lt_one hrest
  rw [hV.lt_two_zpow_iff (by omega) (add_nonneg hA.nonneg hF.nonneg)]
  rcases hk.eq_or_lt with rfl | hk
  · -- whole seconds are rounded to even numbers here
    have htie : (2 : ℚ) ^ (54 : ℤ) - 2 ^ ((54 : ℤ) - 54) = 2 ^ 54 - 1 := by norm_num
    rw [htie]
    rcases le_or_gt (2 ^ 54) (whole + 1) with hlarge | hsmall
    · have hlarge' : (2 : ℚ) ^ 54 ≤ whole + 1 := by exact_mod_cast hlarge
      have hA' : (2 : ℚ) ^ (54 : ℤ) ≤ A := by
        by_contra! hlt
        rw [hA.lt_two_zpow_iff (by decide) whole.cast_nonneg, htie] at hlt
        linarith
      have hrest' : (0 : ℚ) ≤ rest / 1000 := by positivity
      rw [zpow_ofNat] at hA'
      exact iff_of_false (by linarith [hF.nonneg]) (by linarith)
    · have hsmall' : (whole : ℚ) + 2 ≤ 2 ^ 54 := by exact_mod_cast (by omega : whole + 2 ≤ 2 ^ 54)
      have hA' : A ≤ 2 ^ 54 - 2 :=
        hA.le_short ⟨2 ^ 53 - 1, 1, by decide, by decide, by norm_num⟩ whole.cast_nonneg (by linarith)
      exact iff_of_true (by linarith) (by linarith)
  · have hsmall : (whole : ℚ) + 4 ≤ 2 ^ 55 := by exact_mod_cast (by omega : whole + 4 ≤ 2 ^ 55)
    have hA' : A ≤ 2 ^ 55 - 4 :=
      hA.le_short ⟨2 ^ 53 - 1, 2, by decide, by decide, by norm_num⟩ whole.cast_nonneg (by linarith)
    have htie : (2 : ℚ) ^ 55 - 2 ≤ 2 ^ k - 2 ^ (k - 54) := by
      have hunit : (2 : ℚ) ^ (1 : ℤ) ≤ 2 ^ (k - 54) := two_zpow_le (by omega)
      have hpower : (2 : ℚ) ^ k = 2 ^ 54 * 2 ^ (k - 54) := by
        rw [← zpow_natCast, ← two_zpow_add]
        congr 1
        push_cast
        omega
      rw [hpower]
      norm_num at hunit ⊢
      linarith
    exact iff_of_true (by linarith) (by linarith)

end Seconds

/-- **A duration of milliseconds in seconds**: the whole ones and the rest are rounded, and
then their sum is. -/
def AsSeconds (ms : ℕ) (v : ℚ) : Prop :=
  ∃ A F, Rounds ((ms / 1000 : ℕ) : ℚ) A ∧ Rounds (((ms % 1000 : ℕ) : ℚ) / 1000) F ∧ Rounds (A + F) v

variable {ms : ℕ} {v : ℚ}

theorem number?_seconds (hms : ms < 2 ^ 64) : ∃ v, AsSeconds ms v ∧ number? (seconds (ms * 1000000)) = some v := by
  have hunit : number? 1000000000.0 = some 1000000000 := by
    have h : (1000000000.0 : Float).toModel.unpack = .finite .positive 8388608000000000 (-23) (by decide) := rfl
    simp only [number?, h]
    norm_num
  have hwhole : ms * 1000000 / 1000000000 = ms / 1000 := by omega
  have hrest : ms * 1000000 % 1000000000 = ms % 1000 * 1000000 := by omega
  have hsmall : ((ms / 1000 : ℕ) : ℚ) ≤ 2 ^ 64 := by exact_mod_cast (Nat.div_le_self _ _).trans hms.le
  obtain ⟨A, hA, hnumA⟩ := (isRounding_ofNat (ms / 1000)).exists_number? (Nat.cast_nonneg _)
    (hsmall.trans (by norm_num))
  have hA' : A ≤ 2 ^ 64 := hA.le_short (isShort_two_zpow (e := 64) (by decide)) (Nat.cast_nonneg _) hsmall
  have hmod : ms % 1000 < 1000 := Nat.mod_lt _ (by decide)
  have hquot : ((ms % 1000 * 1000000 : ℕ) : ℚ) / 1000000000 = ((ms % 1000 : ℕ) : ℚ) / 1000 := by
    push_cast
    ring
  have hF := isRounding_div (number?_ofNat (n := ms % 1000 * 1000000) (by omega)) hunit (by norm_num)
  rw [hquot] at hF
  have hle := (thousandths_lt_one hmod).le
  obtain ⟨F, hF, hnumF⟩ := hF.exists_number? (by positivity) (hle.trans (by norm_num))
  have hF1 := rounded_rest_lt_one hmod hF
  obtain ⟨v, hv, hnumv⟩ := (isRounding_add hnumA hnumF).exists_number? (add_nonneg hA.nonneg hF.nonneg)
    (by linarith)
  refine ⟨v, ⟨A, F, hA, hF, hv⟩, ?_⟩
  unfold seconds
  rwa [hwhole, hrest]

namespace AsSeconds

theorem isShort (h : AsSeconds ms v) : IsShort v := by
  obtain ⟨A, F, -, -, hv⟩ := h
  exact hv.isShort

theorem nonneg (h : AsSeconds ms v) : 0 ≤ v := by
  obtain ⟨A, F, -, -, hv⟩ := h
  exact hv.nonneg

theorem split_seconds (ms : ℕ) : ((ms / 1000 : ℕ) : ℚ) + ((ms % 1000 : ℕ) : ℚ) / 1000 = ms / 1000 := by
  exact_mod_cast (natCast_div_eq ms (by decide : 0 < 1000)).symm

/-- **Rounding in steps** decides as if the duration were rounded once. -/
theorem lt_two_zpow_iff (h : AsSeconds ms v) (hms : ms < 2 ^ 64) {k : ℤ} (hk : -1021 ≤ k) :
    v < 2 ^ k ↔ (ms / 1000 : ℚ) < 2 ^ k - 2 ^ (k - 54) := by
  obtain ⟨A, F, hA, hF, hv⟩ := h
  have hrest : ms % 1000 < 1000 := Nat.mod_lt _ (by decide)
  rw [← split_seconds]
  rcases le_or_gt k 0 with h0 | h0
  · exact lt_two_zpow_iff_of_nonpos hA hF hv hk h0
  rcases le_or_gt 54 k with h54 | h54
  · exact lt_two_zpow_iff_of_large (by omega) hrest hA hF hv h54
  · obtain ⟨j, rfl⟩ := Int.eq_ofNat_of_zero_le h0.le
    exact lt_two_zpow_iff_of_le hrest hA hF hv (by omega) (by omega)

/-- All rounding together moves a duration by little. -/
theorem abs_sub_le (h : AsSeconds ms v) : |v - ms / 1000| ≤ ms / 1000 * 2 ^ (-51 : ℤ) := by
  obtain ⟨A, F, hA, hF, hv⟩ := h
  have herrA : |A - (ms / 1000 : ℕ)| ≤ (ms / 1000 : ℕ) * 2 ^ (-53 : ℤ) := by
    have hthousand : (((1000 * (ms / 1000) : ℕ) : ℚ)) / 1000 = (ms / 1000 : ℕ) := by
      push_cast
      ring
    rw [← hthousand] at hA ⊢
    exact abs_sub_thousandths_le hA
  have herrF := abs_sub_thousandths_le hF
  have hsplit := split_seconds ms
  have hsum : |A + F - ms / 1000| ≤ ms / 1000 * 2 ^ (-53 : ℤ) := by
    rw [← hsplit, add_sub_add_comm, add_mul]
    exact (abs_add_le _ _).trans (add_le_add herrA herrF)
  have hunit : (2 : ℚ) ^ (-53 : ℤ) = 1 / 2 ^ 53 := by norm_num
  have hunit' : (2 : ℚ) ^ (-51 : ℤ) = 4 / 2 ^ 53 := by norm_num
  rw [hunit] at hsum
  rw [hunit']
  obtain ⟨hlow, hhigh⟩ := abs_le.1 hsum
  have hms : (0 : ℚ) ≤ ms / 1000 := by positivity
  have hms' := thousandths_eq_zero_or_le ms
  generalize (ms : ℚ) / 1000 = m at *
  -- the sum is zero or far from subnormal, so the error is relative to it
  have herr : |v - (A + F)| ≤ (A + F) * 2 ^ (-53 : ℤ) := by
    refine hv.error_le (hms'.imp (fun hzero => by linarith) fun hlarge => ?_)
    refine (two_zpow_le (by decide : (-1022 : ℤ) ≤ -11)).trans ?_
    norm_num at hlarge ⊢
    linarith
  rw [hunit] at herr
  obtain ⟨hlow', hhigh'⟩ := abs_le.1 herr
  rw [abs_le]
  constructor <;> linarith

end AsSeconds

/-! ## Products -/

/-- **A number of seconds as a duration** is the nearest one, if it is below the limit. -/
theorem ofSeconds_of_number {x : Float} {q : ℚ} (h : number? x = some q) :
    (2 ^ 64 ≤ q ∧ ofSeconds x = .error .tooBig) ∨
      (q < 2 ^ 64 ∧ ∃ d, ofSeconds x = .ok d ∧ IsNearest (q * 1000000000) d) := by
  have hneg : ¬x < 0.0 := by
    rw [lt_iff h number?_zero]
    exact not_lt.2 (number?_nonneg h)
  unfold ofSeconds
  rw [if_neg hneg, isNaN_eq_false h, isInf_eq_false h]
  rcases ofFloat?_cases h with ⟨rfl, hb⟩ | ⟨b, hb, -, rfl⟩ <;> rw [hb]
  · refine Or.inr ⟨by norm_num, 0, rfl, ?_⟩
    simpa using IsNearest.natCast 0
  have hdown : (0 : ℚ) < (2 ^ (-b.exponent).toNat : ℕ) := by positivity
  have hvalue : (b.mantissa : ℚ) * 2 ^ b.exponent =
      ((b.mantissa * 2 ^ b.exponent.toNat : ℕ) : ℚ) / (2 ^ (-b.exponent).toNat : ℕ) := by
    rw [eq_div_iff hdown.ne']
    push_cast
    rw [mul_assoc, ← zpow_natCast, ← zpow_natCast, ← two_zpow_add]
    congr 2
    omega
  -- the limit is compared without fractions
  have hlimit : Nat.pow 2 64 * Nat.pow 2 (-b.exponent).toNat ≤ b.mantissa * Nat.pow 2 b.exponent.toNat ↔
      (2 : ℚ) ^ 64 ≤ b.mantissa * 2 ^ b.exponent := by
    rw [hvalue, le_div_iff₀ hdown]
    exact_mod_cast Iff.rfl
  simp only [Bool.or_self, Bool.false_eq_true, if_false, hlimit]
  split_ifs with hle
  · exact Or.inl ⟨hle, rfl⟩
  · refine Or.inr ⟨not_le.1 hle, _, rfl, ?_⟩
    have hnear := isNearest_roundDiv (b.mantissa * 2 ^ b.exponent.toNat * 1000000000)
      (by positivity : 0 < 2 ^ (-b.exponent).toNat)
    rwa [Nat.cast_mul, mul_div_right_comm, ← hvalue] at hnear

/-- No duration is infinite. -/
theorem ofSeconds_of_isInfinite {x : Float} (h : IsInfinite x) : ofSeconds x = .error .tooBig := by
  have hneg : ¬x < 0.0 := by
    rw [lt_iff_unpack, h]
    decide
  unfold ofSeconds
  rw [if_neg hneg, h.isInf, Bool.or_true, if_pos rfl]

theorem ofSeconds_of_notANumber {x : Float} (h : x.toModel.unpack = .notANumber) : ofSeconds x = .error .tooBig := by
  have hneg : ¬x < 0.0 := by
    rw [lt_iff_unpack, h]
    decide
  have hnan : x.isNaN = true := by
    change x.toModel.unpack.isNaN = true
    rw [h]
    rfl
  unfold ofSeconds
  rw [if_neg hneg, hnan, Bool.true_or, if_pos rfl]

/-- **A power of two times a duration** is exact, or no duration. -/
theorem ofSeconds_mul (hx : IsPower x k) (hy : number? y = some v) (hv : IsShort v) :
    ((k < 1024 ∧ 2 ^ k * v < 2 ^ 64) ∧ ∃ d, ofSeconds (x * y) = .ok d ∧ IsNearest (2 ^ k * v * 1000000000) d) ∨
      (¬(k < 1024 ∧ 2 ^ k * v < 2 ^ 64) ∧ ofSeconds (x * y) = .error .tooBig) := by
  have hnonneg := number?_nonneg hy
  rcases hx with ⟨hk, hx⟩ | ⟨hk, hx⟩
  · have hshort : IsShort (2 ^ k * v) := by
      obtain ⟨m, e, hm, he, rfl⟩ := hv
      refine ⟨m, e + k, hm, by omega, ?_⟩
      rw [two_zpow_add, zpow_natCast]
      ring
    have hproduct : (0 : ℚ) ≤ 2 ^ k * v := mul_nonneg (by positivity) hnonneg
    obtain ⟨r, hr, ⟨-, hnum⟩ | ⟨hge, hinf⟩⟩ := isRounding_mul hx hy
    · rw [hr.eq_of_isShort hshort hproduct] at hnum
      rcases ofSeconds_of_number hnum with ⟨hge, herr⟩ | ⟨hlt, hd⟩
      · exact Or.inr ⟨fun h => absurd h.2 (not_lt.2 hge), herr⟩
      · exact Or.inl ⟨⟨hk, hlt⟩, hd⟩
    · rw [hr.eq_of_isShort hshort hproduct] at hge
      have hlimit : (2 : ℚ) ^ (64 : ℤ) ≤ 2 ^ (1024 : ℤ) := two_zpow_le (by decide)
      rw [zpow_ofNat] at hlimit
      exact Or.inr ⟨fun h => absurd h.2 (not_lt.2 (hlimit.trans hge)), ofSeconds_of_isInfinite hinf⟩
  · refine Or.inr ⟨fun h => absurd h.1 (not_lt.2 hk), ?_⟩
    rcases mul_of_isInfinite hx hy with ⟨-, hnan⟩ | ⟨-, hinf⟩
    · exact ofSeconds_of_notANumber hnan
    · exact ofSeconds_of_isInfinite hinf

/-- What is below the limit in seconds, in milliseconds. -/
theorem AsSeconds.mul_lt_iff (h : AsSeconds ms v) (hms : ms < 2 ^ 64) (hk : k < 1024) :
    2 ^ k * v < 2 ^ 64 ↔ ms * 2 ^ k < 1000 * (2 ^ 64 - 2 ^ 10) := by
  have hpos : (0 : ℚ) < 2 ^ k := by positivity
  have hshift (e : ℕ) : (2 : ℚ) ^ e = 2 ^ k * 2 ^ ((e : ℤ) - k) := by
    rw [← zpow_natCast, ← zpow_natCast, ← two_zpow_add]
    congr 1
    omega
  have hsecond : (2 : ℚ) ^ ((64 : ℕ) - k - 54 : ℤ) = 2 ^ ((10 : ℕ) - k : ℤ) := by
    congr 1
    omega
  rw [hshift 64, mul_lt_mul_iff_right₀ hpos, h.lt_two_zpow_iff hms (by omega), hsecond, ← mul_lt_mul_iff_right₀ hpos,
    mul_sub, ← hshift, ← hshift, ← mul_div_assoc, div_lt_iff₀ (by norm_num)]
  rw [← Nat.cast_lt (α := ℚ)]
  push_cast
  rw [mul_comm (ms : ℚ)]
  norm_num

/-- **The bound hides all rounding.** -/
theorem AsSeconds.min_eq (h : AsSeconds ms v) {d : ℕ} (hd : IsNearest (2 ^ k * v * 1000000000) d) :
    min d 10000000000 = min (ms * 1000000 * 2 ^ k) 10000000000 := by
  obtain ⟨N, hN⟩ : ∃ N, ms * 1000000 * 2 ^ k = N := ⟨_, rfl⟩
  have hexact : (2 : ℚ) ^ k * (ms / 1000) * 1000000000 = N := by
    rw [← hN]
    push_cast
    ring
  have hscale : (0 : ℚ) ≤ 2 ^ k * 1000000000 := by positivity
  have herr : |2 ^ k * v * 1000000000 - N| ≤ (N : ℚ) / 2 ^ 51 := by
    have hunit : (2 : ℚ) ^ (-51 : ℤ) = 1 / 2 ^ 51 := by norm_num
    have habs := mul_le_mul_of_nonneg_left h.abs_sub_le hscale
    rw [← abs_of_nonneg hscale, ← abs_mul, abs_of_nonneg hscale, hunit] at habs
    calc |2 ^ k * v * 1000000000 - N| = |2 ^ k * 1000000000 * (v - ms / 1000)| := by
          rw [← hexact]
          congr 1
          ring
      _ ≤ _ := habs
      _ = N / 2 ^ 51 := by
          rw [← hexact]
          ring
  obtain ⟨hlow, hhigh⟩ := abs_le.1 herr
  rw [hN]
  -- a small product is off by less than half a nanosecond, a large one is over the bound in any case
  rcases le_or_gt N (2 ^ 40) with hsmall | hlarge
  · have hsmall' : (N : ℚ) ≤ 2 ^ 40 := by exact_mod_cast hsmall
    rw [hd.eq_of_lt (k := N) (by linarith) (by linarith)]
  · have hlarge' : (2 : ℚ) ^ 40 ≤ N := by exact_mod_cast hlarge.le
    have hd' : 10000000000 ≤ d := hd.natCast_le (by push_cast; linarith)
    rw [min_eq_right hd', min_eq_right (by omega)]

/-! ## Delays -/

/-- **The delay that is meant**: it doubles with each attempt, up to ten seconds. -/
def doubled (backoff n : ℕ) : ℕ := min (backoff * 1000000 * 2 ^ (n - 1)) 10000000000

/-- What is doubled fits a duration before it is bounded. -/
def Fits (backoff n : ℕ) : Prop := n ≤ 1024 ∧ backoff * 2 ^ (n - 1) < 1000 * (2 ^ 64 - 2 ^ 10)

instance (backoff n : ℕ) : Decidable (Fits backoff n) := inferInstanceAs (Decidable (_ ∧ _))

theorem doubled_mono (backoff : ℕ) {m n : ℕ} (h : m ≤ n) : doubled backoff m ≤ doubled backoff n := by
  have hpow : 2 ^ (m - 1) ≤ 2 ^ (n - 1) := Nat.pow_le_pow_right (by decide) (by omega)
  exact min_le_min_right _ (Nat.mul_le_mul_left _ hpow)

theorem Fits.of_le {backoff m n : ℕ} (h : Fits backoff n) (hle : m ≤ n) : Fits backoff m := by
  have hpow : 2 ^ (m - 1) ≤ 2 ^ (n - 1) := Nat.pow_le_pow_right (by decide) (by omega)
  exact ⟨hle.trans h.1, (Nat.mul_le_mul_left _ hpow).trans_lt h.2⟩

section Policy

variable {settings : GeneratorSettings} {n : ℕ}

theorem delay_eq (settings : GeneratorSettings) (n : ℕ) :
    (policyOf settings).delay n =
      (ofSeconds (power 2.0 (wrap32 (n - 1)) * seconds (settings.initialBackoff * 1000000))).map
        (min · 10000000000) := rfl

/-- **The delay is the one that is meant, if it fits.** -/
theorem delay_of_le (hbackoff : settings.initialBackoff < 2 ^ 64) (hn : 1 ≤ n) (hle : n ≤ 2 ^ 31) :
    (policyOf settings).delay n =
      if Fits settings.initialBackoff n then .ok (doubled settings.initialBackoff n) else .error .tooBig := by
  have hwrap : wrap32 (n - 1) = ((n - 1 : ℕ) : ℤ) := by
    change Int.bmod _ 4294967296 = _
    exact Int.bmod_eq_of_le (by omega) (by omega)
  obtain ⟨v, hv, hnum⟩ := number?_seconds hbackoff
  have hfits : (n - 1 < 1024 ∧ 2 ^ (n - 1) * v < 2 ^ 64) ↔ Fits settings.initialBackoff n := by
    have hcount : n ≤ 1024 ↔ n - 1 < 1024 := by omega
    rw [Fits, hcount]
    exact and_congr_right fun h => hv.mul_lt_iff hbackoff h
  rw [delay_eq, hwrap]
  rcases ofSeconds_mul (isPower_power (k := n - 1) (by omega)) hnum hv.isShort with ⟨h, d, hd, hnear⟩ | ⟨h, herr⟩
  · rw [if_pos (hfits.1 h), hd]
    exact congrArg _ (hv.min_eq hnear)
  · rw [if_neg fun h' => h (hfits.2 h'), herr]
    rfl

/-- Half of the attempts there can be count down to the power one. -/
theorem exists_delay_of_lt (hbackoff : settings.initialBackoff < 2 ^ 64) (hlt : 2 ^ 31 < n) (hn : n < 2 ^ 32) :
    ∃ d, (policyOf settings).delay n = .ok d := by
  obtain ⟨k, hk, hk', hwrap⟩ : ∃ k : ℕ, 0 < k ∧ k < 2 ^ 64 ∧ wrap32 (n - 1) = -(k : ℤ) := by
    refine ⟨2 ^ 32 - (n - 1), by omega, by omega, ?_⟩
    change Int.bmod _ 4294967296 = _
    rw [Int.bmod_def]
    omega
  have hneg : power 2.0 (-(k : ℤ)) = 1.0 / power 2.0 k := by
    simp only [power, Int.natAbs_neg, Int.natAbs_natCast]
    rw [if_pos (by omega), if_neg (by omega)]
  have hfactor : ∃ c, c ≤ 1 ∧ number? (1.0 / power 2.0 k) = some c := by
    rcases isPower_power hk' with ⟨-, hnum⟩ | ⟨-, hinf⟩
    · have hpos : (1 : ℚ) ≤ 2 ^ k := one_le_pow₀ (by norm_num)
      have hone : (1 : ℚ) / 2 ^ k ≤ 1 := by rwa [div_le_one (by positivity)]
      obtain ⟨c, hc, hnum'⟩ := (isRounding_div number?_one hnum (by positivity)).exists_number? (by positivity)
        (hone.trans (by norm_num))
      exact ⟨c, hc.le_short (by simpa using isShort_natCast (n := 1) (by decide)) (by positivity) hone, hnum'⟩
    · exact ⟨0, by norm_num, number?_div_of_isInfinite number?_one hinf⟩
  obtain ⟨c, hc, hfactor⟩ := hfactor
  obtain ⟨v, hv, hnum⟩ := number?_seconds hbackoff
  -- a product with a factor of at most one stays below the limit
  have hv' : v < 2 ^ (63 : ℤ) := by
    rw [hv.lt_two_zpow_iff hbackoff (by decide), div_lt_iff₀ (by norm_num)]
    have hcast : (settings.initialBackoff : ℚ) < 2 ^ 64 := by exact_mod_cast hbackoff
    norm_num
    linarith
  have hproduct : c * v ≤ 2 ^ 63 := (mul_le_of_le_one_left hv.nonneg hc).trans hv'.le
  have hnonneg : 0 ≤ c * v := mul_nonneg (number?_nonneg hfactor) hv.nonneg
  obtain ⟨r, hr, hnum'⟩ := (isRounding_mul hfactor hnum).exists_number? hnonneg (hproduct.trans (by norm_num))
  have hr' : r ≤ 2 ^ 63 := hr.le_short (isShort_two_zpow (e := 63) (by decide)) hnonneg hproduct
  rw [delay_eq, hwrap, hneg]
  rcases ofSeconds_of_number hnum' with ⟨hge, -⟩ | ⟨-, d, hd, -⟩
  · exact absurd (hge.trans hr') (by norm_num)
  · exact ⟨_, by rw [hd]; rfl⟩

end Policy

/-! ## Runs -/

section Runs

variable {delay : ℕ → Except DelayFault ℕ} {last : ℕ} {f : ℕ → ℕ} {σ : Type}

/-- Attempts that all have a delay come to an end, with the delays between them. -/
theorem attemptsFrom_of_delays (hdelay : ∀ n, 1 ≤ n → n < last → delay n = .ok (f n)) (inner : Generator σ)
    (request : Request) (left : ℕ) {k : ℕ} (hk : k < last) {delays : List ℕ}
    (hdelays : delays.reverse = (List.range' 1 k).map f) (state : σ) :
    ∃ trial j, attemptsFrom delay last inner request left (k + 1) delays state = .ok trial ∧ j < last ∧
      trial.delays = (List.range' 1 j).map f := by
  induction left generalizing k delays state with
  | zero => exact ⟨_, k, rfl, hk, hdelays⟩
  | succ left ih =>
    unfold attemptsFrom
    rcases inner request state with ⟨e | text, state⟩ <;> dsimp only
    · split_ifs with hretry hlast
      · exact ⟨_, k, rfl, hk, hdelays⟩
      · exact ⟨_, k, rfl, hk, hdelays⟩
      · rw [hdelay (k + 1) (by omega) (by omega)]
        refine ih (by omega) ?_ state
        rw [List.reverse_cons, hdelays, List.range'_concat, List.map_append, List.map_singleton, one_mul, add_comm 1 k]
    · exact ⟨_, k, rfl, hk, hdelays⟩

/-- A provider that is always too busy. -/
def busy : Generator Unit := fun _ state => (.error (.provider 503 "busy"), state)

/-- Attempts that all fail come to the first one without a delay. -/
theorem attemptsFrom_busy {m : ℕ} {fault : DelayFault} (hfault : delay m = .error fault) (hm : m < last)
    (request : Request) {left number : ℕ} (hle : number ≤ m) (hleft : m < number + left) (delays : List ℕ) :
    ∃ fault, attemptsFrom delay last busy request left number delays () = .error fault := by
  induction left generalizing number delays with
  | zero => omega
  | succ left ih =>
    have hretry : Failure.isRetryable (.provider 503 "busy") = true := rfl
    simp only [attemptsFrom, busy, hretry, Bool.not_true, Bool.false_eq_true, if_false]
    rw [if_neg (by omega)]
    cases hdelay : delay number with
    | error fault => exact ⟨fault, rfl⟩
    | ok d =>
      have hne : number ≠ m := fun h => by
        rw [h, hfault] at hdelay
        cases hdelay
      exact ih (by omega) (by omega) _

end Runs

/-- **Delays double up to ten seconds as long as the product fits a duration**, and do not
shrink; the first product that does not fit ends a run. The bound comes after the product,
so it does not help. -/
theorem delays_doubled (settings : GeneratorSettings) (hbackoff : settings.initialBackoff < 2 ^ 64)
    (hattempts : settings.maxAttempts < 2 ^ 32) :
    let p := policyOf settings
    let b := settings.initialBackoff
    (∀ n, 1 ≤ n → n < p.maxAttempts → Fits b n → p.delay n = .ok (doubled b n)) ∧
      (∀ n, 1 ≤ n → n < p.maxAttempts → ((∃ fault, p.delay n = .error fault) ↔ ¬Fits b n ∧ n ≤ 2 ^ 31)) ∧
      (∀ m n, 1 ≤ m → m ≤ n → n < p.maxAttempts → Fits b n →
        ∃ d e, p.delay m = .ok d ∧ p.delay n = .ok e ∧ d ≤ e) ∧
      ((∀ n, 1 ≤ n → n < p.maxAttempts → Fits b n) →
        ∀ (σ : Type) (inner : Generator σ) request state, ∃ trial j, p.run inner request state = .ok trial ∧
          j < p.maxAttempts ∧ trial.delays = (List.range' 1 j).map (doubled b)) ∧
      ∀ n, 1 ≤ n → n < p.maxAttempts → ¬Fits b n → ∀ request, ∃ fault, p.run busy request () = .error fault := by
  intro p b
  have hmax : p.maxAttempts < 2 ^ 32 := max_lt (by decide) hattempts
  have hmax' : max 1 p.maxAttempts = p.maxAttempts := max_eq_right (le_max_left _ _)
  have hok : ∀ n, 1 ≤ n → n < p.maxAttempts → Fits b n → p.delay n = .ok (doubled b n) := by
    intro n hn hlt hfits
    rw [delay_of_le hbackoff hn (hfits.1.trans (by decide)), if_pos hfits]
  have herror : ∀ n, 1 ≤ n → n ≤ 2 ^ 31 → ¬Fits b n → p.delay n = .error .tooBig := by
    intro n hn hle hfits
    rw [delay_of_le hbackoff hn hle, if_neg hfits]
  refine ⟨hok, ?crash, ?mono, ?run, ?busy⟩
  case crash =>
    intro n hn hlt
    constructor
    · rintro ⟨fault, hfault⟩
      refine ⟨fun hfits => ?_, ?_⟩
      · rw [hok n hn hlt hfits] at hfault
        cases hfault
      · by_contra! hlarge
        obtain ⟨d, hd⟩ := exists_delay_of_lt hbackoff hlarge (hlt.trans hmax)
        rw [hd] at hfault
        cases hfault
    · exact fun h => ⟨_, herror n hn h.2 h.1⟩
  case mono =>
    intro m n hm hle hlt hfits
    exact ⟨_, _, hok m hm (hle.trans_lt hlt) (hfits.of_le hle), hok n (hm.trans hle) hlt hfits, doubled_mono b hle⟩
  case run =>
    intro hfits σ inner request state
    exact attemptsFrom_of_delays (fun n hn hlt => hok n hn hlt (hfits n hn hlt)) inner request _
      (le_max_left 1 settings.maxAttempts) (by simp) state
  case busy =>
    intro n hn hlt hfits request
    -- what does not fit at all does not fit at the latest after all exponents are used up
    obtain ⟨m, hm, hm', hlt', hfits'⟩ : ∃ m, 1 ≤ m ∧ m ≤ 2 ^ 31 ∧ m < p.maxAttempts ∧ ¬Fits b m := by
      rcases le_or_gt n 1025 with hle | hgt
      · exact ⟨n, hn, hle.trans (by decide), hlt, hfits⟩
      · exact ⟨1025, by decide, by decide, hgt.trans hlt, fun h => absurd h.1 (by decide)⟩
    unfold Policy.run
    rw [hmax']
    exact attemptsFrom_busy (herror m hm hm' hfits') hlt' request hm (by omega) []

/-- **Half a second cannot be doubled 65 times.** -/
theorem delays_doubled_hundredAttempts :
    500 < 2 ^ 64 ∧ 100 < 2 ^ 32 ∧ (policyOf { maxAttempts := 100 }).delay 65 = .ok 10000000000 ∧
      (∃ fault, (policyOf { maxAttempts := 100 }).delay 66 = .error fault) ∧
      ∃ fault, (policyOf { maxAttempts := 100 }).run busy default () = .error fault := by
  obtain ⟨hok, hcrash, -, -, hbusy⟩ := delays_doubled { maxAttempts := 100 } (by decide) (by decide)
  refine ⟨by decide, by decide, hok 65 (by decide) (by decide) (by decide), ?_, ?_⟩
  · exact (hcrash 66 (by decide) (by decide)).2 ⟨by decide, by decide⟩
  · exact hbusy 66 (by decide) (by decide) (by decide) default

end CodeAtlas.Retry
