import CodeAtlas.Proofs.Decimal.Rounding
import Mathlib

/-!
# Packed floats

A float is packed into a sign, a field for its exponent and 52 digits. What an operation
comes to is a mantissa with an exponent, rounded before it is packed.

* `unpack_eq`: how a float is taken apart.
* `unpack_pack`, `canonical_of_unpack`: what can be packed is what is unpacked.
* `Represents`: a mantissa and the digits after it.
* `yields_roundWithAccuracy`: **the mantissa is rounded as the quantity is.**
-/

namespace CodeAtlas.Decimal

open Float.Model Float.Model.UnpackedFloat

/-! ## Packed floats -/

/-- A mantissa and an exponent as they are packed: all 53 digits are used unless the
exponent is the least. -/
structure Canonical (m : ℕ) (e : ℤ) : Prop where
  pos : 0 < m
  lt : m < 2 ^ 53
  le : -1074 ≤ e
  normal : 2 ^ 52 ≤ m ∨ e = -1074

/-- The digits of a packed mantissa with the first one, which is not packed. -/
theorem toNat_one_append (m : BitVec 52) : (1#1 ++ m).toNat = 2 ^ 52 + m.toNat := by
  rw [BitVec.toNat_append, ← Nat.shiftLeft_add_eq_or_of_lt m.isLt]
  rfl

theorem unpack_pack_zero (s : Sign) : (Float.Model.pack (.zero s)).unpack = .zero s := by
  cases s <;> rfl

theorem unpack_pack_infinity (s : Sign) : (Float.Model.pack (.infinity s)).unpack = .infinity s := by
  cases s <;> rfl

/-- A mantissa and an exponent too large to be packed. -/
theorem unpack_pack_of_le {m : ℕ} {e : ℤ} (h : 0 < m) (s : Sign) (he : 972 ≤ e) :
    (Float.Model.pack (.finite s m e h)).unpack = .infinity s := by
  have hlarge : 2 ^ Format.binary64.exponentBits ≤
      (e + Format.binary64.exponentBias + Format.binary64.mantissaBitsWithoutImplicit).toNat + 1 := by
    simp only [Format.exponentBias]
    omega
  rw [← unpack_pack_infinity s]
  simp only [Float.Model.pack, UnpackedFloat.pack, if_pos hlarge]

/-- **A float is taken apart** into its sign, the field of its exponent and the other digits. -/
theorem unpack_eq (b : BitVec 64) :
    let field := (@unpackExponent Format.binary64 b).toNat
    let low := (@unpackMantissa Format.binary64 b).toNat
    let sign := Sign.ofBitVec (@unpackSign Format.binary64 b)
    UnpackedFloat.unpack Format.binary64 b =
      if field = 2047 then if low = 0 then .infinity sign else .notANumber
      else if field = 0 then
        if h : low = 0 then .zero sign else .finite sign low (-1074) (Nat.pos_of_ne_zero h)
      else .finite sign (2 ^ 52 + low) (field - 1075) (by omega) := by
  intro field low sign
  have hones : @unpackExponent Format.binary64 b = -1#11 ↔ field = 2047 := by
    rw [← BitVec.toNat_inj]; rfl
  have hzero : @unpackExponent Format.binary64 b = 0#11 ↔ field = 0 := by rw [← BitVec.toNat_inj]; rfl
  have hnone : @unpackMantissa Format.binary64 b = 0#52 ↔ low = 0 := by rw [← BitVec.toNat_inj]; rfl
  unfold UnpackedFloat.unpack
  simp only [hones, hzero, hnone, toNat_one_append]
  split_ifs with h₁ h₂ h₃ h₄
  · rfl
  · rfl
  · rfl
  · change UnpackedFloat.finite _ _ ((field : ℤ) - 1075 + 1) _ = _
    simp only [h₃]
    rfl
  · rfl

theorem toNat_unpackExponent (b : BitVec 64) :
    (@unpackExponent Format.binary64 b).toNat = b.toNat / 2 ^ 52 % 2 ^ 11 := by
  simp [unpackExponent, BitVec.extractLsb_toNat, Nat.shiftRight_eq_div_pow]

theorem toNat_unpackMantissa (b : BitVec 64) :
    (@unpackMantissa Format.binary64 b).toNat = b.toNat % 2 ^ 52 := by
  simp [unpackMantissa, BitVec.extractLsb_toNat]

/-- **Packing keeps** a mantissa and an exponent that are not too large. -/
theorem unpack_pack {m : ℕ} {e : ℤ} (h : Canonical m e) (s : Sign) (he : e ≤ 971) :
    (Float.Model.pack (.finite s m e h.pos)).unpack = .finite s m e h.pos := by
  obtain ⟨hpos, hlt, hle, hnormal⟩ := h
  obtain ⟨b, rfl⟩ : ∃ b : ℕ, e = (b : ℤ) - 1075 := ⟨(e + 1075).toNat, by omega⟩
  have hbias : ((b : ℤ) - 1075 + Format.binary64.exponentBias +
      Format.binary64.mantissaBitsWithoutImplicit).toNat = b := by
    simp only [Format.exponentBias]
    omega
  have hb : (BitVec.ofNat 11 b).toNat = b := by
    rw [BitVec.toNat_ofNat, Nat.mod_eq_of_lt (by omega)]
  have hfits : ¬2 ^ Format.binary64.exponentBits ≤ b + 1 := by
    simp only [not_le]
    omega
  have hbits : Format.binary64.mantissaBits = 53 := rfl
  simp only [Float.Model.pack, Float.Model.unpack, UnpackedFloat.pack, hbias, if_neg hfits, hbits]
  by_cases hfull : 2 ^ 52 ≤ m
  · -- all digits are there, and the first one is not packed
    have hlog : m.log2 + 1 = 53 := by
      have := (Nat.le_log2 hpos.ne').2 hfull
      have := (Nat.log2_lt hpos.ne').2 hlt
      omega
    have hmant : 2 ^ 52 + (BitVec.ofNat 52 m).toNat = m := by
      rw [BitVec.toNat_ofNat]
      omega
    rw [if_pos hlog, unpack_eq]
    simp only [unpackMantissa_packComponents, unpackExponent_packComponents, unpackSign_packComponents,
      Sign.ofBitVec_toBitVec, hb, hmant]
    rw [if_neg (by omega), if_neg (by omega)]
  · -- digits are missing only at the lowest exponent, whose field is 0
    obtain rfl : b = 1 := by omega
    have hlog : ¬m.log2 + 1 = 53 := by
      have := (Nat.log2_lt hpos.ne').2 (not_le.1 hfull)
      omega
    have hmant : (BitVec.ofNat 52 m).toNat = m := by
      rw [BitVec.toNat_ofNat, Nat.mod_eq_of_lt (not_le.1 hfull)]
    rw [if_neg hlog, unpack_eq]
    simp only [unpackMantissa_packComponents, unpackExponent_packComponents, unpackSign_packComponents,
      Sign.ofBitVec_toBitVec, hmant]
    rw [if_neg (by decide), if_pos (by decide), dif_neg hpos.ne']
    rfl

/-- What is unpacked can be packed. -/
theorem canonical_of_unpack {x : Float.Model} {s : Sign} {m : ℕ} {e : ℤ} {h : 0 < m}
    (hx : x.unpack = .finite s m e h) : Canonical m e ∧ e ≤ 971 := by
  have hexp : (@unpackExponent Format.binary64 x.toBits.toBitVec).toNat < 2 ^ 11 := BitVec.isLt _
  have hmant : (@unpackMantissa Format.binary64 x.toBits.toBitVec).toNat < 2 ^ 52 := BitVec.isLt _
  rw [Float.Model.unpack, unpack_eq] at hx
  dsimp only at hx
  split_ifs at hx with hones hnone hzero hnil
  · injection hx with _ hm he
    exact ⟨⟨h, by omega, by omega, by omega⟩, by omega⟩
  · injection hx with _ hm he
    exact ⟨⟨h, by omega, by omega, by omega⟩, by omega⟩

/-! ## Rounding a mantissa -/

/-- **A mantissa with what follows it**: its next digit, and whether any digit follows
that one. -/
def Represents (em : ExtendedMantissa) (x : ℚ) : Prop :=
  let shown : ℚ := em.mantissa + if em.roundBit then 1 / 2 else 0
  if em.stickyBit then shown < x ∧ x < shown + 1 / 2 else x = shown

variable {em : ExtendedMantissa} {x : ℚ} {m : ℕ} {e : ℤ} {acc : Accuracy}

theorem represents_exact (m : ℕ) : Represents (.ofMantissaAndAccuracy m .exact) m := by
  simp [Represents, ExtendedMantissa.ofMantissaAndAccuracy]

@[simp] theorem mantissa_ofMantissaAndAccuracy (m : ℕ) (acc : Accuracy) :
    (ExtendedMantissa.ofMantissaAndAccuracy m acc).mantissa = m := by
  rcases acc with _ | (_ | _ | _) <;> rfl

namespace Represents

theorem le (h : Represents em x) : (em.mantissa : ℚ) ≤ x := by
  rcases em with ⟨m, _ | _, _ | _⟩ <;> simp [Represents] at h <;> linarith

theorem lt (h : Represents em x) : x < em.mantissa + 1 := by
  rcases em with ⟨m, _ | _, _ | _⟩ <;> simp [Represents] at h <;> linarith

theorem isNearest (h : Represents em x) : IsNearest x em.roundedMantissa := by
  rcases em with ⟨m, _ | _, _ | _⟩ <;>
    simp only [Represents, ExtendedMantissa.roundedMantissa, ExtendedMantissa.accuracy, Accuracy.roundToNearestEven,
      Bool.false_eq_true, if_false, if_true, add_zero] at h ⊢
  · rw [h]
    exact .natCast m
  · refine ⟨by linarith, by linarith, ?_⟩
    rintro (h' | h') <;> exfalso <;> linarith
  · -- a tie goes to the even neighbour
    rcases Nat.mod_two_eq_zero_or_one m with hm | hm <;> rw [hm, h]
    · exact ⟨by push_cast; linarith, by push_cast; linarith, fun _ => by omega⟩
    · exact ⟨by push_cast; linarith, by push_cast; linarith, fun _ => by omega⟩
  · refine ⟨by push_cast; linarith, by push_cast; linarith, ?_⟩
    rintro (h' | h') <;> exfalso <;> push_cast at h' <;> linarith

theorem shiftRightOne (h : Represents em x) : Represents em.shiftRightOne (x / 2) := by
  have hle := h.le
  have hlt := h.lt
  have hodd : ((em.mantissa / 2 : ℕ) : ℚ) + (if em.mantissa % 2 != 0 then 1 / 2 else 0) = em.mantissa / 2 := by
    have hdiv : (em.mantissa : ℚ) = 2 * (em.mantissa / 2 : ℕ) + (em.mantissa % 2 : ℕ) := by
      exact_mod_cast (Nat.div_add_mod em.mantissa 2).symm
    rcases Nat.mod_two_eq_zero_or_one em.mantissa with hm | hm <;> rw [hm] at hdiv ⊢ <;> rw [hdiv]
    · simp
    · simp
      ring
  unfold Represents ExtendedMantissa.shiftRightOne
  dsimp only
  rw [hodd]
  rcases em with ⟨m, _ | _, _ | _⟩ <;> simp [Represents] at h hle hlt ⊢ <;> (try constructor) <;> linarith

theorem shiftRight (h : Represents em x) (k : ℕ) : Represents (em >>> k) (x / 2 ^ k) := by
  change Represents (k.repeat ExtendedMantissa.shiftRightOne em) _
  induction k with
  | zero => simpa [Nat.repeat] using h
  | succ k ih =>
    rw [pow_succ, ← div_div]
    exact ih.shiftRightOne

end Represents

/-- The exponent for a mantissa, in terms of its first digit. -/
theorem targetExponent_eq (t : ℤ) : Format.binary64.targetExponent t = max (t - 53) (-1074) := rfl

theorem intLog_eq_log2 (hpos : 0 < m) (hle : (m : ℚ) ≤ x) (hlt : x < m + 1) : Int.log 2 x = m.log2 := by
  have hx : 0 < x := lt_of_lt_of_le (by exact_mod_cast hpos) hle
  refine le_antisymm ?_ ?_
  · have hup : m + 1 ≤ 2 ^ (m.log2 + 1) := Nat.lt_log2_self
    have hup' : x < 2 ^ ((m.log2 : ℤ) + 1) := hlt.trans_le (by exact_mod_cast hup)
    have := (Int.lt_zpow_iff_log_lt one_lt_two hx).1 hup'
    omega
  · have hlow : 2 ^ m.log2 ≤ m := Nat.log2_self_le hpos.ne'
    exact (Int.zpow_le_iff_le_log one_lt_two hx).1 (le_trans (by exact_mod_cast hlow) hle)

theorem intLog_mul_two_zpow (hx : 0 < x) (e : ℤ) : Int.log 2 (x * 2 ^ e) = Int.log 2 x + e := by
  have hpos : 0 < x * 2 ^ e := mul_pos hx (two_zpow_pos e)
  refine le_antisymm ?_ ?_
  · have := Int.lt_zpow_succ_log_self one_lt_two x
    have hlt : x * 2 ^ e < 2 ^ (Int.log 2 x + 1 + e) := by
      rw [two_zpow_add]
      exact mul_lt_mul_of_pos_right this (two_zpow_pos e)
    have := (Int.lt_zpow_iff_log_lt one_lt_two hpos).1 hlt
    omega
  · refine (Int.zpow_le_iff_le_log one_lt_two hpos).1 ?_
    have hle : (2 : ℚ) ^ Int.log 2 x ≤ x := Int.zpow_log_le_self one_lt_two hx
    push_cast
    rw [two_zpow_add]
    exact mul_le_mul_of_nonneg_right hle (two_zpow_pos e).le

/-- **The exponent that is aimed at is the last place**, if no digits above it are missing. -/
theorem targetExponent_totalExponent (hx : 0 < x) (hle : (m : ℚ) ≤ x) (hlt : x < m + 1)
    (he : m = 0 → e ≤ lastPlace (x * 2 ^ e)) :
    Format.binary64.targetExponent (totalExponent m e) = lastPlace (x * 2 ^ e) := by
  rw [targetExponent_eq, totalExponent, lastPlace, intLog_mul_two_zpow hx]
  rcases Nat.eq_zero_or_pos m with rfl | hpos
  · have hlog : Int.log 2 x < 0 := (Int.lt_zpow_iff_log_lt one_lt_two hx).1 (by simpa using hlt)
    have hlow := he rfl
    rw [lastPlace, intLog_mul_two_zpow hx] at hlow
    simp only [Nat.log2_zero]
    omega
  · rw [intLog_eq_log2 hpos hle hlt]
    congr 1
    omega

/-- **A result is the rounding of a quantity**: zero, or the mantissa and the exponent of
what the quantity is rounded to. -/
def Yields (u : UnpackedFloat) (q : ℚ) : Prop :=
  ∃ r, Rounds q r ∧ ((r = 0 ∧ ∃ s, u = .zero s) ∨
    ∃ m e h, Canonical m e ∧ r = m * 2 ^ e ∧ u = .finite .positive m e h)

theorem shiftRight_zero (em : ExtendedMantissa) : em >>> 0 = em := rfl

/-- At most 53 digits need no shift. -/
theorem shiftToTargetExponent_of_lt (hm : m < 2 ^ 53) (he : -1074 ≤ e) :
    shiftToTargetExponent Format.binary64 m e .exact = (.ofMantissaAndAccuracy m .exact, e) := by
  have hlog : m.log2 ≤ 52 := by
    rcases Nat.eq_zero_or_pos m with rfl | hpos
    · decide
    · have := (Nat.log2_lt hpos.ne').2 hm
      omega
  have hzero : (Format.binary64.targetExponent (totalExponent m e) - e).toNat = 0 := by
    rw [targetExponent_eq, totalExponent]
    omega
  simp only [shiftToTargetExponent, shiftToExponent, hzero, shiftRight_zero]
  simp

/-- A power of two with 54 digits is shifted by one. -/
theorem shiftToTargetExponent_two_pow (he : -1074 ≤ e) :
    shiftToTargetExponent Format.binary64 (2 ^ 53) e .exact = (.ofMantissaAndAccuracy (2 ^ 52) .exact, e + 1) := by
  have hone : (Format.binary64.targetExponent (totalExponent (2 ^ 53) e) - e).toNat = 1 := by
    have hlog : Nat.log2 (2 ^ 53) = 53 := Nat.log2_two_pow
    rw [targetExponent_eq, totalExponent, hlog]
    omega
  simp only [shiftToTargetExponent, shiftToExponent, hone]
  rfl

/-- **Rounding rounds**, if no digits above the last place are missing. -/
theorem yields_roundWithAccuracy (hx : 0 < x) (h : Represents (.ofMantissaAndAccuracy m acc) x)
    (he : e ≤ lastPlace (x * 2 ^ e)) :
    Yields (roundWithAccuracy Format.binary64 .positive m e acc) (x * 2 ^ e) := by
  have hle := h.le
  have hlt := h.lt
  rw [mantissa_ofMantissaAndAccuracy] at hle hlt
  set q := x * 2 ^ e with hq
  have htarget : Format.binary64.targetExponent (totalExponent m e) = lastPlace q :=
    targetExponent_totalExponent hx hle hlt fun _ => he
  obtain ⟨k, hk⟩ := Int.le.dest he
  have hx' : x / 2 ^ k = q / 2 ^ lastPlace q := by
    rw [hq, ← hk, two_zpow_add, zpow_natCast]
    have := two_zpow_pos e
    field_simp
  have hnear := (h.shiftRight k).isNearest
  rw [hx'] at hnear
  set n := (ExtendedMantissa.ofMantissaAndAccuracy m acc >>> k).roundedMantissa with hn
  have hround : roundWithAccuracy Format.binary64 .positive m e acc =
      let final := shiftToTargetExponent Format.binary64 n (lastPlace q) .exact
      if h : final.1.mantissa = 0 then .zero .positive
      else .finite .positive final.1.mantissa final.2 (Nat.pos_of_ne_zero h) := by
    have hshift : (lastPlace q - e).toNat = k := by omega
    have hfirst : shiftToTargetExponent Format.binary64 m e acc =
        (ExtendedMantissa.ofMantissaAndAccuracy m acc >>> k, lastPlace q) := by
      simp only [shiftToTargetExponent, shiftToExponent, htarget, hshift, hk]
    simp only [roundWithAccuracy, hfirst, ← hn]
  have hplace := le_lastPlace q
  have hn53 : n ≤ 2 ^ 53 := by
    refine hnear.le_natCast ?_
    rw [div_le_iff₀ (two_zpow_pos _)]
    have := lt_two_zpow_lastPlace q
    rw [add_comm, two_zpow_add] at this
    exact_mod_cast this.le
  refine ⟨n * 2 ^ lastPlace q, ⟨n, hnear, rfl⟩, ?_⟩
  rcases hn53.eq_or_lt with hfull | hlt53
  · -- one digit too many: the first place has moved up
    rw [hfull, shiftToTargetExponent_two_pow hplace] at hround
    refine Or.inr ⟨2 ^ 52, lastPlace q + 1, by decide, ⟨by decide, by decide, by omega, Or.inl le_rfl⟩, ?_, hround⟩
    rw [hfull, two_zpow_add]
    push_cast
    ring
  rw [shiftToTargetExponent_of_lt hlt53 hplace] at hround
  rcases Nat.eq_zero_or_pos n with hzero | hpos
  · rw [hzero] at hround
    exact Or.inl ⟨by rw [hzero]; simp, _, hround⟩
  · refine Or.inr ⟨n, lastPlace q, hpos, ⟨hpos, hlt53, hplace, ?_⟩, rfl, ?_⟩
    · -- above the lowest place the quotient has all its digits, and rounding takes none away
      by_contra! hnot
      have htop := two_zpow_lastPlace_le (mul_pos hx (two_zpow_pos e)) (by omega : -1074 < lastPlace q)
      rw [add_comm, two_zpow_add, ← le_div_iff₀ (two_zpow_pos _)] at htop
      exact absurd (hnear.natCast_le (by exact_mod_cast htop)) (not_le.2 hnot.1)
    · rw [hround]
      exact dif_neg hpos.ne'

end CodeAtlas.Decimal
