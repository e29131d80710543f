import CodeAtlas.Proofs.Decimal.Packing

/-!
# Floats as numbers

A float that is not negative stands for a number, or is infinite. The operations on
such floats are those on numbers, rounded.

* `number?`: the number that a float stands for.
* `IsRounding`: a float is what a quantity is rounded to.
* `isRounding_add`, `isRounding_mul`, `isRounding_div`: **the operations round.**
* `le_iff`, `lt_iff`: comparisons are those of the numbers.
* `ofFloat?_cases`: the binary fraction that a float is.
-/

namespace CodeAtlas.Decimal

open Float.Model Float.Model.UnpackedFloat

/-! ## Numbers -/

/-- **The number that a float stands for**; there is none for a negative or infinite one. -/
def number? (x : Float) : Option ℚ :=
  match x.toModel.unpack with
  | .zero _ => some 0
  | .finite .positive m e _ => some (m * 2 ^ e)
  | _ => none

/-- A float is positive and infinite. -/
def IsInfinite (x : Float) : Prop := x.toModel.unpack = .infinity .positive

/-- **A float is what a quantity is rounded to**; beyond all floats that is an infinite one. -/
def IsRounding (x : Float) (q : ℚ) : Prop :=
  ∃ r, Rounds q r ∧ ((r < 2 ^ (1024 : ℤ) ∧ number? x = some r) ∨ (2 ^ (1024 : ℤ) ≤ r ∧ IsInfinite x))

variable {a b x : Float} {p q r : ℚ} {m n : ℕ} {e : ℤ}

/-- A number is zero, or the float has a mantissa and an exponent for it. -/
theorem number?_cases (h : number? x = some q) :
    (q = 0 ∧ ∃ s, x.toModel.unpack = .zero s) ∨
      ∃ m e hpos, Canonical m e ∧ e ≤ 971 ∧ q = m * 2 ^ e ∧ x.toModel.unpack = .finite .positive m e hpos := by
  unfold number? at h
  cases hx : x.toModel.unpack with
  | zero s =>
    rw [hx] at h
    exact Or.inl ⟨(Option.some.inj h).symm, s, rfl⟩
  | finite s m e hpos =>
    rw [hx] at h
    cases s with
    | negative => cases h
    | positive =>
      obtain ⟨hc, he⟩ := canonical_of_unpack hx
      exact Or.inr ⟨m, e, hpos, hc, he, (Option.some.inj h).symm, rfl⟩
  | infinity s =>
    rw [hx] at h
    cases h
  | notANumber =>
    rw [hx] at h
    cases h

theorem Canonical.value_pos (h : Canonical m e) : (0 : ℚ) < m * 2 ^ e :=
  mul_pos (by exact_mod_cast h.pos) (two_zpow_pos e)

/-- The exponent is the last place. -/
theorem Canonical.lastPlace (h : Canonical m e) : lastPlace ((m : ℚ) * 2 ^ e) = e := by
  have hpos : (0 : ℚ) < m := by exact_mod_cast h.pos
  have hlog : Int.log 2 (m : ℚ) = m.log2 := intLog_eq_log2 h.pos le_rfl (by linarith)
  have hlt := (Nat.log2_lt h.pos.ne').2 h.lt
  rw [Decimal.lastPlace, intLog_mul_two_zpow hpos, hlog]
  have := h.le
  rcases h.normal with hfull | rfl
  · have := (Nat.le_log2 h.pos.ne').2 hfull
    omega
  · omega

theorem Canonical.rounds (h : Canonical m e) : Rounds (m * 2 ^ e) (m * 2 ^ e) := by
  refine ⟨m, ?_, by rw [h.lastPlace]⟩
  rw [h.lastPlace, mul_div_cancel_right₀ _ (two_zpow_pos e).ne']
  exact .natCast m

theorem rounds_zero : Rounds 0 0 := ⟨0, by simpa using IsNearest.natCast 0, by simp⟩

theorem number?_nonneg (h : number? x = some q) : 0 ≤ q := by
  rcases number?_cases h with ⟨rfl, -⟩ | ⟨m, e, hpos, hc, -, rfl, -⟩
  · exact le_rfl
  · exact hc.value_pos.le

/-- A result is packed into a float. -/
theorem isRounding_pack {u : UnpackedFloat} (h : Yields u q) : IsRounding (.ofModel (Float.Model.pack u)) q := by
  obtain ⟨r, hr, ⟨rfl, s, rfl⟩ | ⟨m, e, hpos, hc, rfl, rfl⟩⟩ := h
  · refine ⟨0, hr, Or.inl ⟨two_zpow_pos _, ?_⟩⟩
    simp only [number?, unpack_pack_zero]
  refine ⟨_, hr, ?_⟩
  rcases le_or_gt e 971 with he | he
  · refine Or.inl ⟨mul_two_zpow_lt hc.lt (by omega : e < 972), ?_⟩
    simp only [number?, unpack_pack hc .positive he]
  · refine Or.inr ⟨?_, unpack_pack_of_le hpos .positive (by omega)⟩
    have hfull : 2 ^ 52 ≤ m := hc.normal.resolve_right (by omega)
    calc (2 : ℚ) ^ (1024 : ℤ) ≤ 2 ^ (52 + e) := two_zpow_le (by omega)
      _ = 2 ^ (52 : ℤ) * 2 ^ e := two_zpow_add _ _
      _ ≤ m * 2 ^ e := mul_le_mul_of_nonneg_right (by exact_mod_cast hfull) (two_zpow_pos e).le

theorem yields_zero (s : Sign) : Yields (.zero s) 0 := ⟨0, rounds_zero, Or.inl ⟨rfl, s, rfl⟩⟩

theorem Canonical.yields (h : Canonical m e) : Yields (.finite .positive m e h.pos) (m * 2 ^ e) :=
  ⟨_, h.rounds, Or.inr ⟨m, e, h.pos, h, rfl, rfl⟩⟩

/-! ## Operations -/

/-- A whole mantissa is rounded, whatever its exponent is. -/
theorem yields_round (hm : 0 < m) (e : ℤ) : Yields (UnpackedFloat.round Format.binary64 .positive m e) (m * 2 ^ e) := by
  have hm' : (0 : ℚ) < m := by exact_mod_cast hm
  have htarget : Format.binary64.targetExponent (totalExponent m e) = lastPlace ((m : ℚ) * 2 ^ e) :=
    targetExponent_totalExponent hm' le_rfl (by linarith) fun h => absurd h hm.ne'
  obtain ⟨k, hk⟩ : ∃ k : ℕ, (e - lastPlace ((m : ℚ) * 2 ^ e)).toNat = k := ⟨_, rfl⟩
  simp only [UnpackedFloat.round, decreaseExponent, htarget, hk]
  have hvalue : (m : ℚ) * 2 ^ e = ((m <<< k : ℕ) : ℚ) * 2 ^ (e - k) := by
    rw [Nat.shiftLeft_eq, zpow_sub₀ two_ne_zero, zpow_natCast]
    push_cast
    field_simp
  rw [hvalue] at hk ⊢
  refine yields_roundWithAccuracy ?_ (represents_exact _) (by omega)
  rw [Nat.shiftLeft_eq]
  positivity

theorem isRounding_mul (ha : number? a = some p) (hb : number? b = some q) : IsRounding (a * b) (p * q) := by
  refine isRounding_pack (u := UnpackedFloat.mul Format.binary64 a.toModel.unpack b.toModel.unpack) ?_
  rcases number?_cases ha with ⟨rfl, s, hs⟩ | ⟨m, e, hm, hc, -, rfl, hs⟩ <;>
    rcases number?_cases hb with ⟨rfl, t, ht⟩ | ⟨n, d, hn, hd, -, rfl, ht⟩ <;> rw [hs, ht]
  · rw [zero_mul]
    exact yields_zero _
  · rw [zero_mul]
    exact yields_zero _
  · rw [mul_zero]
    exact yields_zero _
  · have hvalue : (m : ℚ) * 2 ^ e * (n * 2 ^ d) = ((m * n : ℕ) : ℚ) * 2 ^ (e + d) := by
      rw [two_zpow_add]
      push_cast
      ring
    rw [hvalue]
    refine yields_roundWithAccuracy (by exact_mod_cast Nat.mul_pos hm hn) (represents_exact (m * n)) ?_
    -- a mantissa with all its digits leaves no digit above the last place out
    have hpos : 0 < m * n := Nat.mul_pos hm hn
    have hlog : Int.log 2 ((m * n : ℕ) : ℚ) = (m * n).log2 := intLog_eq_log2 hpos le_rfl (by linarith)
    rw [lastPlace, intLog_mul_two_zpow (by exact_mod_cast hpos), hlog]
    rcases hc.normal with hfull | rfl
    · have := (Nat.le_log2 hpos.ne').2 (hfull.trans (Nat.le_mul_of_pos_right m hn))
      omega
    rcases hd.normal with hfull | rfl
    · have := (Nat.le_log2 hpos.ne').2 (hfull.trans (Nat.le_mul_of_pos_left n hm))
      omega
    · omega

theorem yields_add (hm : 0 < m) (hn : 0 < n) (e d : ℤ) :
    Yields (UnpackedFloat.add Format.binary64 (.finite .positive m e hm) (.finite .positive n d hn))
      (m * 2 ^ e + n * 2 ^ d) := by
  obtain ⟨j, hj⟩ : ∃ j : ℕ, (e - min e d).toNat = j := ⟨_, rfl⟩
  obtain ⟨k, hk⟩ : ∃ k : ℕ, (d - min e d).toNat = k := ⟨_, rfl⟩
  have hsum : UnpackedFloat.add Format.binary64 (.finite .positive m e hm) (.finite .positive n d hn) =
      UnpackedFloat.round Format.binary64 .positive (m * 2 ^ j + n * 2 ^ k) (min e d) := by
    have hpos : (0 : ℤ) < ((m * 2 ^ j + n * 2 ^ k : ℕ) : ℤ) := by positivity
    have hcast : (m * 2 ^ j : ℕ) + (n * 2 ^ k : ℕ) = ((m * 2 ^ j + n * 2 ^ k : ℕ) : ℤ) := by push_cast; rfl
    simp only [UnpackedFloat.add, decreaseExponent, hj, hk, Sign.apply, UnpackedFloat.normalize, Nat.shiftLeft_eq,
      hcast, compare_gt_iff_gt.2 hpos, Int.toNat_natCast]
  have hvalue : (m : ℚ) * 2 ^ e + n * 2 ^ d = ((m * 2 ^ j + n * 2 ^ k : ℕ) : ℚ) * 2 ^ min e d := by
    obtain ⟨f, hf⟩ : ∃ f, min e d = f := ⟨_, rfl⟩
    have he : e = j + f := by omega
    have hd : d = k + f := by omega
    rw [hf, he, hd, two_zpow_add, two_zpow_add, zpow_natCast, zpow_natCast]
    push_cast
    ring
  rw [hsum, hvalue]
  exact yields_round (by positivity) _

theorem isRounding_add (ha : number? a = some p) (hb : number? b = some q) : IsRounding (a + b) (p + q) := by
  refine isRounding_pack (u := UnpackedFloat.add Format.binary64 a.toModel.unpack b.toModel.unpack) ?_
  rcases number?_cases ha with ⟨rfl, s, hs⟩ | ⟨m, e, hm, hc, -, rfl, hs⟩ <;>
    rcases number?_cases hb with ⟨rfl, t, ht⟩ | ⟨n, d, hn, hd, -, rfl, ht⟩ <;> rw [hs, ht]
  · rw [zero_add]
    cases s <;> cases t <;> exact yields_zero _
  · rw [zero_add]
    exact hd.yields
  · rw [add_zero]
    exact hc.yields
  · exact yields_add hm hn e d

/-- What a remainder says about the digits of a quotient. -/
theorem represents_div (m : ℕ) {n : ℕ} (hn : 0 < n) :
    Represents (.ofMantissaAndAccuracy (m / n) (accuracyOfFraction (m % n) n)) ((m : ℚ) / n) := by
  have hn' : (0 : ℚ) < n := by exact_mod_cast hn
  have hlt : ((m % n : ℕ) : ℚ) < n := by exact_mod_cast Nat.mod_lt m hn
  rw [natCast_div_eq m hn]
  generalize m % n = i at hlt
  unfold accuracyOfFraction
  rcases Nat.eq_zero_or_pos i with rfl | hi
  · simp [Represents, ExtendedMantissa.ofMantissaAndAccuracy]
  have hi' : (0 : ℚ) < i := by exact_mod_cast hi
  rw [if_neg hi.ne']
  rcases hcmp : compare (2 * i) n with _ | _ | _ <;>
    simp only [Represents, ExtendedMantissa.ofMantissaAndAccuracy, Bool.false_eq_true, if_true, if_false, add_zero]
  · have h : (2 * i : ℚ) < n := by exact_mod_cast compare_lt_iff_lt.1 hcmp
    refine ⟨by linarith [div_pos hi' hn'], add_lt_add_right ?_ _⟩
    rw [div_lt_iff₀ hn']
    linarith
  · have h : (2 * i : ℚ) = n := by exact_mod_cast (compare_eq_iff_eq.1 hcmp : 2 * i = n)
    rw [← h]
    field_simp
  · have h : (n : ℚ) < 2 * i := by exact_mod_cast compare_gt_iff_gt.1 hcmp
    rw [add_assoc]
    refine ⟨add_lt_add_right ?_ _, add_lt_add_right ?_ _⟩
    · rw [lt_div_iff₀ hn']
      linarith
    · rw [div_lt_iff₀ hn']
      linarith

/-- The quotient of two mantissas is taken with all the digits above its last place. -/
theorem yields_div (hm : 0 < m) (hn : 0 < n) (e d : ℤ) :
    Yields (UnpackedFloat.div Format.binary64 (.finite .positive m e hm) (.finite .positive n d hn))
      (m * 2 ^ e / (n * 2 ^ d)) := by
  have hm' : (0 : ℚ) < m := by exact_mod_cast hm
  have hn' : (0 : ℚ) < n := by exact_mod_cast hn
  obtain ⟨t, ht⟩ : ∃ t, min (e - d) (Format.binary64.targetExponent (totalExponent m e - totalExponent n d)) = t :=
    ⟨_, rfl⟩
  obtain ⟨k, hk⟩ : ∃ k : ℕ, (e - d - t).toNat = k := ⟨_, rfl⟩
  have hcore : UnpackedFloat.div Format.binary64 (.finite .positive m e hm) (.finite .positive n d hn) =
      roundWithAccuracy Format.binary64 .positive (m * 2 ^ k / n) t (accuracyOfFraction (m * 2 ^ k % n) n) := by
    simp only [UnpackedFloat.div, divCore, ht, hk, Nat.shiftLeft_eq]
    rfl
  have hvalue : (m : ℚ) * 2 ^ e / (n * 2 ^ d) = ((m * 2 ^ k : ℕ) : ℚ) / n * 2 ^ t := by
    have he : e = k + t + d := by omega
    rw [he, two_zpow_add, two_zpow_add, zpow_natCast]
    have := two_zpow_pos d
    push_cast
    field_simp
  rw [hcore, hvalue]
  refine yields_roundWithAccuracy (by positivity) (represents_div _ hn) ?_
  -- the first place of the quotient is at most one below the difference of those of its terms
  rw [← hvalue]
  have hlow : (2 : ℚ) ^ ((m.log2 : ℤ) - n.log2 - 1 + e - d) ≤ m * 2 ^ e / (n * 2 ^ d) := by
    have hmlog : (2 : ℚ) ^ (m.log2 : ℤ) ≤ m := by exact_mod_cast Nat.log2_self_le hm.ne'
    have hnlog : (n : ℚ) ≤ 2 ^ ((n.log2 : ℤ) + 1) := by exact_mod_cast (Nat.lt_log2_self (n := n)).le
    rw [le_div_iff₀ (by positivity)]
    calc (2 : ℚ) ^ ((m.log2 : ℤ) - n.log2 - 1 + e - d) * (n * 2 ^ d)
        ≤ 2 ^ ((m.log2 : ℤ) - n.log2 - 1 + e - d) * (2 ^ ((n.log2 : ℤ) + 1) * 2 ^ d) := by gcongr
      _ = 2 ^ ((m.log2 : ℤ) + e) := by
          rw [← two_zpow_add, ← two_zpow_add]
          congr 1
          ring
      _ = 2 ^ (m.log2 : ℤ) * 2 ^ e := two_zpow_add _ _
      _ ≤ m * 2 ^ e := by gcongr
  have hlog := (Int.zpow_le_iff_le_log one_lt_two (by positivity)).1 hlow
  rw [targetExponent_eq] at ht
  unfold lastPlace
  simp only [totalExponent] at ht
  omega

theorem isRounding_div (ha : number? a = some p) (hb : number? b = some q) (hq : 0 < q) :
    IsRounding (a / b) (p / q) := by
  refine isRounding_pack (u := UnpackedFloat.div Format.binary64 a.toModel.unpack b.toModel.unpack) ?_
  rcases number?_cases hb with ⟨rfl, -⟩ | ⟨n, d, hn, hd, -, rfl, ht⟩
  · exact absurd hq (lt_irrefl 0)
  rcases number?_cases ha with ⟨rfl, s, hs⟩ | ⟨m, e, hm, hc, -, rfl, hs⟩ <;> rw [hs, ht]
  · rw [zero_div]
    exact yields_zero _
  · exact yields_div hm hn e d

/-- A number divided by an infinite float is nothing. -/
theorem number?_div_of_isInfinite (ha : number? a = some p) (hb : IsInfinite b) : number? (a / b) = some 0 := by
  have hdiv : ∃ s, UnpackedFloat.div Format.binary64 a.toModel.unpack b.toModel.unpack = .zero s := by
    rw [hb]
    rcases number?_cases ha with ⟨-, s, hs⟩ | ⟨m, e, hm, -, -, -, hs⟩ <;> rw [hs]
    · exact ⟨_, rfl⟩
    · exact ⟨_, rfl⟩
  obtain ⟨s, hs⟩ := hdiv
  have hquot : (a / b).toModel.unpack = .zero s := by
    change (Float.Model.pack (UnpackedFloat.div Format.binary64 a.toModel.unpack b.toModel.unpack)).unpack = _
    rw [hs, unpack_pack_zero]
  simp only [number?, hquot]

/-- **A product with an infinite float** is infinite if both are positive, and is no number
if one is zero. -/
theorem mul_of_isInfinite (ha : IsInfinite a) (hb : number? b = some q) :
    (q = 0 ∧ (a * b).toModel.unpack = .notANumber) ∨ (0 < q ∧ IsInfinite (a * b)) := by
  change (q = 0 ∧ (Float.Model.pack (UnpackedFloat.mul _ a.toModel.unpack b.toModel.unpack)).unpack = _) ∨
    (0 < q ∧ (Float.Model.pack (UnpackedFloat.mul _ a.toModel.unpack b.toModel.unpack)).unpack = _)
  rw [ha]
  rcases number?_cases hb with ⟨rfl, s, hs⟩ | ⟨m, e, hm, hc, -, rfl, hs⟩ <;> rw [hs]
  · have hnan : (Float.Model.pack .notANumber).unpack = .notANumber := rfl
    exact Or.inl ⟨rfl, hnan⟩
  · exact Or.inr ⟨hc.value_pos, unpack_pack_infinity .positive⟩

theorem isInfinite_mul_of_pos (ha : number? a = some p) (hp : 0 < p) (hb : IsInfinite b) : IsInfinite (a * b) := by
  change (Float.Model.pack (UnpackedFloat.mul _ a.toModel.unpack b.toModel.unpack)).unpack = _
  rw [hb]
  rcases number?_cases ha with ⟨rfl, -⟩ | ⟨m, e, hm, -, -, -, hs⟩
  · exact absurd hp (lt_irrefl 0)
  · rw [hs]
    exact unpack_pack_infinity .positive

theorem IsInfinite.mul (ha : IsInfinite a) (hb : IsInfinite b) : IsInfinite (a * b) := by
  change (Float.Model.pack (UnpackedFloat.mul _ a.toModel.unpack b.toModel.unpack)).unpack = _
  rw [ha, hb]
  exact unpack_pack_infinity .positive

/-! ## Whole numbers -/

theorem isRounding_ofModel_ofNat (n : ℕ) : IsRounding (.ofModel (Float.Model.ofNat n)) n := by
  refine isRounding_pack (u := UnpackedFloat.ofNat Format.binary64 n) ?_
  rcases Nat.eq_zero_or_pos n with rfl | hn
  · exact yields_zero .positive
  · have hround : UnpackedFloat.ofNat Format.binary64 n = UnpackedFloat.round Format.binary64 .positive n 0 := by
      simp only [UnpackedFloat.ofNat, UnpackedFloat.ofInt, UnpackedFloat.normalize,
        compare_gt_iff_gt.2 (Int.natCast_pos.2 hn), Int.toNat_natCast]
    rw [hround]
    simpa using yields_round hn 0

/-- A rounded quantity that is short is itself. -/
theorem IsRounding.number?_of_isShort (h : IsRounding x q) (hs : IsShort q) (hq : 0 ≤ q) (hlt : q < 2 ^ (1024 : ℤ)) :
    number? x = some q := by
  obtain ⟨r, hr, ⟨-, hx⟩ | ⟨hle, -⟩⟩ := h
  · rwa [← hr.eq_of_isShort hs hq]
  · rw [hr.eq_of_isShort hs hq] at hle
    exact absurd hlt (not_lt.2 hle)

theorem number?_ofModel_ofNat (h : n < 2 ^ 53) : number? (.ofModel (Float.Model.ofNat n)) = some n := by
  refine (isRounding_ofModel_ofNat n).number?_of_isShort (isShort_natCast h) n.cast_nonneg ?_
  have : (n : ℚ) < 2 ^ (53 : ℤ) := by exact_mod_cast h
  exact this.trans_le (two_zpow_le (by decide))

/-- A quantity that is not too large is rounded to a number. -/
theorem IsRounding.exists_number? (h : IsRounding x q) (hq : 0 ≤ q) (hle : q ≤ 2 ^ 100) :
    ∃ r, Rounds q r ∧ number? x = some r := by
  obtain ⟨r, hr, ⟨-, hx⟩ | ⟨hge, -⟩⟩ := h
  · exact ⟨r, hr, hx⟩
  · have hr' : r ≤ 2 ^ (100 : ℤ) := hr.le_short (isShort_two_zpow (by decide)) hq hle
    exact absurd (hge.trans hr') (not_le.2 (zpow_lt_zpow_right₀ one_lt_two (by decide)))

theorem number?_zero : number? 0.0 = some 0 := rfl

theorem number?_one : number? 1.0 = some 1 := by
  have h : (1.0 : Float).toModel.unpack = .finite .positive (2 ^ 52) (-52) (by decide) := rfl
  simp only [number?, h]
  norm_num

/-- A large whole number is rounded as a product. -/
theorem yields_ofScientific (hn : 2 ^ 53 ≤ n) : Yields (UnpackedFloat.ofScientific Format.binary64 n 0) n := by
  have hpos : n ≠ 0 := by omega
  have hproduct : UnpackedFloat.ofScientific Format.binary64 n 0 =
      roundWithAccuracy Format.binary64 .positive (n * 2 ^ 53) (-53) .exact := by
    unfold UnpackedFloat.ofScientific
    rw [dif_neg hpos, if_neg (by decide), if_neg (not_lt.2 (neg_nonpos.2 (by positivity))), if_pos le_rfl]
    simp only [UnpackedFloat.mul, Nat.shiftLeft_eq, Int.toNat_zero, pow_zero, mul_one, add_zero]
    rfl
  have hvalue : (n : ℚ) = ((n * 2 ^ 53 : ℕ) : ℚ) * 2 ^ (-53 : ℤ) := by
    have hunit : (2 : ℚ) ^ 53 * 2 ^ (-53 : ℤ) = 1 := by
      rw [← zpow_natCast, ← two_zpow_add]
      norm_num
    rw [Nat.cast_mul, Nat.cast_pow, Nat.cast_ofNat, mul_assoc, hunit, mul_one]
  rw [hproduct]
  conv_rhs => rw [hvalue]
  refine yields_roundWithAccuracy (by positivity) (represents_exact _) ?_
  rw [← hvalue]
  have hle : (2 : ℚ) ^ (53 : ℤ) ≤ n := by exact_mod_cast hn
  have := (Int.zpow_le_iff_le_log one_lt_two (by positivity)).1 hle
  unfold lastPlace
  omega

/-- **A whole number as a float.** -/
theorem isRounding_ofNat (n : ℕ) : IsRounding (Float.ofNat n) n := by
  unfold Float.ofNat
  simp only [OfScientific.ofScientific, Float.ofScientific]
  by_cases hn : n < 2 ^ 53
  · rw [dif_pos ⟨hn, by decide⟩]
    have hcast : n.toUInt64.toFloat = .ofModel (Float.Model.ofNat n) := by
      have hmod : n.toUInt64.toNat = n := by
        rw [Nat.toUInt64_eq, UInt64.toNat_ofNat', Nat.mod_eq_of_lt (by omega)]
      simp only [UInt64.toFloat, Float.Model.ofUInt64, UnpackedFloat.ofUInt64, Float.Model.ofNat, hmod]
    have hpower : number? Float.exactlyRepresentablePowersOfTen[0] = some 1 := number?_one
    rw [hcast]
    simpa using isRounding_mul (number?_ofModel_ofNat hn) hpower
  · rw [dif_neg (by omega)]
    exact isRounding_pack (yields_ofScientific (not_lt.1 hn))

theorem number?_ofNat (h : n < 2 ^ 53) : number? (Float.ofNat n) = some n := by
  refine (isRounding_ofNat n).number?_of_isShort (isShort_natCast h) n.cast_nonneg ?_
  have : (n : ℚ) < 2 ^ (53 : ℤ) := by exact_mod_cast h
  exact this.trans_le (two_zpow_le (by decide))

/-! ## Comparisons -/

/-- Mantissas with exponents are compared by their exponents first. -/
theorem Canonical.compare_eq {d : ℤ} (hm : Canonical m e) (hn : Canonical n d) :
    (compare e d).then (compare m n) = compare ((m : ℚ) * 2 ^ e) (n * 2 ^ d) := by
  -- the larger exponent belongs to a mantissa with all its digits
  have hlt : ∀ {m n : ℕ} {e d : ℤ}, Canonical m e → Canonical n d → e < d → (m : ℚ) * 2 ^ e < n * 2 ^ d := by
    intro m n e d hm hn h
    have hfull : 2 ^ 52 ≤ n := hn.normal.resolve_right (by have := hm.le; omega)
    refine (mul_two_zpow_lt hm.lt h).trans_le ?_
    rw [add_comm, two_zpow_add]
    exact mul_le_mul_of_nonneg_right (by exact_mod_cast hfull) (two_zpow_pos d).le
  rcases lt_trichotomy e d with h | rfl | h
  · rw [compare_lt_iff_lt.2 h, compare_lt_iff_lt.2 (hlt hm hn h)]
    rfl
  · have hpos := two_zpow_pos e
    rw [compare_eq_iff_eq.2 rfl]
    change compare m n = _
    rcases lt_trichotomy m n with h | rfl | h
    · rw [compare_lt_iff_lt.2 h, compare_lt_iff_lt.2 (mul_lt_mul_of_pos_right (by exact_mod_cast h) hpos)]
    · rw [compare_eq_iff_eq.2 rfl, compare_eq_iff_eq.2 rfl]
    · rw [compare_gt_iff_gt.2 h, compare_gt_iff_gt.2 (mul_lt_mul_of_pos_right (by exact_mod_cast h) hpos)]
  · rw [compare_gt_iff_gt.2 h, compare_gt_iff_gt.2 (hlt hn hm h)]
    rfl

/-- **Floats are compared as numbers.** -/
theorem compare_unpack (ha : number? a = some p) (hb : number? b = some q) :
    UnpackedFloat.compare a.toModel.unpack b.toModel.unpack = some (compare p q) := by
  rcases number?_cases ha with ⟨rfl, s, hs⟩ | ⟨m, e, hm, hc, -, rfl, hs⟩ <;>
    rcases number?_cases hb with ⟨rfl, t, ht⟩ | ⟨n, d, hn, hd, -, rfl, ht⟩ <;> rw [hs, ht]
  · rw [compare_eq_iff_eq.2 rfl]
    rfl
  · rw [compare_lt_iff_lt.2 hd.value_pos]
    rfl
  · rw [compare_gt_iff_gt.2 hc.value_pos]
    rfl
  · rw [← hc.compare_eq hd]
    rfl

theorem le_iff_unpack (a b : Float) : a ≤ b ↔ UnpackedFloat.le a.toModel.unpack b.toModel.unpack = true := by
  change Float.le a b = true ↔ _
  simp only [Float.le, decide_eq_true_eq]
  exact Iff.rfl

theorem lt_iff_unpack (a b : Float) : a < b ↔ UnpackedFloat.lt a.toModel.unpack b.toModel.unpack = true := by
  change Float.lt a b = true ↔ _
  simp only [Float.lt, decide_eq_true_eq]
  exact Iff.rfl

theorem le_iff (ha : number? a = some p) (hb : number? b = some q) : a ≤ b ↔ p ≤ q := by
  rw [le_iff_unpack, UnpackedFloat.le, compare_unpack ha hb, ← compare_le_iff_le]
  cases compare p q <;> simp [Ordering.isLE]

theorem lt_iff (ha : number? a = some p) (hb : number? b = some q) : a < b ↔ p < q := by
  rw [lt_iff_unpack, UnpackedFloat.lt, compare_unpack ha hb, ← compare_lt_iff_lt]
  cases compare p q <;> simp

/-- **What lies between two numbers is a number.** -/
theorem exists_number?_of_le_of_le (ha : number? a = some p) (hb : number? b = some q) (hax : a ≤ x) (hxb : x ≤ b) :
    ∃ r, number? x = some r := by
  rw [le_iff_unpack] at hax hxb
  unfold number?
  cases hx : x.toModel.unpack with
  | zero s => exact ⟨_, rfl⟩
  | finite s m e h =>
    cases s with
    | positive => exact ⟨_, rfl⟩
    | negative =>
      rw [hx] at hax
      rcases number?_cases ha with ⟨-, t, ht⟩ | ⟨n, d, hn, -, -, -, ht⟩ <;> rw [ht] at hax <;> cases hax
  | infinity s =>
    cases s with
    | positive =>
      rw [hx] at hxb
      rcases number?_cases hb with ⟨-, t, ht⟩ | ⟨n, d, hn, -, -, -, ht⟩ <;> rw [ht] at hxb <;> cases hxb
    | negative =>
      rw [hx] at hax
      rcases number?_cases ha with ⟨-, t, ht⟩ | ⟨n, d, hn, -, -, -, ht⟩ <;> rw [ht] at hax <;> cases hax
  | notANumber =>
    rw [hx] at hxb
    cases hxb

theorem isNaN_eq_false (h : number? x = some q) : x.isNaN = false := by
  change x.toModel.unpack.isNaN = false
  rcases number?_cases h with ⟨-, s, hs⟩ | ⟨m, e, hm, -, -, -, hs⟩ <;> rw [hs] <;> rfl

theorem isInf_eq_false (h : number? x = some q) : x.isInf = false := by
  change x.toModel.unpack.isInf = false
  rcases number?_cases h with ⟨-, s, hs⟩ | ⟨m, e, hm, -, -, -, hs⟩ <;> rw [hs] <;> rfl

theorem IsInfinite.isInf (h : IsInfinite x) : x.isInf = true := by
  change x.toModel.unpack.isInf = true
  rw [h]
  rfl

/-! ## Binary fractions -/

/-- **The binary fraction of a float** is its number; zero has none. -/
theorem ofFloat?_cases (h : number? x = some q) :
    (q = 0 ∧ Binary.ofFloat? x = none) ∨
      ∃ b, Binary.ofFloat? x = some b ∧ 0 < b.mantissa ∧ q = b.mantissa * 2 ^ b.exponent := by
  have hfraction : Binary.ofFloat? x =
      let field := (@unpackExponent Format.binary64 x.toModel.toBits.toBitVec).toNat
      let low := (@unpackMantissa Format.binary64 x.toModel.toBits.toBitVec).toNat
      if field = 2047 then none
      else if field = 0 then if low = 0 then none else some { mantissa := low, exponent := -1074 }
      else some { mantissa := Nat.pow 2 52 + low, exponent := (field : ℤ) - 1075, narrow := low = 0 && field ≠ 1 } := by
    rw [toNat_unpackExponent, toNat_unpackMantissa]
    rfl
  rw [hfraction]
  unfold number? Float.Model.unpack at h
  rw [unpack_eq] at h
  dsimp only at h ⊢
  split_ifs with hones hzero hnone
  · rw [if_pos hones] at h
    split_ifs at h
  · rw [if_neg hones, if_pos hzero, dif_pos hnone] at h
    exact Or.inl ⟨(Option.some.inj h).symm, rfl⟩
  · rw [if_neg hones, if_pos hzero, dif_neg hnone] at h
    refine Or.inr ⟨_, rfl, Nat.pos_of_ne_zero hnone, ?_⟩
    cases hsign : Sign.ofBitVec (@unpackSign Format.binary64 x.toModel.toBits.toBitVec) <;>
      rw [hsign] at h <;> cases h
    rfl
  · rw [if_neg hones, if_neg hzero] at h
    refine Or.inr ⟨_, rfl, Nat.add_pos_left (by decide) _, ?_⟩
    cases hsign : Sign.ofBitVec (@unpackSign Format.binary64 x.toModel.toBits.toBitVec) <;>
      rw [hsign] at h <;> cases h
    rfl

end CodeAtlas.Decimal
