import CodeAtlas.Proofs.Instant.Calendar

/-!
# Written moments

Every moment of the years that are counted is read as it is written, a leap second too.

* `number_padded`: a number is read up to the first character that is no digit.
* `ofText_text`: **moments are read as they are written.**
-/

namespace CodeAtlas.Instant

variable {α β : Type}

/-- What is read first, and what is read after it. -/
theorem run_bind {p : Part α} {s r : List Char} {a : α} (h : p.run s = .ok (a, r)) (f : α → Part β) :
    (p >>= f).run s = (f a).run r := by
  rw [StateT.run_bind, h]
  rfl

/-- Nothing is dropped from the front of what does not begin with it. -/
theorem dropWhile_eq_self {p : Char → Bool} {s : List Char} (h : ∀ c r, s = c :: r → p c = false) :
    s.dropWhile p = s := by
  cases s with
  | nil => rfl
  | cons c r => exact List.dropWhile_cons_of_neg (by simp [h c r rfl])

/-! ## Numbers -/

section Padded

variable {w n : ℕ}

theorem toList_padded (w n : ℕ) : (padded w n).toList =
    List.replicate (w - (Nat.toDigits 10 n).length) '0' ++ Nat.toDigits 10 n := by
  simp [padded]

theorem isDigit_of_mem_padded {c : Char} (hc : c ∈ (padded w n).toList) : c.isDigit = true := by
  rw [toList_padded, List.mem_append] at hc
  rcases hc with hc | hc
  · rw [List.eq_of_mem_replicate hc]
    rfl
  · exact Nat.isDigit_of_mem_toDigits (by decide) (by decide) hc

theorem padded_ne_nil : (padded w n).toList ≠ [] := by
  rw [toList_padded]
  exact List.append_ne_nil_of_right_ne_nil _ Nat.toDigits_ne_nil

/-- A number that has room takes all of it. -/
theorem length_padded (hw : 0 < w) (hn : n < 10 ^ w) : (padded w n).toList.length = w := by
  have hlen := (Nat.length_toDigits_le_iff (b := 10) (n := n) (by decide) hw).2 hn
  rw [toList_padded, List.length_append, List.length_replicate]
  omega

theorem ofDigitChars_padded (w n : ℕ) : Nat.ofDigitChars 10 (padded w n).toList 0 = n := by
  rw [toList_padded, Nat.ofDigitChars_append, Nat.ofDigitChars_replicate_zero, Nat.mul_zero]
  exact Nat.ofDigitChars_toDigits (by decide) (by decide)

/-- No digit follows. -/
def EndsDigits (s : List Char) : Prop := ∀ c r, s = c :: r → c.isDigit = false

theorem EndsDigits.cons {c : Char} (h : c.isDigit = false) (s : List Char) : EndsDigits (c :: s) := by
  rintro c' r ⟨⟩
  exact h

/-- Of a number and what follows, the digits are those of the number. -/
theorem takeWhile_padded {m : ℕ} (hle : (padded w n).toList.length ≤ m) {r : List Char}
    (hrest : (padded w n).toList.length = m ∨ EndsDigits r) :
    (((padded w n).toList ++ r).take m).takeWhile Char.isDigit = (padded w n).toList := by
  rw [List.take_append, List.take_of_length_le hle, List.takeWhile_append_of_pos fun c hc => isDigit_of_mem_padded hc]
  have hnone : (r.take (m - (padded w n).toList.length)).takeWhile Char.isDigit = [] := by
    rcases hrest with heq | hends
    · simp [heq]
    · cases r with
      | nil => simp
      | cons c r =>
        have hc := hends c r rfl
        cases m - (padded w n).toList.length with
        | zero => simp
        | succ k => simp [hc]
  rw [hnone, List.append_nil]

/-- **A number is read up to the first character that is no digit**, or up to so many digits. -/
theorem number_padded {m : ℕ} (hle : (padded w n).toList.length ≤ m) {r : List Char}
    (hrest : (padded w n).toList.length = m ∨ EndsDigits r) (hn : n < 2 ^ 63) :
    (number m).run ((padded w n).toList ++ r) = .ok (n, r) := by
  have hdigits := takeWhile_padded hle hrest
  have hvalue : (padded w n).toList.foldl (fun n c => n * 10 + (c.toNat - '0'.toNat)) 0 = n := by
    have h := ofDigitChars_padded w n
    rw [Nat.ofDigitChars_eq_foldl] at h
    simpa only [Nat.mul_comm] using h
  have hnot : (padded w n).toList.isEmpty = false := List.isEmpty_eq_false_iff.2 padded_ne_nil
  have hsome : ((padded w n).toList ++ r).isEmpty = false :=
    List.isEmpty_eq_false_iff.2 (List.append_ne_nil_of_left_ne_nil padded_ne_nil r)
  have hsmall : ¬Nat.pow 2 63 ≤ n := Nat.not_le.2 hn
  simp only [number, StateT.run_bind, StateT.run_get, pure_bind, hdigits, hsome, hnot, hvalue, Bool.false_eq_true,
    if_false, hsmall, List.drop_left]
  rfl

end Padded

/-! ## Parts -/

theorem not_isBlank_of_isDigit {c : Char} (h : c.isDigit = true) : Text.isBlank c = false := by
  simp only [Char.isDigit, Bool.and_eq_true, decide_eq_true_eq, ge_iff_le, UInt32.le_iff_toNat_le] at h
  have hbounds : 48 ≤ c.toNat ∧ c.toNat ≤ 57 := h
  simp only [Text.isBlank, Bool.or_eq_false_iff, Bool.and_eq_false_iff, beq_eq_false_iff_ne, decide_eq_false_iff_not]
  omega

/-- No blanks are dropped where there are none. -/
theorem run_dropBlanks {s : List Char} (h : ∀ c r, s = c :: r → Text.isBlank c = false) :
    dropBlanks.run s = .ok ((), s) := by
  simp only [dropBlanks, StateT.run_modify, dropWhile_eq_self h]
  rfl

/-- A number begins with a digit. -/
theorem isDigit_of_padded_append {w n : ℕ} {rest r : List Char} {c : Char} (h : (padded w n).toList ++ rest = c :: r) :
    c.isDigit = true := by
  cases hs : (padded w n).toList with
  | nil => exact absurd hs padded_ne_nil
  | cons d ds =>
    rw [hs] at h
    cases h
    exact isDigit_of_mem_padded (hs ▸ List.mem_cons_self)

theorem run_dropBlanks_padded {w n : ℕ} (rest : List Char) :
    dropBlanks.run ((padded w n).toList ++ rest) = .ok ((), (padded w n).toList ++ rest) :=
  run_dropBlanks fun _ _ h => not_isBlank_of_isDigit (isDigit_of_padded_append h)

/-- **A field is read** where it stands in two digits. -/
theorem run_field {low high n : ℕ} (hlow : low ≤ n) (hhigh : n ≤ high) (hn : n < 100) (rest : List Char) :
    (field low high).run ((padded 2 n).toList ++ rest) = .ok (n, rest) := by
  have hlen : (padded 2 n).toList.length = 2 := length_padded (by decide) hn
  have hread := number_padded hlen.le (r := rest) (Or.inl hlen) (by omega)
  rw [field, run_bind (run_dropBlanks_padded rest), run_bind hread]
  simp only [hlow, hhigh, decide_true, Bool.and_self, if_true]
  rfl

theorem run_mark {c : Char} (h : Text.isBlank c = false) (rest : List Char) :
    (mark c).run (c :: rest) = .ok ((), rest) := by
  have hblank : dropBlanks.run (c :: rest) = .ok ((), c :: rest) := run_dropBlanks fun c' r' h' => by
    cases h'
    exact h
  rw [mark, run_bind hblank, run_bind (r := c :: rest) rfl]
  simp only [if_true]
  rfl

/-- **A year is read** up to a hyphen. -/
theorem run_year {y : ℤ} (hlow : -262143 ≤ y) (hhigh : y ≤ 262142) (rest : List Char) :
    year.run ((yearText y).toList ++ '-' :: rest) = .ok (y, '-' :: rest) := by
  have hends : EndsDigits ('-' :: rest) := .cons rfl rest
  have hcheck : (decide (y < -2147483648) || decide (2147483648 ≤ y)) = false := by
    simp only [Bool.or_eq_false_iff, decide_eq_false_iff_not]
    omega
  by_cases hfour : 0 ≤ y ∧ y ≤ 9999
  · -- four digits, of which the first is no sign
    have htext : yearText y = padded 4 y.toNat := if_pos (by simpa using hfour)
    have hlen : (padded 4 y.toNat).toList.length = 4 := length_padded (by decide) (by omega)
    have hread := number_padded hlen.le (r := '-' :: rest) (Or.inl hlen) (by omega)
    have hy : (y.toNat : ℤ) = y := by omega
    rw [htext, year, run_bind (run_dropBlanks_padded _), run_bind (r := (padded 4 y.toNat).toList ++ '-' :: rest) rfl]
    dsimp only
    split
    · rename_i h
      cases isDigit_of_padded_append h
    · rename_i h
      cases isDigit_of_padded_append h
    · rw [run_bind hread]
      simp only [pure_bind, hy, hcheck, Bool.false_eq_true, if_false]
      rfl
  · -- a sign, and as many digits as there are
    have hread : (number ((padded 4 y.natAbs).toList ++ '-' :: rest).length).run
        ((padded 4 y.natAbs).toList ++ '-' :: rest) = .ok (y.natAbs, '-' :: rest) :=
      number_padded (by simp) (Or.inr hends) (by omega)
    by_cases hneg : y < 0
    · have htext : (yearText y).toList = '-' :: (padded 4 y.natAbs).toList := by
        rw [yearText, if_neg (by simpa using hfour), if_pos hneg, String.toList_append]
        rfl
      have hy : (-(y.natAbs : ℤ)) = y := by omega
      rw [htext, List.cons_append, year, run_bind (run_dropBlanks fun c r h => by cases h; rfl),
        run_bind (r := '-' :: ((padded 4 y.natAbs).toList ++ '-' :: rest)) rfl]
      simp only
      rw [run_bind (r := (padded 4 y.natAbs).toList ++ '-' :: rest) rfl, run_bind hread]
      simp only [pure_bind, hy, hcheck, Bool.false_eq_true, if_false]
      rfl
    · have htext : (yearText y).toList = '+' :: (padded 4 y.natAbs).toList := by
        rw [yearText, if_neg (by simpa using hfour), if_neg hneg, String.toList_append]
        rfl
      have hy : (y.natAbs : ℤ) = y := by omega
      rw [htext, List.cons_append, year, run_bind (run_dropBlanks fun c r h => by cases h; rfl),
        run_bind (r := '+' :: ((padded 4 y.natAbs).toList ++ '-' :: rest)) rfl]
      simp only
      rw [run_bind (r := (padded 4 y.natAbs).toList ++ '-' :: rest) rfl, run_bind hread]
      simp only [pure_bind, hy, hcheck, Bool.false_eq_true, if_false]
      rfl

/-- **A fraction is read** from as many of its digits as are written. -/
theorem run_fraction_padded {width k : ℕ} (hpos : 0 < width) (hle : width ≤ 9) (hk : k < 10 ^ width) {rest : List Char}
    (hrest : EndsDigits rest) :
    fraction.run ('.' :: ((padded width k).toList ++ rest)) = .ok (k * 10 ^ (9 - width), rest) := by
  have hlen : (padded width k).toList.length = width := length_padded hpos hk
  have hsmall : k < 2 ^ 63 := hk.trans_le ((Nat.pow_le_pow_right (by decide) hle).trans (by decide))
  have hread := number_padded (m := 9) (hlen.trans_le hle) (Or.inr hrest) hsmall
  have hbefore := takeWhile_padded (m := 9) (hlen.trans_le hle) (Or.inr hrest)
  have hmore : StateT.run (m := Except Fault) (modify (·.dropWhile Char.isDigit)) rest = .ok ((), rest) := by
    rw [StateT.run_modify, dropWhile_eq_self hrest]
    rfl
  rw [fraction, run_bind (r := '.' :: ((padded width k).toList ++ rest)) rfl]
  simp only
  rw [run_bind (r := (padded width k).toList ++ rest) rfl, run_bind hread, run_bind hmore, hbefore, hlen]
  rfl

theorem run_fraction {nano : ℕ} (h : nano < 10 ^ 9) :
    fraction.run ((fractionText nano).toList ++ ['Z']) = .ok (nano, ['Z']) := by
  have hends : EndsDigits ['Z'] := .cons rfl []
  unfold fractionText
  split_ifs with hzero hmilli hmicro
  · subst hzero
    rfl
  · rw [String.toList_append]
    -- what is left out are zeros
    refine (run_fraction_padded (by decide) (by decide) (by omega) hends).trans ?_
    rw [show nano / 1000000 * 10 ^ (9 - 3) = nano by omega]
  · rw [String.toList_append]
    refine (run_fraction_padded (by decide) (by decide) (by omega) hends).trans ?_
    rw [show nano / 1000 * 10 ^ (9 - 6) = nano by omega]
  · rw [String.toList_append]
    refine (run_fraction_padded (by decide) (by decide) h hends).trans ?_
    rw [show nano * 10 ^ (9 - 9) = nano by omega]

theorem run_offset : offset.run ['Z'] = .ok (0, []) := rfl

/-! ## Moments -/

/-- **The moments that there are**: those of some years, each second with the fractions of one second, or of two if
a leap second may follow. -/
structure InRange (i : Instant) : Prop where
  year : -262143 ≤ (civil (i.second / 86400)).1 ∧ (civil (i.second / 86400)).1 ≤ 262142
  nano : i.nano < 10 ^ 9 ∨ i.nano < 2 * 10 ^ 9 ∧ i.second % 60 = 59

instance (i : Instant) : Decidable i.InRange :=
  decidable_of_iff ((-262143 ≤ (civil (i.second / 86400)).1 ∧ (civil (i.second / 86400)).1 ≤ 262142) ∧
    (i.nano < 10 ^ 9 ∨ i.nano < 2 * 10 ^ 9 ∧ i.second % 60 = 59)) ⟨fun h => ⟨h.1, h.2⟩, fun h => ⟨h.year, h.nano⟩⟩

/-- A date with a time of day, as it is written. -/
def momentText (y : ℤ) (m d h min s n : ℕ) : String :=
  yearText y ++ "-" ++ padded 2 m ++ "-" ++ padded 2 d ++ "T" ++ padded 2 h ++ ":" ++ padded 2 min ++ ":" ++
    padded 2 s ++ fractionText n ++ "Z"

/-- **A date with a time of day is read as it is written.** -/
theorem run_moment {y : ℤ} {m d h min s n : ℕ} (hy : -262143 ≤ y ∧ y ≤ 262142) (hdate : IsDate y m d) (hh : h ≤ 23)
    (hmin : min ≤ 59) (hs : s ≤ 60) (hn : n < 10 ^ 9) :
    moment.run (momentText y m d h min s n).toList = .ok (⟨ofCivil y m d * 86400 +
      (h * 3600 + min * 60 + (if s = 60 then 59 else s)), if s = 60 then n + 1000000000 else n⟩, []) := by
  obtain ⟨hm1, hm12, hd1, hd⟩ := hdate
  have hd31 : d ≤ 31 := by
    refine hd.trans ?_
    unfold daysInMonth
    split_ifs <;> decide
  have htext : (momentText y m d h min s n).toList = (yearText y).toList ++ '-' :: ((padded 2 m).toList ++ '-' ::
      ((padded 2 d).toList ++ 'T' :: ((padded 2 h).toList ++ ':' :: ((padded 2 min).toList ++ ':' ::
        ((padded 2 s).toList ++ ((fractionText n).toList ++ ['Z'])))))) := by
    simp [momentText]
  have hcheck : (decide (y < -262143) || decide (262142 < y) || decide (daysInMonth y m < d)) = false := by
    simp only [Bool.or_eq_false_iff, decide_eq_false_iff_not]
    omega
  have hhyphen := fun rest => @run_mark '-' (by decide) rest
  have hcolon := fun rest => @run_mark ':' (by decide) rest
  -- each part takes its own text from the front, down to the time zone
  rw [htext, moment, run_bind (run_year hy.1 hy.2 _), run_bind (hhyphen _), run_bind (run_field hm1 hm12 (by omega) _),
    run_bind (hhyphen _), run_bind (run_field hd1 hd31 (by omega) _), run_bind (a := 'T' :: _) rfl]
  simp only [decide_true, Bool.or_true, Bool.true_or, if_true]
  rw [run_bind (a := PUnit.unit) (r := (padded 2 h).toList ++ _) rfl,
    run_bind (run_field (Nat.zero_le _) hh (by omega) _), run_bind (hcolon _),
    run_bind (run_field (Nat.zero_le _) hmin (by omega) _), run_bind (hcolon _),
    run_bind (run_field (Nat.zero_le _) hs (by omega) _), run_bind (run_fraction hn),
    run_bind (run_dropBlanks fun c r h => by cases h; rfl), run_bind (a := ['Z']) rfl]
  simp only [List.isEmpty_cons, Bool.false_eq_true, if_false]
  rw [run_bind run_offset, run_bind (run_dropBlanks fun c r h => by cases h), run_bind (a := []) rfl]
  simp only [List.isEmpty_nil, Bool.not_true, Bool.false_eq_true, if_false, hcheck, Int.natAbs_zero, sub_zero,
    (by decide : ¬86400 ≤ 0)]
  rfl

/-- **Moments are read as they are written.** -/
theorem ofText_text {i : Instant} (h : i.InRange) : ofText i.text = .ok i := by
  obtain ⟨hdate, hback⟩ := civil_spec (i.second / 86400)
  obtain ⟨second, nano⟩ := i
  obtain ⟨hyear, hnano⟩ := h
  dsimp only at *
  -- a leap second is written as second 60 and with the fraction of one second
  obtain ⟨leap, hleap⟩ : ∃ leap, leap = if 1000000000 ≤ nano then 1 else 0 := ⟨_, rfl⟩
  have htext : text ⟨second, nano⟩ = momentText (civil (second / 86400)).1 (civil (second / 86400)).2.1
      (civil (second / 86400)).2.2 ((second % 86400).toNat / 3600) ((second % 86400).toNat / 60 % 60)
      ((second % 86400).toNat % 60 + leap) (nano - leap * 1000000000) := by
    rw [hleap]
    unfold text momentText
    dsimp only
    split_ifs <;> simp
  have hread := @run_moment _ _ _ ((second % 86400).toNat / 3600) ((second % 86400).toNat / 60 % 60)
    ((second % 86400).toNat % 60 + leap) (nano - leap * 1000000000) hyear hdate (by omega) (by omega)
    (by split at hleap <;> omega) (by split at hleap <;> omega)
  have hsecond : second / 86400 * 86400 + (((second % 86400).toNat / 3600 : ℕ) * 3600 +
      ((second % 86400).toNat / 60 % 60 : ℕ) * 60 +
      (if (second % 86400).toNat % 60 + leap = 60 then 59 else (second % 86400).toNat % 60 + leap : ℕ)) = second := by
    split at hleap <;> split <;> omega
  have hnano : (if (second % 86400).toNat % 60 + leap = 60 then nano - leap * 1000000000 + 1000000000
      else nano - leap * 1000000000) = nano := by
    split at hleap <;> split <;> omega
  unfold ofText
  rw [htext, hread, hback, hsecond, hnano]
  rfl

example : (⟨-1, 1500000000⟩ : Instant).InRange ∧ text ⟨-1, 1500000000⟩ = "1969-12-31T23:59:60.500Z" := by decide

end CodeAtlas.Instant
