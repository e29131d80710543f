import CodeAtlas.Json.Read
import Mathlib.Data.Nat.Notation

/-!
# Reading numbers

A number is read up to the first character that cannot go on with it. So a number
that is the whole of a text is read in the same way where such a character follows.

* `readNumber_toDigits`: whole numbers are read as they are written.
* `readNumber_append`: what a number is read as does not depend on what follows.
-/

namespace CodeAtlas.Json

/-- No character follows that could go on with a number. -/
def EndsNumber (s : List Char) : Prop := ∀ c r, s = c :: r → c.isDigit = false ∧ c ≠ '.' ∧ c ≠ 'e' ∧ c ≠ 'E'

theorem EndsNumber.nil : EndsNumber [] := by
  intro c r h
  cases h

theorem EndsNumber.cons {c : Char} (r : List Char) (hd : c.isDigit = false) (hp : c ≠ '.') (he : c ≠ 'e')
    (hE : c ≠ 'E') : EndsNumber (c :: r) := by
  intro c' r' h
  cases h
  exact ⟨hd, hp, he, hE⟩

variable {rest : List Char}

/-! ## Digits -/

theorem digitOf?_of_isDigit {c : Char} (h : c.isDigit = true) : digitOf? c = some (c.toNat - '0'.toNat) := by
  simp [digitOf?, h]

theorem digitOf?_of_not_isDigit {c : Char} (h : c.isDigit = false) : digitOf? c = none := by simp [digitOf?, h]

theorem readDigits_ends (d : Digits) (h : EndsNumber rest) : readDigits d rest = (d, rest) := by
  cases rest with
  | nil => rfl
  | cons c r => simp [readDigits, digitOf?_of_not_isDigit (h c r rfl).1]

/-- **Digits are read up to where the number ends**, in the same way whatever follows. -/
theorem readDigits_append {d d' : Digits} {s r : List Char} (hs : readDigits d s = (d', r)) (h : EndsNumber rest) :
    readDigits d (s ++ rest) = (d', r ++ rest) := by
  induction s generalizing d with
  | nil =>
    simp only [readDigits, Prod.mk.injEq] at hs
    obtain ⟨rfl, rfl⟩ := hs
    exact readDigits_ends d h
  | cons c s ih =>
    rw [List.cons_append]
    unfold readDigits at hs ⊢
    cases hc : digitOf? c with
    | none =>
      simp only [hc, Prod.mk.injEq] at hs
      obtain ⟨rfl, rfl⟩ := hs
      rfl
    | some k =>
      simp only [hc] at hs ⊢
      split at hs
      · rename_i hfits
        rw [if_pos hfits]
        exact ih hs
      · rename_i hfits
        rw [if_neg hfits]
        exact ih hs

/-- Digits only make a number larger. -/
theorem le_ofDigitChars (ds : List Char) (v : ℕ) : v ≤ Nat.ofDigitChars 10 ds v := by
  induction ds generalizing v with
  | nil => simp
  | cons c ds ih =>
    rw [Nat.ofDigitChars_cons]
    have := ih (10 * v + (c.toNat - '0'.toNat))
    omega

/-- **Digits are taken as they are** as long as the number is not too large. -/
theorem readDigits_ofDigitChars {ds : List Char} (hds : ∀ c ∈ ds, c.isDigit = true) {v count : ℕ}
    (hmax : Nat.ofDigitChars 10 ds v ≤ maxDigits) :
    readDigits ⟨v, count, 0⟩ ds = (⟨Nat.ofDigitChars 10 ds v, count + ds.length, 0⟩, []) := by
  induction ds generalizing v count with
  | nil => simp [readDigits]
  | cons c ds ih =>
    rw [Nat.ofDigitChars_cons] at hmax ⊢
    have hle := le_ofDigitChars ds (10 * v + (c.toNat - '0'.toNat))
    have hc := hds c List.mem_cons_self
    have hfits : v * 10 + (c.toNat - '0'.toNat) ≤ maxDigits := by omega
    unfold readDigits
    rw [digitOf?_of_isDigit hc]
    simp only [hfits, decide_true, Bool.and_true, if_true]
    rw [Nat.mul_comm v 10, ih (fun x hx => hds x (List.mem_cons_of_mem c hx)) hmax]
    rw [List.length_cons, Nat.add_assoc count 1, Nat.add_comm 1]

/-! ## Whole numbers -/

/-- A number without a point and an exponent ends at once. -/
theorem readAfterWhole_plain (isNegative : Bool) (whole : Digits) (hp : ∀ t, rest ≠ '.' :: t)
    (he : ∀ t, rest ≠ 'e' :: t) (hE : ∀ t, rest ≠ 'E' :: t) :
    readAfterWhole isNegative whole rest = ((readAfterWhole isNegative whole []).1, some rest) := by
  unfold readAfterWhole
  split
  · exact absurd rfl (hp _)
  · exact absurd rfl (he _)
  · exact absurd rfl (hE _)
  · repeat' split
    all_goals rfl

theorem readAfterWhole_ends (isNegative : Bool) (whole : Digits) (h : EndsNumber rest) :
    readAfterWhole isNegative whole rest = ((readAfterWhole isNegative whole []).1, some rest) :=
  readAfterWhole_plain isNegative whole (fun t ht => (h '.' t ht).2.1 rfl) (fun t ht => (h 'e' t ht).2.2.1 rfl)
    (fun t ht => (h 'E' t ht).2.2.2 rfl)

/-- The digits of a number that is not zero do not begin with a zero. -/
theorem head_toDigits_ne {n : ℕ} (hn : 0 < n) {c : Char} {ds : List Char} (h : Nat.toDigits 10 n = c :: ds) :
    c ≠ '0' := by
  induction n using Nat.strongRecOn generalizing c ds with
  | ind n ih =>
    rcases Nat.lt_or_ge n 10 with hlt | hge
    · rw [Nat.toDigits_of_lt_base hlt] at h
      cases h
      intro h0
      have hv := Nat.toNat_digitChar_sub_48_of_lt_ten hlt
      rw [h0] at hv
      simp at hv
      omega
    · -- the first digit is that of `n / 10`, which is smaller and not zero
      rw [Nat.toDigits_of_base_le (by omega) hge] at h
      cases hq : Nat.toDigits 10 (n / 10) with
      | nil => exact absurd hq Nat.toDigits_ne_nil
      | cons a as =>
        rw [hq] at h
        cases h
        exact ih (n / 10) (by omega) (by omega) hq

theorem readNumber_of_ne (isNegative : Bool) {c : Char} (hc : c ≠ '0') (s : List Char) :
    readNumber isNegative (c :: s) = if c.isDigit then
      readAfterWhole isNegative (readDigits {} (c :: s)).1 (readDigits {} (c :: s)).2 else stopAt .invalidNumber := by
  unfold readNumber
  split
  · rename_i h
    cases h
  · rename_i h
    exact absurd (List.cons.inj h).1 hc
  · rename_i h
    exact absurd (List.cons.inj h).1 hc
  · rename_i h
    cases h
    rfl

/-- **Whole numbers are read as they are written.** -/
theorem readNumber_toDigits {n : ℕ} (hn : n ≤ maxDigits) (h : EndsNumber rest) :
    readNumber false (Nat.toDigits 10 n ++ rest) = (.nat n, some rest) := by
  have hall : ∀ c ∈ Nat.toDigits 10 n, c.isDigit = true := fun c hc =>
    Nat.isDigit_of_mem_toDigits (by omega) (by omega) hc
  have hread : readDigits {} (Nat.toDigits 10 n ++ rest) = (⟨n, (Nat.toDigits 10 n).length, 0⟩, rest) := by
    have hplain : readDigits {} (Nat.toDigits 10 n) = (⟨n, (Nat.toDigits 10 n).length, 0⟩, []) := by
      have hvalue : Nat.ofDigitChars 10 (Nat.toDigits 10 n) 0 = n := by simp
      have hdigits := @readDigits_ofDigitChars _ hall 0 0 (by rw [hvalue]; exact hn)
      rw [hvalue, Nat.zero_add] at hdigits
      exact hdigits
    exact readDigits_append hplain h
  rcases Nat.eq_zero_or_pos n with rfl | hpos
  · -- a zero is a number by itself, and no digit may follow it
    rw [Nat.toDigits_zero]
    cases rest with
    | nil => rfl
    | cons c r =>
      have hc := (h c r rfl).1
      simp only [List.cons_append, List.nil_append, readNumber, hc, Bool.false_eq_true, if_false]
      exact readAfterWhole_ends false { count := 1 } h
  · cases hds : Nat.toDigits 10 n with
    | nil => exact absurd hds Nat.toDigits_ne_nil
    | cons c ds =>
      have hne : c ≠ '0' := head_toDigits_ne hpos hds
      have hdigit : c.isDigit = true := hall c (by rw [hds]; exact List.mem_cons_self)
      rw [hds, List.cons_append] at hread
      rw [List.cons_append, readNumber_of_ne false hne, if_pos hdigit, hread]
      exact readAfterWhole_ends false _ h

/-! ## What follows a number -/

/-- What is read of an exponent after its sign. -/
def readPower (isNegative : Bool) (d : Digits) (scale : Int) (down : Bool) (s : List Char) : Step :=
  match s with
  | [] => stopAt .endInValue
  | c :: _ =>
    if !c.isDigit then stopAt .invalidNumber
    else
      let (e, rest) := readDigits {} s
      let doc :=
        if e.dropped > 0 || e.value > Nat.pow 2 31 - 1 then
          if d.value ≠ 0 && !down then Doc.flawed .numberOutOfRange else .float (if isNegative then -0.0 else 0.0)
        else floatDoc isNegative d.value (if down then scale - e.value else scale + e.value)
      (doc, some rest)

variable {isNegative : Bool} {s : List Char} {doc : Doc}

theorem readExponent_of_ne (d : Digits) (scale : Int) {c : Char} (hp : c ≠ '+') (hm : c ≠ '-') (s : List Char) :
    readExponent isNegative d scale (c :: s) = readPower isNegative d scale false (c :: s) := by
  unfold readExponent
  split
  rename_i heq
  split at heq
  · rename_i h
    exact absurd (List.cons.inj h).1 hp
  · rename_i h
    exact absurd (List.cons.inj h).1 hm
  · cases heq
    rfl

theorem readPower_append {d : Digits} {scale : Int} {down : Bool}
    (hs : readPower isNegative d scale down s = (doc, some [])) (h : EndsNumber rest) :
    readPower isNegative d scale down (s ++ rest) = (doc, some rest) := by
  cases s with
  | nil => cases hs
  | cons c s =>
    unfold readPower at hs ⊢
    rw [List.cons_append]
    simp only at hs ⊢
    split at hs
    · cases hs
    · rename_i hc
      rw [if_neg hc]
      rcases hr : readDigits {} (c :: s) with ⟨e, r⟩
      rw [hr] at hs
      simp only [Prod.mk.injEq, Option.some.injEq] at hs
      obtain ⟨hdoc, rfl⟩ := hs
      have happ := readDigits_append hr h
      rw [List.cons_append] at happ
      rw [happ]
      simp only [hdoc, List.nil_append]

theorem readExponent_append {d : Digits} {scale : Int}
    (hs : readExponent isNegative d scale s = (doc, some [])) (h : EndsNumber rest) :
    readExponent isNegative d scale (s ++ rest) = (doc, some rest) := by
  cases s with
  | nil => cases hs
  | cons c s =>
    by_cases hp : c = '+'
    · subst hp
      have hs : readPower isNegative d scale false s = (doc, some []) := hs
      exact readPower_append hs h
    by_cases hm : c = '-'
    · subst hm
      have hs : readPower isNegative d scale true s = (doc, some []) := hs
      exact readPower_append hs h
    · rw [readExponent_of_ne d scale hp hm] at hs
      rw [List.cons_append, readExponent_of_ne d scale hp hm]
      exact readPower_append hs h

theorem readAfterWhole_append {whole : Digits}
    (hs : readAfterWhole isNegative whole s = (doc, some [])) (h : EndsNumber rest) :
    readAfterWhole isNegative whole (s ++ rest) = (doc, some rest) := by
  cases s with
  | nil => rw [List.nil_append, readAfterWhole_ends isNegative whole h, hs]
  | cons c s =>
    rw [List.cons_append]
    by_cases hp : c = '.'
    · -- after the point there are digits and perhaps an exponent
      subst hp
      unfold readAfterWhole at hs ⊢
      simp only at hs ⊢
      rcases hr : readDigits { whole with count := 0 } s with ⟨d, r⟩
      rw [readDigits_append hr h]
      simp only [hr] at hs ⊢
      split at hs
      · cases hs
      · rename_i hd
        rw [if_neg hd]
        split at hs
        · exact readExponent_append hs h
        · exact readExponent_append hs h
        · simp only [Prod.mk.injEq, Option.some.injEq] at hs
          obtain ⟨rfl, rfl⟩ := hs
          rw [List.nil_append]
          split
          · exact absurd rfl (h 'e' _ rfl).2.2.1
          · exact absurd rfl (h 'E' _ rfl).2.2.2
          · rfl
    by_cases he : c = 'e'
    · subst he
      exact readExponent_append (s := s) hs h
    by_cases hE : c = 'E'
    · subst hE
      exact readExponent_append (s := s) hs h
    · -- the number would end before the text does
      rw [readAfterWhole_plain isNegative whole (fun t ht => hp (List.cons.inj ht).1)
        (fun t ht => he (List.cons.inj ht).1) (fun t ht => hE (List.cons.inj ht).1)] at hs
      cases hs

/-- **A number that is the whole of a text** is read in the same way in front of others. -/
theorem readNumber_append (hs : readNumber isNegative s = (doc, some [])) (h : EndsNumber rest) :
    readNumber isNegative (s ++ rest) = (doc, some rest) := by
  cases s with
  | nil => cases hs
  | cons c s =>
    by_cases h0 : c = '0'
    · -- the reader looks one character past a zero
      subst h0
      cases s with
      | nil =>
        have hs : readAfterWhole isNegative { count := 1 } [] = (doc, some []) := hs
        have hends := readAfterWhole_append hs h
        rw [List.nil_append] at hends
        rw [← hends]
        cases rest with
        | nil => rfl
        | cons c r =>
          have hc := (h c r rfl).1
          simp only [List.cons_append, List.nil_append, readNumber, hc, Bool.false_eq_true, if_false]
      | cons c s =>
        simp only [List.cons_append, readNumber] at hs ⊢
        split at hs
        · cases hs
        · rename_i hc
          rw [if_neg hc]
          exact readAfterWhole_append (s := c :: s) hs h
    · rw [List.cons_append]
      rw [readNumber_of_ne isNegative h0] at hs ⊢
      split at hs
      · rename_i hc
        rw [if_pos hc]
        rcases hr : readDigits {} (c :: s) with ⟨d, r⟩
        rw [hr] at hs
        have happ := readDigits_append hr h
        rw [List.cons_append] at happ
        rw [happ]
        exact readAfterWhole_append hs h
      · cases hs

end CodeAtlas.Json
