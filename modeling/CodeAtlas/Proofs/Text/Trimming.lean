import CodeAtlas.Proofs.Text.Cuts
import CodeAtlas.Proofs.Text.Relowering

/-!
# Trimmed text

A text is trimmed if no blank stands at either end. Lowercasing writes a blank only for that blank,
so the first and the last character that are written for a trimmed text are no blanks either.

* `trim_eq_self_iff`: the texts that are trimmed.
* `trim_trim`: **trimming a second time changes nothing.**
* `isOwnOnly_of_isBlank`: no blank is the lowercase form of another character.
* `trim_lower`: **the lowercase form of a trimmed text is trimmed.**
-/

namespace CodeAtlas.Text

variable {p : Char → Bool} {s t done : List Char} {c d : Char}

/-! ## Both ends -/

/-- A text without a character of a class at either end is left as it is. -/
theorem trimChars_eq_self_iff :
    trimChars p s = s ↔ (∀ c ∈ s.head?, p c = false) ∧ ∀ c ∈ s.getLast?, p c = false := by
  rw [trimChars_eq_iff]
  constructor
  · exact fun h => ⟨h.front, h.back⟩
  · exact fun h => ⟨⟨[], [], by simp, by simp, by simp⟩, h.1, h.2⟩

theorem trimChars_trimChars (p : Char → Bool) (s : List Char) : trimChars p (trimChars p s) = trimChars p s := by
  have h : IsTrimmed p s (trimChars p s) := trimChars_eq_iff.1 rfl
  exact trimChars_eq_self_iff.2 ⟨h.front, h.back⟩

/-- **Trimming a second time changes nothing.** -/
@[simp]
theorem trim_trim (s : String) : trim (trim s) = trim s := by
  simp only [trim, trimOf, String.toList_ofList, trimChars_trimChars]

/-- **A text is trimmed** if it neither begins nor ends with a blank. -/
theorem trim_eq_self_iff {s : String} :
    trim s = s ↔ (∀ c ∈ s.toList.head?, isBlank c = false) ∧ ∀ c ∈ s.toList.getLast?, isBlank c = false := by
  rw [← trimChars_eq_self_iff, trim, trimOf, ← String.toList_inj, String.toList_ofList]

/-! ## Blanks in lower case -/

/-- The numbers of the blanks. -/
def blankNumbers : List ℕ :=
  [0x09, 0x0A, 0x0B, 0x0C, 0x0D, 0x20, 0x85, 0xA0, 0x1680, 0x2000, 0x2001, 0x2002, 0x2003, 0x2004, 0x2005, 0x2006,
    0x2007, 0x2008, 0x2009, 0x200A, 0x2028, 0x2029, 0x202F, 0x205F, 0x3000]

theorem mem_blankNumbers (h : isBlank c = true) : c.toNat ∈ blankNumbers := by
  simp only [isBlank, Bool.or_eq_true, Bool.and_eq_true, decide_eq_true_eq, beq_iff_eq] at h
  simp only [blankNumbers, List.mem_cons, List.not_mem_nil, or_false]
  omega

/-- **No blank is the lowercase form** of another character. -/
theorem isOwnOnly_of_isBlank (h : isBlank c = true) : isOwnOnly c = true := by
  have hall : (blankNumbers.all fun n => isOwnOnly (Char.ofNat n)) = true := by decide +kernel
  have hone := List.all_eq_true.1 hall c.toNat (mem_blankNumbers h)
  rwa [Char.ofNat_toNat] at hone

/-- What is written for a character that is no blank has no blank in it. -/
theorem not_isBlank_of_mem_lowerIn {rest : List Char} (hc : isBlank c = false) (hd : d ∈ lowerIn done c rest) :
    isBlank d = false := by
  by_contra hblank
  rw [Bool.not_eq_false] at hblank
  rw [eq_of_mem_lowerIn (isOwnOnly_of_isBlank hblank) hd, hblank] at hc
  cases hc

/-- What is written for a text ends with what is written for its last character. -/
theorem exists_lowered_concat (done s : List Char) (c : Char) :
    ∃ front, lowered done (s ++ [c]) = front ++ lowerIn (s.reverse ++ done) c [] := by
  induction s generalizing done with
  | nil => exact ⟨[], by simp [lowered]⟩
  | cons d s ih =>
    obtain ⟨front, hfront⟩ := ih (d :: done)
    refine ⟨lowerIn done d (s ++ [c]) ++ front, ?_⟩
    rw [List.cons_append, lowered, hfront]
    simp

/-- **The lowercase form of a trimmed text is trimmed.** -/
theorem trim_lower {s : String} (h : trim s = s) : trim (lower s) = lower s := by
  rw [trim_eq_self_iff] at h ⊢
  obtain ⟨hfront, hback⟩ := h
  rw [toList_lower, lowerChars_eq]
  generalize s.toList = l at hfront hback
  constructor
  · cases l with
    | nil => simp [lowered]
    | cons c r =>
      intro d hd
      have hhead : d ∈ (lowerIn [] c r).head? := by
        rwa [lowered, List.head?_append_of_ne_nil _ (lowerIn_ne_nil [] c r)] at hd
      exact not_isBlank_of_mem_lowerIn (hfront c rfl) (List.mem_of_mem_head? hhead)
  · cases l using List.reverseRecOn with
    | nil => simp [lowered]
    | append_singleton r c =>
      intro d hd
      obtain ⟨front, hwritten⟩ := exists_lowered_concat [] r c
      have hlast : d ∈ (lowerIn (r.reverse ++ []) c []).getLast? := by
        rwa [hwritten, List.getLast?_append_of_ne_nil _ (lowerIn_ne_nil _ c [])] at hd
      exact not_isBlank_of_mem_lowerIn (hback c (by simp)) (List.mem_of_mem_getLast? hlast)

end CodeAtlas.Text
