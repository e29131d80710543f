import CodeAtlas.Text.Find
import Mathlib.Data.List.Infix

/-!
# Occurrences in a text

A text is found in a text if its characters stand there in a row (`<:+:`).

* `contains_iff`: what a search finds.
* `infix_cut_before`, `infix_cut_after`, `infix_splitOnP`: an occurrence does not reach
  over a character that it does not have.
-/

namespace CodeAtlas.Text

variable {p a b : List Char}

theorem beginsWith_iff {s : List Char} : beginsWith p s = true ↔ p <+: s := by
  unfold beginsWith
  rw [Option.isSome_iff_exists]
  constructor
  · rintro ⟨r, hr⟩
    exact ⟨r, (stripFront?_eq_some hr).symm⟩
  · rintro ⟨r, rfl⟩
    exact ⟨r, stripFront?_append p r⟩

theorem occursIn_iff {s : List Char} : occursIn p s = true ↔ p <:+: s := by
  induction s with
  | nil => simp only [occursIn, beginsWith_iff, List.prefix_nil, List.infix_nil]
  | cons c s ih => simp only [occursIn, Bool.or_eq_true, beginsWith_iff, ih, List.infix_cons_iff]

/-- **What a search finds**: the characters in a row. -/
theorem contains_iff {s t : String} : contains s t = true ↔ t.toList <:+: s.toList := occursIn_iff

/-- An occurrence in two texts in a row is in one of them if the second begins with a
character that it does not have. -/
theorem infix_cut_before {c : Char} (hc : c ∉ p) (h : p <:+: a ++ c :: b) : p <:+: a ∨ p <:+: c :: b := by
  rcases List.infix_append_iff_ne_nil.1 h with h | h | ⟨l, r, -, hr, rfl, -, hrb⟩
  · exact Or.inl h
  · exact Or.inr h
  · -- what reaches into the second text would begin with that character
    obtain ⟨x, r', rfl⟩ := List.exists_cons_of_ne_nil hr
    have hx : x = c := (List.cons_prefix_cons.1 hrb).1
    subst hx
    exact absurd (List.mem_append_right l List.mem_cons_self) hc

/-- An occurrence in two texts in a row is in one of them if the first ends with a
character that it does not have. -/
theorem infix_cut_after {c : Char} (hc : c ∉ p) (h : p <:+: (a ++ [c]) ++ b) : p <:+: a ++ [c] ∨ p <:+: b := by
  have hrev : p.reverse <:+: b.reverse ++ c :: a.reverse := by simpa using h.reverse
  rcases infix_cut_before (by simpa using hc) hrev with h | h
  · exact Or.inr (List.reverse_infix.1 h)
  · exact Or.inl (List.reverse_infix.1 (by simpa using h))

/-- **What has no separator stands between separators.** -/
theorem infix_splitOnP {sep : Char → Bool} (hp : ∀ c ∈ p, sep c = false) {s : List Char} (h : p <:+: s) :
    ∃ run ∈ s.splitOnP sep, p <:+: run := by
  induction hn : s.length using Nat.strong_induction_on generalizing s with
  | _ n ih =>
    by_cases hs : ∀ c ∈ s, sep c = false
    · exact ⟨s, by rw [List.splitOnP_eq_singleton hs]; exact List.mem_singleton_self s, h⟩
    push Not at hs
    obtain ⟨c, hc, hsep⟩ := hs
    have hsep : sep c = true := by simpa using hsep
    have hcp : c ∉ p := fun hcp => by simp [hp c hcp] at hsep
    -- cut at one of the separators
    obtain ⟨a, b, rfl⟩ := List.append_of_mem hc
    rw [List.length_append, List.length_cons] at hn
    rw [List.splitOnP_append_cons a b hsep]
    have hside : p <:+: a ∨ p <:+: b := by
      rcases infix_cut_before hcp h with h | h
      · exact Or.inl h
      · rcases List.infix_cons_iff.1 h with h | h
        · rcases List.prefix_cons_iff.1 h with rfl | ⟨r, rfl, -⟩
          · exact Or.inr List.nil_infix
          · exact absurd List.mem_cons_self hcp
        · exact Or.inr h
    rcases hside with ha | hb
    · obtain ⟨run, hrun, hin⟩ := ih a.length (by omega) ha rfl
      exact ⟨run, List.mem_append_left _ hrun, hin⟩
    · obtain ⟨run, hrun, hin⟩ := ih b.length (by omega) hb rfl
      exact ⟨run, List.mem_append_right _ hrun, hin⟩

/-- A member of a list of texts stands in what they are joined to. -/
theorem infix_join {x : String} {l : List String} (hx : x ∈ l) : x.toList <:+: (String.join l).toList := by
  rw [String.toList_join, List.flatMap_def]
  exact List.infix_of_mem_flatten (List.mem_map_of_mem hx)

end CodeAtlas.Text
