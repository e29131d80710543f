import Mathlib.Data.List.Nodup
import Mathlib.Data.List.Induction

/-!
# First occurrences

The members of a list, each at its first place (`List.eraseDups`). A list grows at its end, so
a member is either there already or comes last.

* `eraseDups_concat_of_mem`, `eraseDups_concat_of_notMem`: one more member.
* `nodup_eraseDups`, `filter_eraseDups`: what follows by induction from the end.
* `eraseDups_insert_of_mem`: a repetition can stand anywhere.
-/

namespace CodeAtlas

variable {α : Type} [BEq α] [LawfulBEq α] {l m : List α} {x : α}

/-- A member that has come before adds nothing to the first occurrences. -/
theorem eraseDups_concat_of_mem (h : x ∈ l) : (l ++ [x]).eraseDups = l.eraseDups := by
  have hnone : [x].removeAll l = [] := by simp [List.removeAll, h]
  rw [List.eraseDups_append, hnone]
  simp

/-- A member that is new comes after the first occurrences of the others. -/
theorem eraseDups_concat_of_notMem (h : x ∉ l) : (l ++ [x]).eraseDups = l.eraseDups ++ [x] := by
  have hone : [x].removeAll l = [x] := by simp [List.removeAll, h]
  rw [List.eraseDups_append, hone, List.eraseDups_cons]
  rfl

/-- **A repetition can be left out**, wherever it stands. -/
theorem eraseDups_insert_of_mem (h : x ∈ l) (m : List α) : (l ++ x :: m).eraseDups = (l ++ m).eraseDups := by
  have hsame : (x :: m).removeAll l = m.removeAll l := by simp [List.removeAll, h]
  rw [List.eraseDups_append, List.eraseDups_append, hsame]

theorem nodup_eraseDups (l : List α) : l.eraseDups.Nodup := by
  induction l using List.reverseRecOn with
  | nil => simp
  | append_singleton l x ih =>
    by_cases hx : x ∈ l
    · rw [eraseDups_concat_of_mem hx]
      exact ih
    · rw [eraseDups_concat_of_notMem hx]
      refine List.nodup_append.2 ⟨ih, List.nodup_singleton x, ?_⟩
      intro a ha b hb hab
      obtain rfl := List.mem_singleton.1 hb
      exact hx (List.mem_eraseDups.1 (hab ▸ ha))

/-- **The first occurrences of some members** are those of them among all first occurrences. -/
theorem filter_eraseDups (p : α → Bool) (l : List α) : l.eraseDups.filter p = (l.filter p).eraseDups := by
  induction l using List.reverseRecOn with
  | nil => simp
  | append_singleton l x ih =>
    by_cases hp : p x = true
    · have hfilter : (l ++ [x]).filter p = l.filter p ++ [x] := by simp [hp]
      by_cases hx : x ∈ l
      · rw [hfilter, eraseDups_concat_of_mem hx, eraseDups_concat_of_mem (List.mem_filter.2 ⟨hx, hp⟩), ih]
      · have hnot : x ∉ l.filter p := fun h => hx (List.mem_filter.1 h).1
        rw [hfilter, eraseDups_concat_of_notMem hx, eraseDups_concat_of_notMem hnot, List.filter_append, ih]
        simp [hp]
    · have hfilter : (l ++ [x]).filter p = l.filter p := by simp [hp]
      by_cases hx : x ∈ l
      · rw [hfilter, eraseDups_concat_of_mem hx, ih]
      · rw [hfilter, eraseDups_concat_of_notMem hx, List.filter_append, ih]
        simp [hp]

end CodeAtlas
