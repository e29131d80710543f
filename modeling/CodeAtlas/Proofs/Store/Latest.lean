import CodeAtlas.Proofs.Store.Repositories
import Mathlib.Data.List.Basic

/-!
# The latest analyses

A store is asked for the latest analysis of a repository and for the latest completed analyses of
some repositories. What it answers depends on the repositories that are selected and on the
analyses of each of them.

* `lastMax?_eq_getLast?`: of members that are in order, the greatest is the last one.
* `latestCompleted_eq`: the latest completed analyses by what they are taken from.
* `selected_congr`: what of a selection matters.
-/

namespace CodeAtlas

variable {α : Type}

/-- **Of members that are in order the greatest is the last one**, also where several are equal. -/
theorem lastMax?_eq_getLast? {le : α → α → Bool} {l : List α} (h : l.Pairwise fun a b => le a b = true) :
    lastMax? le l = l.getLast? := by
  cases l with
  | nil => rfl
  | cons a l =>
    induction l generalizing a with
    | nil => rfl
    | cons b l ih =>
      obtain ⟨ha, hl⟩ := List.pairwise_cons.1 h
      have hab : le a b = true := ha b List.mem_cons_self
      have hnext : lastMax? le (a :: b :: l) = lastMax? le (b :: l) := by
        simp only [lastMax?, List.foldl_cons, hab, if_true]
      rw [hnext, ih b hl, List.getLast?_cons_cons]

namespace Store

variable {s : Store} {ids ids' : List Ident}

/-- The repositories of some identifiers, or all of them, in the order in which they are stored. -/
def selected (s : Store) (ids : Option (List Ident)) : List Repository :=
  s.repositories.filter fun r => (ids.map (·.contains r.id)).getD true

/-- The analyses of a repository that have completed, in the order in which they are stored. -/
def completedOf (s : Store) (repository : Ident) : List Analysis :=
  s.analyses.filter fun a => a.repository == repository && a.status = .completed

/-- **The latest completed analyses** are taken from those of each selected repository. -/
theorem latestCompleted_eq (s : Store) (ids : Option (List Ident)) :
    s.latestCompleted ids =
      (s.selected ids).filterMap fun r => (lastMax? endsBefore (s.completedOf r.id)).map (r, ·) := rfl

theorem mem_selected {ids : Option (List Ident)} {r : Repository} :
    r ∈ s.selected ids ↔ r ∈ s.repositories ∧ ∀ l, ids = some l → r.id ∈ l := by
  unfold selected
  rw [List.mem_filter]
  cases ids with
  | none => simp
  | some l => simp

/-- **Of a selection only the identifiers of stored repositories matter**, neither their order nor how often
they are named. -/
theorem selected_congr (h : ∀ r ∈ s.repositories, r.id ∈ ids ↔ r.id ∈ ids') :
    s.selected (some ids) = s.selected (some ids') := by
  unfold selected
  apply List.filter_congr
  intro r hr
  have hiff := h r hr
  simp only [Option.map_some, Option.getD_some]
  rw [Bool.eq_iff_iff, List.contains_iff_mem, List.contains_iff_mem]
  exact hiff

end Store

end CodeAtlas
