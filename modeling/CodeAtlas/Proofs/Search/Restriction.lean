import CodeAtlas.Proofs.Search.Stream
import CodeAtlas.Proofs.Store.Latest

/-!
# Searches of some repositories

A query may name the repositories that are searched. What a search asks and announces then
depends on these and on their completed analyses, and on nothing else in the store.

* `Store.AgreeOn`: stores that are the same as far as some repositories go.
* `latestCompleted_of_agreeOn`: they have the same latest analyses of these.
* `search_of_eligible_eq`: a search sees a store only through the repositories that are searched.
* `search_restricted`: **a search of some repositories does not depend on the others.**
-/

namespace CodeAtlas

/-! ## Stores -/

namespace Store

/-- **Two stores are the same as far as some repositories go**: both have these, in one order, and
the same completed analyses of each, in one order too. -/
structure AgreeOn (ids : List Ident) (s t : Store) : Prop where
  repositories : s.selected (some ids) = t.selected (some ids)
  analyses : ∀ r ∈ s.selected (some ids), s.completedOf r.id = t.completedOf r.id

variable {s t : Store} {ids : List Ident}

/-- **Stores that agree on some repositories** have the same latest analyses of these. -/
theorem latestCompleted_of_agreeOn (h : AgreeOn ids s t) :
    s.latestCompleted (some ids) = t.latestCompleted (some ids) := by
  rw [latestCompleted_eq, latestCompleted_eq, ← h.repositories]
  apply List.filterMap_congr
  intro r hr
  rw [h.analyses r hr]

end Store

namespace Search

variable {σ : Type}

/-! ## What a search sees of a store -/

/-- **A search sees a store only through the repositories that are searched**: the hints for the
patterns, the files and what is announced about them are made of these. -/
theorem search_of_eligible_eq {s t : Store} {context : QueryContext} (h : eligible s context = eligible t context)
    (generator : Generator σ) (settings : SearchSettings) (state : σ) :
    search generator settings (.ok s) context state = search generator settings (.ok t) context state := by
  unfold eligible at h
  have hexecute : execute generator settings (.ok s) context state =
      execute generator settings (.ok t) context state := by
    unfold execute
    cases checkQuery context.query with
    | error e => rfl
    | ok query => simp only [h]
  unfold search
  rw [hexecute]

/-- **A search of some repositories does not depend on the others.** Let two stores agree on the
repositories that a query names, whatever else they hold. Then a search asks the generator
the same in both of them, request by request, and announces the same; and the generator is
left in the same state, so that nothing it is asked later tells them apart.

What is asked is noted by a generator that answers alike. -/
theorem search_restricted {s t : Store} {ids : List Ident} (h : Store.AgreeOn ids s t) {context : QueryContext}
    (hids : context.repositories = some ids) (generator : Generator σ) (settings : SearchSettings) (state : σ) :
    let asked (u : Store) := (search (logged generator) settings (.ok u) context ([], state)).2.1
    let announced (u : Store) := (search generator settings (.ok u) context state).1
    let left (u : Store) := (search generator settings (.ok u) context state).2
    asked s = asked t ∧ announced s = announced t ∧ left s = left t := by
  intro asked announced left
  have heligible : eligible s context = eligible t context := by
    unfold eligible
    rw [hids, Store.latestCompleted_of_agreeOn h]
  have hasked : asked s = asked t := by
    have := search_of_eligible_eq heligible (logged generator) settings ([], state)
    exact congrArg (·.2.1) this
  have hsame := search_of_eligible_eq heligible generator settings state
  exact ⟨hasked, congrArg Prod.fst hsame, congrArg Prod.snd hsame⟩

/-- An analysis that completes with one function. -/
def found : Analysis :=
  (Analysis.begun ⟨11⟩ ⟨1⟩ default).completed default
    { artifacts := [{ path := "f.py", language := "python", parseSuccess := true,
                      functions := [{ name := "f", snippet := "f()", location := ⟨1, 1⟩, complexity := 1 }] }] }

/-- A store with one repository. -/
def alone : Store where
  repositories := [.register ⟨1⟩ default "a/b"]
  analyses := [found]

/-- The same repository in company. Its latest analysis has failed, and the other has the same function. -/
def crowded : Store where
  repositories := [.register ⟨2⟩ default "a/c", .register ⟨1⟩ default "a/b"]
  analyses := [{ found with id := ⟨21⟩, repository := ⟨2⟩ }, found,
    (Analysis.begun ⟨12⟩ ⟨1⟩ default).failed default "none"]

/-- A generator that looks for `f` and has no more to say. -/
def curt : Generator Unit := fun request state =>
  (if request.label = "patterns" then .ok "\x7b\"search_terms\":[\"f\"]\x7d" else .error (.transport "none"), state)

/-- Both searches of the one repository get as far as a summary; without its name there are two to search. -/
theorem search_restricted_alone :
    let context : QueryContext := { query := "f", repositories := some [⟨1⟩] }
    let asked (u : Store) (context : QueryContext) := (search (logged curt) {} (.ok u) context ([], ())).2.1
    Store.AgreeOn [⟨1⟩] alone crowded ∧ asked alone context = asked crowded context ∧
      (search curt {} (.ok alone) context ()).1 = (search curt {} (.ok crowded) context ()).1 ∧
      (asked alone context).length = 4 ∧ (eligible crowded { query := "f" }).length = 2 := by
  intro context asked
  have hagree : Store.AgreeOn [⟨1⟩] alone crowded := by
    refine ⟨rfl, ?_⟩
    intro r hr
    obtain rfl : r = .register ⟨1⟩ default "a/b" := List.mem_singleton.1 hr
    rfl
  have hids : context.repositories = some [⟨1⟩] := rfl
  obtain ⟨hasked, hannounced, -⟩ := search_restricted hagree hids curt {} ()
  refine ⟨hagree, hasked, hannounced, ?_, ?_⟩
  · decide +kernel
  · decide +kernel

end Search

end CodeAtlas
