import CodeAtlas.Proofs.Outline.Methods
import CodeAtlas.Proofs.Outline.Outcome
import CodeAtlas.Proofs.SyntaxTree.Traversal

/-!
# The order of an outline

A visitor notes what it finds at a node when it is shown the node, and with the lines of that node.
A walk shows the nodes in the order of the tree, so the lists of an outline are in the order of the
text, if the tree is.

* `Finding.StandsAt`, `standsAt_visitorOf`: **whatever is found at a node has its lines.**
* `exists_findings_eq`: the findings in a tree, site by site.
* `ascending_findings`: their start lines do not decrease.
* `Artifact.Ascending`: the lists of an outline in order.
* `outline_walked`: **a walk is the traversal of its tree**, and what follows for every outline.
-/

namespace CodeAtlas.Outline

open SyntaxTree

/-! ## Where a finding stands -/

/-- The lines of a finding. Methods that are added to a type have none of their own. -/
def Finding.location? : Finding → Option Location
  | .function i => some i.location
  | .classLike i => some i.location
  | .methods _ _ => none
  | .imported i => some i.location
  | .exported i => some i.location
  | .variable i => some i.location
  | .comment i => some i.location
  | .call i => some i.location
  | .controlFlow i => some i.location
  | .literal i => some i.location

/-- A finding has the lines of a node, if it has any. -/
def Finding.StandsAt (n : Node) (f : Finding) : Prop := ∀ l ∈ f.location?, l = location n

variable {source : String} {n : Node} {s : Site} {f : Finding}

theorem Finding.standsAt_iff : f.StandsAt n ↔ f.location? = none ∨ f.location? = some (location n) := by
  unfold StandsAt
  cases f.location? <;> simp

theorem standsAt_callFinding {callee : Node} (h : f ∈ callFinding source n callee) : f.StandsAt n := by
  unfold callFinding at h
  dsimp only at h
  split at h <;> simp_all [Finding.standsAt_iff, Finding.location?]

theorem standsAt_calls {role : String} (h : f ∈ ((n.child? role).map (callFinding source n)).getD []) : f.StandsAt n := by
  cases hc : n.child? role with
  | none => simp [hc] at h
  | some callee =>
    rw [hc] at h
    exact standsAt_callFinding h

theorem standsAt_literalFinding (h : f ∈ literalFinding source n) : f.StandsAt n := by
  unfold literalFinding at h
  dsimp only at h
  split at h <;> simp_all [Finding.standsAt_iff, Finding.location?]

theorem standsAt_commentFinding {isDoc : Bool} (h : f ∈ [commentFinding source n isDoc]) : f.StandsAt n := by
  rw [List.mem_singleton.1 h, Finding.standsAt_iff]
  exact Or.inr rfl

theorem standsAt_flowFinding {kind : String} (h : f ∈ [flowFinding kind n]) : f.StandsAt n := by
  rw [List.mem_singleton.1 h, Finding.standsAt_iff]
  exact Or.inr rfl

namespace Rust

theorem standsAt_functionFinding (h : f ∈ functionFinding source n) : f.StandsAt n := by
  unfold functionFinding at h
  split at h <;> simp_all [Finding.standsAt_iff, Finding.location?]

theorem standsAt_classFinding {kind : ClassKind} (h : f ∈ classFinding source kind n) : f.StandsAt n := by
  unfold classFinding at h
  split at h <;> simp_all [Finding.standsAt_iff, Finding.location?]

theorem standsAt_variableFinding {kind : String} (h : f ∈ variableFinding source kind n) : f.StandsAt n := by
  unfold variableFinding at h
  split at h <;> simp_all [Finding.standsAt_iff, Finding.location?]

theorem standsAt_implFinding (h : f ∈ implFinding source n) : f.StandsAt n := by
  have hlabel := label_of_mem_implFinding h
  cases f <;> simp_all [Finding.standsAt_iff, Finding.location?]

theorem standsAt_useFinding (h : f ∈ useFinding source n) : f.StandsAt n := by
  unfold useFinding at h
  split at h <;> simp_all [Finding.standsAt_iff, Finding.location?]

theorem standsAt_externCrateFinding (h : f ∈ externCrateFinding source n) : f.StandsAt n := by
  unfold externCrateFinding at h
  split at h <;> simp_all [Finding.standsAt_iff, Finding.location?]

theorem standsAt_exportFinding (h : f ∈ exportFinding source s) : f.StandsAt s.node := by
  unfold exportFinding at h
  split at h
  · split at h <;> simp_all [Finding.standsAt_iff, Finding.location?]
  · simp at h

theorem standsAt_inner (h : f ∈ inner source n) : f.StandsAt n := by
  unfold inner at h
  split at h
  case h_1 => exact standsAt_functionFinding h
  case h_2 | h_3 | h_4 | h_5 => exact standsAt_classFinding h
  case h_6 => exact standsAt_implFinding h
  case h_7 | h_8 => exact standsAt_variableFinding h
  case h_9 | h_10 => exact standsAt_calls h
  case h_16 => simp at h
  all_goals exact standsAt_flowFinding h

theorem standsAt_visit (h : f ∈ (visit source s).1) : f.StandsAt s.node := by
  unfold visit at h
  dsimp only at h
  split at h <;> dsimp only at h
  case h_1 => exact standsAt_useFinding h
  case h_2 => exact standsAt_externCrateFinding h
  case h_3 | h_4 => exact standsAt_commentFinding h
  case h_5 | h_6 => exact standsAt_literalFinding h
  case h_7 =>
    rcases List.mem_append.1 h with h | h
    · exact standsAt_inner h
    · exact standsAt_exportFinding h

end Rust

namespace Python

theorem standsAt_functionFinding (h : f ∈ functionFinding source n) : f.StandsAt n := by
  unfold functionFinding at h
  split at h <;> simp_all [Finding.standsAt_iff, Finding.location?]

theorem standsAt_classFinding (h : f ∈ classFinding source n) : f.StandsAt n := by
  unfold classFinding at h
  split at h <;> simp_all [Finding.standsAt_iff, Finding.location?]

theorem standsAt_importFindings (h : f ∈ importFindings source n) : f.StandsAt n := by
  unfold importFindings at h
  obtain ⟨m, -, rfl⟩ := List.mem_map.1 h
  exact Finding.standsAt_iff.2 (Or.inr rfl)

theorem standsAt_importFromFinding (h : f ∈ importFromFinding source n) : f.StandsAt n := by
  unfold importFromFinding at h
  split at h <;> simp_all [Finding.standsAt_iff, Finding.location?]

theorem standsAt_assignmentFinding (h : f ∈ assignmentFinding source s) : f.StandsAt s.node := by
  unfold assignmentFinding at h
  repeat' split at h
  all_goals simp_all [Finding.standsAt_iff, Finding.location?]

theorem standsAt_inner (h : f ∈ inner source s) : f.StandsAt s.node := by
  unfold inner at h
  dsimp only at h
  split at h
  case h_1 => exact standsAt_functionFinding h
  case h_2 => exact standsAt_classFinding h
  case h_3 => exact standsAt_assignmentFinding h
  case h_4 => exact standsAt_calls h
  case h_12 => simp at h
  all_goals exact standsAt_flowFinding h

theorem standsAt_visit (h : f ∈ (visit source s).1) : f.StandsAt s.node := by
  unfold visit at h
  dsimp only at h
  split at h
  case h_5 =>
    split at h
    · exact standsAt_commentFinding h
    · exact standsAt_inner h
  all_goals dsimp only at h
  case h_1 => exact standsAt_importFindings h
  case h_2 => exact standsAt_importFromFinding h
  case h_3 => exact standsAt_commentFinding h
  case h_4 => exact standsAt_literalFinding h

end Python

namespace Script

theorem standsAt_classFindings {kind : ClassKind} (h : f ∈ classFindings source kind n) : f.StandsAt n := by
  unfold classFindings at h
  split at h <;> simp_all [Finding.standsAt_iff, Finding.location?]

theorem standsAt_importFindings (h : f ∈ importFindings source n) : f.StandsAt n := by
  unfold importFindings at h
  split at h <;> simp_all [importFinding, Finding.standsAt_iff, Finding.location?]

theorem standsAt_exportFindings (h : f ∈ exportFindings source n) : f.StandsAt n := by
  unfold exportFindings at h
  obtain ⟨name, -, rfl⟩ := List.mem_map.1 h
  exact Finding.standsAt_iff.2 (Or.inr rfl)

theorem standsAt_loadFindings {callee : Node} (h : f ∈ loadFindings source n callee) : f.StandsAt n := by
  unfold loadFindings at h
  repeat' split at h
  all_goals simp_all [importFinding, Finding.standsAt_iff, Finding.location?]

theorem standsAt_callFindings (h : f ∈ callFindings source n) : f.StandsAt n := by
  unfold callFindings at h
  split at h
  · simp at h
  · rcases List.mem_append.1 h with h | h
    · exact standsAt_callFinding h
    · exact standsAt_loadFindings h

/-- A function that is the value of a name has the lines of the declaration, not of the value. -/
theorem standsAt_declaratorFindings (h : f ∈ declaratorFindings source s) : f.StandsAt s.node := by
  unfold declaratorFindings at h
  repeat' split at h
  all_goals simp_all [functionFinding, Finding.standsAt_iff, Finding.location?]

theorem standsAt_inner (h : f ∈ inner source s) : f.StandsAt s.node := by
  unfold inner at h
  dsimp only at h
  split at h
  case h_1 | h_2 | h_3 =>
    obtain ⟨name, -, rfl⟩ := Option.map_eq_some_iff.1 (Option.mem_toList.1 h)
    exact Finding.standsAt_iff.2 (Or.inr rfl)
  case h_4 => exact standsAt_declaratorFindings h
  case h_5 | h_6 | h_7 | h_8 | h_9 => exact standsAt_classFindings h
  case h_10 => exact standsAt_exportFindings h
  case h_11 => exact standsAt_callFindings h
  case h_12 => exact standsAt_calls h
  case h_21 => simp at h
  all_goals exact standsAt_flowFinding h

theorem standsAt_visit (h : f ∈ (visit source s).1) : f.StandsAt s.node := by
  unfold visit at h
  dsimp only at h
  split at h <;> dsimp only at h
  case h_1 => exact standsAt_importFindings h
  case h_2 => exact standsAt_commentFinding h
  case h_3 | h_4 => exact standsAt_literalFinding h
  case h_5 => exact standsAt_inner h

end Script

/-- **Whatever is found at a node has its lines**, in every language. -/
theorem standsAt_visitorOf {language : Language} (h : f ∈ (visitorOf language source s).1) : f.StandsAt s.node := by
  cases language with
  | rust => exact Rust.standsAt_visit h
  | python => exact Python.standsAt_visit h
  | javaScript | typeScript | tsx => exact Script.standsAt_visit h

/-! ## The findings in a tree -/

/-- What has been found so far was found at the sites shown so far. -/
def FoundAt (visitor : Visitor) (state : Array Finding × List Site) : Prop :=
  state.1.toList = state.2.flatMap fun s => (visitor s).1

theorem foundAt_nil (visitor : Visitor) : FoundAt visitor (#[], []) := rfl

/-- Every site keeps it. -/
theorem foundAt_logged {visitor : Visitor} (state : Array Finding × List Site) (s : Site) (h : FoundAt visitor state) :
    FoundAt visitor (logged (note visitor) state s).1 := by
  unfold FoundAt at *
  simp [logged, note, h]

/-- **The findings in a tree, site by site**: those at the sites that the visitor is shown. -/
theorem exists_findings_eq (language : Language) (source : String) (root : Node) :
    ∃ seen : List Site, seen.Sublist (Site.sites { node := root }) ∧
      findings language source root = seen.flatMap fun s => (visitorOf language source s).1 := by
  obtain ⟨seen, hseen⟩ := exists_shows (note (visitorOf language source)) root #[]
  have hfound := walk_induction foundAt_logged root (foundAt_nil (visitorOf language source))
  unfold FoundAt at hfound
  rw [hseen.walked, walk_eq] at hfound
  exact ⟨seen, hseen.sublist, (findings_eq language source root).trans hfound⟩

/-- Locations with start lines that do not decrease. -/
def Ascending (l : List Location) : Prop := l.Pairwise fun a b => a.startLine ≤ b.startLine

/-- **The start lines of the findings do not decrease** in a tree with its children in order. -/
theorem ascending_findings (language : Language) (source : String) {root : Node} (h : root.IsOrdered) :
    Ascending ((findings language source root).filterMap Finding.location?) := by
  obtain ⟨seen, hseen, hfound⟩ := exists_findings_eq language source root
  have hlines (s : Site) (l : Location) (hl : l ∈ (visitorOf language source s).1.filterMap Finding.location?) :
      l = location s.node := by
    obtain ⟨f, hf, hfl⟩ := List.mem_filterMap.1 hl
    exact standsAt_visitorOf hf l hfl
  rw [hfound, List.filterMap_flatMap, Ascending, List.pairwise_flatMap]
  constructor
  · intro s _
    refine List.pairwise_of_forall_mem_list fun a ha b hb => ?_
    rw [hlines s a ha, hlines s b hb]
  · refine ((Site.pairwise_sites { node := root } h).sublist hseen).imp fun {s t} hst a ha b hb => ?_
    rw [hlines s a ha, hlines t b hb]
    exact Nat.succ_le_succ hst

variable {α : Type} {pick : Finding → Option α} {place : α → Location}

/-- The places of the findings of one sort are some of all places, in their order. -/
theorem map_filterMap_sublist (hpick : ∀ f a, pick f = some a → f.location? = some (place a)) (found : List Finding) :
    ((found.filterMap pick).map place).Sublist (found.filterMap Finding.location?) := by
  induction found with
  | nil => exact List.Sublist.refl _
  | cons f found ih =>
    cases hf : pick f with
    | none =>
      rw [List.filterMap_cons_none hf]
      exact ih.trans ((List.sublist_cons_self f found).filterMap _)
    | some a =>
      rw [List.filterMap_cons_some hf, List.filterMap_cons_some (hpick f a hf), List.map_cons]
      exact ih.cons_cons (place a)

/-- So their start lines do not decrease either. -/
theorem ascending_filterMap {found : List Finding} (h : Ascending (found.filterMap Finding.location?))
    (hpick : ∀ f a, pick f = some a → f.location? = some (place a)) : Ascending ((found.filterMap pick).map place) :=
  List.Pairwise.sublist (map_filterMap_sublist hpick found) h

/-! ## Outlines -/

/-- **The lists of an outline are in order.** -/
structure Artifact.Ascending (a : Artifact) : Prop where
  functions : Outline.Ascending (a.functions.map (·.location))
  classes : Outline.Ascending (a.classes.map (·.location))
  imports : Outline.Ascending (a.imports.map (·.location))
  bindings : Outline.Ascending (a.bindings.map (·.location))
  comments : Outline.Ascending (a.comments.map (·.location))
  calls : Outline.Ascending (a.calls.map (·.location))
  controlFlow : Outline.Ascending (a.controlFlow.map (·.location))
  literals : Outline.Ascending (a.literals.map (·.location))

/-- Methods that are added to classes move none of them. -/
theorem Rust.map_location_attach (found : List Finding) (classes : List ClassInfo) :
    (attach found classes).map (·.location) = classes.map (·.location) := by
  have hsame := congrArg (List.map (·.location)) (map_attachBlocks (blocks found) classes)
  rw [← attach_eq, List.map_map, List.map_map] at hsame
  exact hsame

/-- **The outline of a tree is in the order of the tree.** -/
theorem ascending_ofTree (path label : String) (size : ℕ) (language : Language) (source : String) {root : Node}
    (h : root.IsOrdered) : (ofTree path label size language source root).Ascending := by
  have hfound := ascending_findings language source h
  constructor
  case classes =>
    show Ascending ((Rust.attach _ _).map _)
    rw [Rust.map_location_attach]
    exact ascending_filterMap hfound fun f a hf => by cases f <;> simp_all [Finding.location?]
  all_goals exact ascending_filterMap hfound fun f a hf => by cases f <;> simp_all [Finding.location?]

/-- **A walk is the traversal of its tree**, for every visitor: both show it the same nodes in the same order, each
node once and nothing below a node that it skips, and after not more nodes than the tree has the walk ends with the
same state. So in every outline of a tree with its children in order the start lines of each list do not decrease. The
children are in order if those of each node lie one after the other within its lines. -/
theorem outline_walked {σ : Type} (visit : σ → Site → σ × Descent) (tree : Node) (state : σ)
    (read : Language → String → Option Node) (path content : String) :
    (∃ seen, Shows visit tree state seen) ∧
      ((∀ language root, read language content = some root → root.IsOrdered) →
        (outlineWith read path content).Ascending) ∧
      ((∀ language root, read language content = some root → ∀ s ∈ Site.sites { node := root }, s.node.Nested) →
        (outlineWith read path content).Ascending) := by
  have hascending (h : ∀ language root, read language content = some root → root.IsOrdered) :
      (outlineWith read path content).Ascending := by
    rcases outlineWith_cases read path content with ⟨language, root, hreadable, houtline⟩ | ⟨-, houtline⟩
    · rw [houtline]
      exact ascending_ofTree _ _ _ language content (h language root hreadable.tree)
    · rw [houtline]
      constructor <;> exact List.Pairwise.nil
  exact ⟨exists_shows visit tree state, hascending,
    fun h => hascending fun language root hroot => Node.isOrdered_of_nested (h language root hroot)⟩

/-- A call, and a call under a condition on the next line. -/
def twoCalls : Node :=
  let name (start row : ℕ) : Node := { kind := "identifier", role := some "function", span := ⟨start, start + 1, row, row⟩ }
  let call (start row : ℕ) : Node :=
    { kind := "call_expression", span := ⟨start, start + 3, row, row⟩, children := [name start row] }
  let condition : Node := { kind := "if_statement", span := ⟨5, 16, 1, 1⟩, children := [call 12 1] }
  { kind := "program", span := ⟨0, 17, 0, 2⟩, children := [call 0 0, condition] }

/-- A visitor that counts nodes and skips what is called, in an outline with two calls. -/
theorem outline_walked_twoCalls :
    let visit (count : ℕ) (s : Site) := (count + 1, if s.node.kind = "call_expression" then Descent.skip else .children)
    let read (_ : Language) (_ : String) := some twoCalls
    (∀ language root, read language "f();\nif (a) g();\n" = some root →
        ∀ s ∈ Site.sites { node := root }, s.node.Nested) ∧
      (∃ seen, Shows visit twoCalls 0 seen) ∧ (outlineWith read "a.js" "f();\nif (a) g();\n").Ascending := by
  intro visit read
  have hnested (language : Language) (root : Node) (hroot : read language "f();\nif (a) g();\n" = some root) :
      ∀ s ∈ Site.sites { node := root }, s.node.Nested := by
    cases hroot
    decide
  obtain ⟨hshows, -, hascending⟩ := outline_walked visit twoCalls 0 read "a.js" "f();\nif (a) g();\n"
  exact ⟨hnested, hshows, hascending hnested⟩

end CodeAtlas.Outline
