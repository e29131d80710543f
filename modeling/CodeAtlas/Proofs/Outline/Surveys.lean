import CodeAtlas.Outline.Extract
import CodeAtlas.Proofs.SyntaxTree.Sites

/-!
# What a survey finds

The findings of a survey are those at the sites that it is shown, in order. A survey is not shown
what stands inside an import, a comment or a string.

* `findingsAt_eq`: the findings from a site on, by recursion on the tree.
* `filterMap_findingsAt`: **the findings of one sort are those on the surface of the tree.**
* `visitorOf_closed`, `visitorOf_open`: where the visitor of a language goes on.
* `filterMap_findings`: what that comes to for each language.
-/

namespace CodeAtlas.Outline

open SyntaxTree

/-! ## Findings along a walk -/

variable (visitor : Visitor)

/-- What a survey does at a site. -/
def note (found : Array Finding) (s : Site) : Array Finding × Descent := (found ++ (visitor s).1, (visitor s).2)

/-- The findings of a survey that begins at a site. -/
def findingsAt (s : Site) : List Finding := (walkStack (note visitor) #[] [s]).toList

theorem note_append (first found : Array Finding) (s : Site) :
    note visitor (first ++ found) s = (first ++ (note visitor found s).1, (note visitor found s).2) := by
  exact Prod.ext (Array.ext' (by simp [note])) rfl

/-- What was found before stays in front. -/
theorem walkStack_found (first found : Array Finding) (stack : List Site) :
    walkStack (note visitor) (first ++ found) stack = first ++ walkStack (note visitor) found stack := by
  fun_induction walkStack (note visitor) found stack with
  | case1 found => rw [walkStack]
  | case2 found s stack found' hvisit ih =>
    rw [walkStack, note_append, hvisit]
    exact ih
  | case3 found s stack found' hvisit ih =>
    rw [walkStack, note_append, hvisit]
    exact ih

theorem toList_walkStack (found : Array Finding) (stack : List Site) :
    (walkStack (note visitor) found stack).toList = found.toList ++ (walkStack (note visitor) #[] stack).toList := by
  rw [← Array.toList_append, ← walkStack_found, Array.append_empty]

theorem toList_walkStack_eq (stack : List Site) :
    (walkStack (note visitor) #[] stack).toList = stack.flatMap (findingsAt visitor) := by
  induction stack with
  | nil => simp [walkStack]
  | cons s stack ih =>
    rw [← List.singleton_append, walkStack_append, toList_walkStack, ih, List.flatMap_append, List.flatMap_singleton]
    rfl

/-- **The findings from a site on**: those at the site, and those below it if the visitor goes on. -/
theorem findingsAt_eq (s : Site) :
    findingsAt visitor s =
      (visitor s).1 ++ if (visitor s).2 = .skip then [] else s.inner.flatMap (findingsAt visitor) := by
  rw [findingsAt, walkStack]
  cases hd : (visitor s).2 with
  | skip =>
    simp only [note, hd]
    simp [walkStack]
  | children =>
    simp only [note, hd]
    rw [toList_walkStack, List.append_nil, toList_walkStack_eq]
    simp

variable {visitor} {β : Type} {closed : String → Bool} {pick : Finding → Option β}

/-- **The findings of one sort are those on the surface of the tree**, if the visitor stops at closed
nodes, and elsewhere only where nothing of the sort is below. -/
theorem filterMap_findingsAt (hclosed : ∀ s, closed s.node.kind = true → (visitor s).2 = .skip)
    (hopen : ∀ s, closed s.node.kind = false → (visitor s).2 = .skip →
      ∀ t ∈ s.inner.flatMap (Site.surface closed), (visitor t).1.filterMap pick = [])
    (s : Site) :
    (findingsAt visitor s).filterMap pick = (s.surface closed).flatMap fun t => (visitor t).1.filterMap pick := by
  induction s using Site.inner_induction with
  | step s ih =>
    rw [findingsAt_eq, Site.surface_eq, List.filterMap_append, List.flatMap_cons]
    congr 1
    cases hs : closed s.node.kind with
    | true => simp [hclosed s hs]
    | false =>
      by_cases hskip : (visitor s).2 = .skip
      · -- the visitor stops, and would not have found anything
        rw [if_pos hskip, if_neg (by simp), List.filterMap_nil]
        exact (List.flatMap_eq_nil_iff.2 (hopen s hs hskip)).symm
      · rw [if_neg hskip, if_neg (by simp), List.filterMap_flatMap, List.flatMap_assoc]
        exact List.flatMap_congr ih

/-! ## The sorts of finding -/

/-- A sort of finding. -/
inductive Finding.Label where
  | function
  | classLike
  | methods
  | imported
  | exported
  | variable
  | comment
  | call
  | controlFlow
  | literal
deriving DecidableEq

/-- The sort of a finding. -/
@[simp] def Finding.label : Finding → Label
  | .function _ => .function
  | .classLike _ => .classLike
  | .methods _ _ => .methods
  | .imported _ => .imported
  | .exported _ => .exported
  | .variable _ => .variable
  | .comment _ => .comment
  | .call _ => .call
  | .controlFlow _ => .controlFlow
  | .literal _ => .literal

variable {source : String} {n : Node} {s : Site} {f : Finding} {l : List Finding}

/-- What is picked by its sort is not found among findings of another sort. -/
theorem filterMap_eq_nil_of_label {k : Finding.Label} (hpick : ∀ f : Finding, f.label = k → pick f = none)
    (h : ∀ f ∈ l, f.label = k) : l.filterMap pick = [] :=
  List.filterMap_eq_nil_iff.2 fun f hf => hpick f (h f hf)

theorem label_of_mem_callFinding {callee : Node} (h : f ∈ callFinding source n callee) : f.label = .call := by
  unfold callFinding at h
  dsimp only at h
  split at h <;> simp_all

theorem label_of_mem_calls {role : String} (h : f ∈ ((n.child? role).map (callFinding source n)).getD []) :
    f.label = .call := by
  cases hc : n.child? role with
  | none => simp [hc] at h
  | some callee =>
    rw [hc] at h
    exact label_of_mem_callFinding h

theorem label_of_mem_commentFinding {isDoc : Bool} (h : f ∈ [commentFinding source n isDoc]) : f.label = .comment := by
  rw [List.mem_singleton.1 h]
  rfl

theorem label_of_mem_literalFinding (h : f ∈ literalFinding source n) : f.label = .literal := by
  unfold literalFinding at h
  dsimp only at h
  split at h <;> simp_all

namespace Rust

theorem label_of_mem_functionFinding (h : f ∈ functionFinding source n) : f.label = .function := by
  unfold functionFinding at h
  split at h <;> simp_all

theorem label_of_mem_classFinding {kind : ClassKind} (h : f ∈ classFinding source kind n) : f.label = .classLike := by
  unfold classFinding at h
  split at h <;> simp_all

theorem label_of_mem_variableFinding {kind : String} (h : f ∈ variableFinding source kind n) : f.label = .variable := by
  unfold variableFinding at h
  split at h <;> simp_all

theorem label_of_mem_implFinding (h : f ∈ implFinding source n) : f.label = .methods := by
  unfold implFinding at h
  dsimp only at h
  split at h
  · split at h <;> simp_all
  · simp at h

theorem label_of_mem_useFinding (h : f ∈ useFinding source n) : f.label = .imported := by
  unfold useFinding at h
  split at h <;> simp_all

theorem label_of_mem_externCrateFinding (h : f ∈ externCrateFinding source n) : f.label = .imported := by
  unfold externCrateFinding at h
  split at h <;> simp_all

theorem label_of_mem_exportFinding (h : f ∈ exportFinding source s) : f.label = .exported := by
  unfold exportFinding at h
  split at h
  · split at h <;> simp_all
  · simp at h

end Rust

namespace Python

theorem label_of_mem_functionFinding (h : f ∈ functionFinding source n) : f.label = .function := by
  unfold functionFinding at h
  split at h <;> simp_all

theorem label_of_mem_classFinding (h : f ∈ classFinding source n) : f.label = .classLike := by
  unfold classFinding at h
  split at h <;> simp_all

theorem label_of_mem_assignmentFinding (h : f ∈ assignmentFinding source s) : f.label = .variable := by
  unfold assignmentFinding at h
  repeat' split at h
  all_goals simp_all

theorem label_of_mem_importFindings (h : f ∈ importFindings source n) : f.label = .imported := by
  unfold importFindings at h
  obtain ⟨m, -, rfl⟩ := List.mem_map.1 h
  rfl

theorem label_of_mem_importFromFinding (h : f ∈ importFromFinding source n) : f.label = .imported := by
  unfold importFromFinding at h
  split at h <;> simp_all

end Python

namespace Script

theorem label_of_mem_classFindings {kind : ClassKind} (h : f ∈ classFindings source kind n) : f.label = .classLike := by
  unfold classFindings at h
  split at h <;> simp_all

theorem label_of_mem_importFindings (h : f ∈ importFindings source n) : f.label = .imported := by
  unfold importFindings at h
  split at h <;> simp_all [importFinding]

theorem label_of_mem_exportFindings (h : f ∈ exportFindings source n) : f.label = .exported := by
  unfold exportFindings at h
  obtain ⟨name, -, rfl⟩ := List.mem_map.1 h
  rfl

theorem label_of_mem_loadFindings {callee : Node} (h : f ∈ loadFindings source n callee) : f.label = .imported := by
  unfold loadFindings at h
  repeat' split at h
  all_goals simp_all [importFinding]

theorem label_of_mem_callFindings (h : f ∈ callFindings source n) : f.label = .call ∨ f.label = .imported := by
  unfold callFindings at h
  split at h
  · simp at h
  · rcases List.mem_append.1 h with h | h
    · exact Or.inl (label_of_mem_callFinding h)
    · exact Or.inr (label_of_mem_loadFindings h)

end Script

/-! ## Where visitors go on -/

/-- The visitor of a language. -/
def visitorOf (language : Language) (source : String) : Visitor :=
  match language with
  | .rust => Rust.visit source
  | .python => Python.visit source
  | .javaScript | .typeScript | .tsx => Script.visit source

theorem findings_eq (language : Language) (source : String) (root : Node) :
    findings language source root = findingsAt (visitorOf language source) { node := root } := by
  have hsurvey (visitor : Visitor) : survey visitor root = findingsAt visitor { node := root } :=
    congrArg Array.toList (walk_eq (note visitor) root #[])
  cases language <;> exact hsurvey _

/-- The kinds of node inside which a visitor is shown nothing: imports, comments and strings. -/
def closedKinds : Language → List String
  | .rust =>
    ["use_declaration", "extern_crate_declaration", "line_comment", "block_comment", "string_literal", "raw_string_literal"]
  | .python => ["import_statement", "import_from_statement", "comment", "string"]
  | .javaScript | .typeScript | .tsx => ["import_statement", "comment", "string", "template_string"]

def isClosed (language : Language) (kind : String) : Bool := (closedKinds language).contains kind

theorem Rust.visit_open (source : String) (h : isClosed .rust s.node.kind = false) :
    visit source s = (inner source s.node ++ exportFinding source s, .children) := by
  unfold visit
  dsimp only
  split
  case h_7 => rfl
  all_goals
    rename_i hk
    rw [hk] at h
    exact absurd h (by decide)

theorem Rust.visit_closed (source : String) (h : isClosed .rust s.node.kind = true) :
    (visit source s).2 = .skip ∧
      ∀ f ∈ (visit source s).1, f.label = .imported ∨ f.label = .comment ∨ f.label = .literal := by
  unfold visit
  dsimp only
  split <;> dsimp only
  case h_1 => exact ⟨rfl, fun f hf => Or.inl (label_of_mem_useFinding hf)⟩
  case h_2 => exact ⟨rfl, fun f hf => Or.inl (label_of_mem_externCrateFinding hf)⟩
  case h_3 | h_4 => exact ⟨rfl, fun f hf => Or.inr (Or.inl (label_of_mem_commentFinding hf))⟩
  case h_5 | h_6 => exact ⟨rfl, fun f hf => Or.inr (Or.inr (label_of_mem_literalFinding hf))⟩
  case h_7 => simp_all [isClosed, closedKinds]

theorem Script.visit_open (source : String) (h : isClosed .javaScript s.node.kind = false) :
    visit source s = (inner source s, .children) := by
  unfold visit
  dsimp only
  split
  case h_5 => rfl
  all_goals
    rename_i hk
    rw [hk] at h
    exact absurd h (by decide)

theorem Script.visit_closed (source : String) (h : isClosed .javaScript s.node.kind = true) :
    (visit source s).2 = .skip ∧
      ∀ f ∈ (visit source s).1, f.label = .imported ∨ f.label = .comment ∨ f.label = .literal := by
  unfold visit
  dsimp only
  split <;> dsimp only
  case h_1 => exact ⟨rfl, fun f hf => Or.inl (label_of_mem_importFindings hf)⟩
  case h_2 => exact ⟨rfl, fun f hf => Or.inr (Or.inl (label_of_mem_commentFinding hf))⟩
  case h_3 | h_4 => exact ⟨rfl, fun f hf => Or.inr (Or.inr (label_of_mem_literalFinding hf))⟩
  case h_5 => simp_all [isClosed, closedKinds]

theorem Python.visit_closed (source : String) (h : isClosed .python s.node.kind = true) :
    (visit source s).2 = .skip ∧
      ∀ f ∈ (visit source s).1, f.label = .imported ∨ f.label = .comment ∨ f.label = .literal := by
  unfold visit
  dsimp only
  split
  case h_5 => simp_all [isClosed, closedKinds]
  all_goals dsimp only
  case h_1 => exact ⟨rfl, fun f hf => Or.inl (label_of_mem_importFindings hf)⟩
  case h_2 => exact ⟨rfl, fun f hf => Or.inl (label_of_mem_importFromFinding hf)⟩
  case h_3 => exact ⟨rfl, fun f hf => Or.inr (Or.inl (label_of_mem_commentFinding hf))⟩
  case h_4 => exact ⟨rfl, fun f hf => Or.inr (Or.inr (label_of_mem_literalFinding hf))⟩

/-- A statement that Python notes as documentation. -/
def isDocStatement (s : Site) : Bool := s.node.kind == "expression_statement" && Python.isDocstring s

theorem Python.visit_open (source : String) (h : isClosed .python s.node.kind = false) :
    visit source s =
      if isDocStatement s then ([commentFinding source s.node true], .skip) else (inner source s, .children) := by
  unfold visit
  dsimp only
  split
  case h_5 => rfl
  all_goals
    rename_i hk
    rw [hk] at h
    exact absurd h (by decide)

/-- Only a string is below a statement that Python notes as documentation. -/
theorem kind_of_isDocStatement (h : isDocStatement s = true) {t : Site}
    (ht : t ∈ s.inner.flatMap (Site.surface (isClosed .python))) : t.node.kind = "string" := by
  simp only [isDocStatement, Python.isDocstring, Bool.and_eq_true] at h
  obtain ⟨u, hu, htu⟩ := List.mem_flatMap.1 ht
  have hmem : u.node ∈ s.node.namedChildren := Site.map_node_inner s ▸ List.mem_map_of_mem hu
  have hkind : u.node.kind = "string" := by
    cases hc : s.node.namedChildren with
    | nil => simp [hc] at hmem
    | cons c cs =>
      rw [hc] at h hmem
      cases cs with
      | nil => rw [List.mem_singleton.1 hmem]; simpa using h.2.1
      | cons d cs => simp at h
  -- the string is closed, so it is all there is
  rw [Site.surface_eq, if_pos (by rw [hkind]; decide), List.mem_singleton] at htu
  rw [htu, hkind]

/-- The visitor stops at the closed nodes. -/
theorem visitorOf_closed (language : Language) (source : String) (s : Site) (h : isClosed language s.node.kind = true) :
    (visitorOf language source s).2 = .skip ∧
      ∀ f ∈ (visitorOf language source s).1, f.label = .imported ∨ f.label = .comment ∨ f.label = .literal := by
  cases language with
  | rust => exact Rust.visit_closed source h
  | python => exact Python.visit_closed source h
  | javaScript | typeScript | tsx => exact Script.visit_closed source h

/-- Where the visitor stops at a node that is not closed, it finds only literals below. -/
theorem visitorOf_open (language : Language) (source : String) (s : Site) (h : isClosed language s.node.kind = false)
    (hskip : (visitorOf language source s).2 = .skip) :
    ∀ t ∈ s.inner.flatMap (Site.surface (isClosed language)),
      ∀ f ∈ (visitorOf language source t).1, f.label = .literal := by
  cases language with
  | rust =>
    rw [visitorOf, Rust.visit_open source h] at hskip
    cases hskip
  | javaScript | typeScript | tsx =>
    rw [visitorOf, Script.visit_open source h] at hskip
    cases hskip
  | python =>
    have hdoc : isDocStatement s = true := by
      by_contra hnot
      rw [visitorOf, Python.visit_open source h, if_neg hnot] at hskip
      cases hskip
    intro t ht f hf
    have hkind := kind_of_isDocStatement hdoc ht
    simp only [visitorOf, Python.visit, hkind] at hf
    exact label_of_mem_literalFinding hf

/-- **The findings of a language, but for its literals, are those on the surface of the tree.** -/
theorem filterMap_findings (language : Language) (source : String) (root : Node)
    (hpick : ∀ f : Finding, f.label = .literal → pick f = none) :
    (findings language source root).filterMap pick =
      (Site.surface (isClosed language) { node := root }).flatMap fun s =>
        (visitorOf language source s).1.filterMap pick := by
  rw [findings_eq]
  refine filterMap_findingsAt (fun s hs => (visitorOf_closed language source s hs).1) (fun s hs hskip t ht => ?_) _
  exact List.filterMap_eq_nil_iff.2 fun f hf => hpick f (visitorOf_open language source s hs hskip t ht f hf)

end CodeAtlas.Outline
