import CodeAtlas.Proofs.Outline.Surveys

/-!
# Documentation in Python files

A module, a class or a function is documented by a string that is its first statement. What is noted as
documentation is a statement with one string in it and no named sibling before it, wherever it stands.

* `Python.documents`: which statements document something.
* `Python.Overlooked`, `Python.Mistaken`: where the two differ.
* `Python.docComments_eq`: **what is noted as documentation in a file.**
* `Python.docstrings_noted`: **the documentation is noted exactly if no statement is overlooked or mistaken.**
-/

namespace CodeAtlas.Outline.Python

open SyntaxTree

variable {source : String} {s : Site}

/-! ## What documents something -/

/-- A statement that is a string and nothing else, not even a comma. -/
def isBareString (n : Node) : Bool :=
  match n.children with
  | [c] => c.named && c.kind == "string"
  | _ => false

/-- A statement with only comments before it. -/
def isFirstStatement (s : Site) : Bool := s.before.all (·.kind == "comment")

/-- A statement of a module, or of the body of a class or a function. -/
def isInBody (s : Site) : Bool :=
  match s.above with
  | [] => false
  | parent :: outer =>
    parent.kind == "module" ||
      parent.kind == "block" && outer.head?.any fun o => o.kind == "class_definition" || o.kind == "function_definition"

/-- A bare string that is the first statement of a module, a class or a function. -/
def documents (s : Site) : Bool :=
  s.node.kind == "expression_statement" && isBareString s.node && isFirstStatement s && isInBody s

/-- Documentation with a comment before it. -/
def Overlooked (s : Site) : Prop := documents s = true ∧ s.before ≠ []

/-- A statement with one string in it and nothing before it that stands in another block, or in which a comma follows
the string. -/
def Mistaken (s : Site) : Prop :=
  s.node.kind = "expression_statement" ∧ (∃ c, s.node.namedChildren = [c] ∧ c.kind = "string") ∧ s.before = [] ∧
    (isInBody s = false ∨ isBareString s.node = false)

/-! ## What is noted -/

theorem isDocStatement_iff :
    isDocStatement s = true ↔
      s.node.kind = "expression_statement" ∧ (∃ c, s.node.namedChildren = [c] ∧ c.kind = "string") ∧ s.before = [] := by
  unfold isDocStatement isDocstring
  simp only [Bool.and_eq_true, beq_iff_eq, List.isEmpty_iff]
  refine and_congr_right fun _ => and_congr_left fun _ => ?_
  split
  · rename_i c hc
    simp [hc]
  · rename_i hnot
    refine iff_of_false (by simp) ?_
    rintro ⟨c, hc, -⟩
    exact hnot c hc

/-- A bare string is the one string in its statement. -/
theorem exists_of_isBareString {n : Node} (h : isBareString n = true) : ∃ c, n.namedChildren = [c] ∧ c.kind = "string" := by
  unfold isBareString at h
  split at h
  · rename_i c hc
    simp only [Bool.and_eq_true, beq_iff_eq] at h
    exact ⟨c, by rw [Node.namedChildren, hc, List.filter_cons_of_pos h.1]; rfl, h.2⟩
  · cases h

/-- **A statement is noted as documentation just if it is**, unless it is overlooked or mistaken. -/
theorem isDocStatement_iff_documents (s : Site) :
    (isDocStatement s = true ↔ documents s = true) ↔ ¬Overlooked s ∧ ¬Mistaken s := by
  have hdocuments : documents s = true ↔ s.node.kind = "expression_statement" ∧ isBareString s.node = true ∧
      isFirstStatement s = true ∧ isInBody s = true := by
    simp only [documents, Bool.and_eq_true, beq_iff_eq, and_assoc]
  have hfirst : s.before = [] → isFirstStatement s = true := fun h => by simp [isFirstStatement, h]
  have hbare := exists_of_isBareString (n := s.node)
  unfold Overlooked Mistaken
  rw [← Bool.not_eq_true (isInBody s), ← Bool.not_eq_true (isBareString s.node), isDocStatement_iff, hdocuments]
  constructor
  · intro hsame
    refine ⟨fun h => h.2 (hsame.2 h.1).2.2, ?_⟩
    rintro ⟨hkind, hstring, hbefore, hother⟩
    obtain ⟨-, hbare, -, hbody⟩ := hsame.1 ⟨hkind, hstring, hbefore⟩
    exact hother.elim (· hbody) (· hbare)
  · rintro ⟨hseen, hmeant⟩
    constructor
    · intro hnoted
      by_contra hnot
      refine hmeant ⟨hnoted.1, hnoted.2.1, hnoted.2.2, ?_⟩
      have hfirst := hfirst hnoted.2.2
      tauto
    · intro hdoc
      exact ⟨hdoc.1, hbare hdoc.2.1, by_contra fun hbefore => hseen ⟨hdoc, hbefore⟩⟩

/-- A comment that documents something. -/
def docOf : Finding → Option CommentInfo
  | .comment c => if c.isDoc then some c else none
  | _ => none

theorem docOf_eq_nil {k : Finding.Label} {l : List Finding} (hk : k ≠ .comment) (h : ∀ f ∈ l, f.label = k) :
    l.filterMap docOf = [] :=
  filterMap_eq_nil_of_label (fun f hf => by cases f <;> simp_all [docOf]) h

theorem filterMap_docOf_inner (s : Site) : (inner source s).filterMap docOf = [] := by
  unfold inner
  dsimp only
  split
  case h_1 => exact docOf_eq_nil (by decide) fun f hf => label_of_mem_functionFinding hf
  case h_2 => exact docOf_eq_nil (by decide) fun f hf => label_of_mem_classFinding hf
  case h_3 => exact docOf_eq_nil (by decide) fun f hf => label_of_mem_assignmentFinding hf
  case h_4 => exact docOf_eq_nil (by decide) fun f hf => label_of_mem_calls hf
  all_goals rfl

/-- The comment that is noted for a statement. -/
def docComment (source : String) (n : Node) : CommentInfo := ⟨Text.trim (n.text source), true, location n⟩

theorem filterMap_docOf_visit (s : Site) :
    (visit source s).1.filterMap docOf = if isDocStatement s then [docComment source s.node] else [] := by
  cases hclosed : isClosed .python s.node.kind with
  | false =>
    rw [visit_open source hclosed]
    split
    · rfl
    · exact filterMap_docOf_inner s
  | true =>
    have hnot : isDocStatement s = false := by
      by_contra h
      have hkind := (isDocStatement_iff.1 (by simpa using h)).1
      rw [hkind] at hclosed
      exact absurd hclosed (by decide)
    rw [if_neg (by simp [hnot])]
    unfold visit
    dsimp only
    split
    case h_5 => simp_all [isClosed, closedKinds]
    all_goals dsimp only
    case h_1 => exact docOf_eq_nil (by decide) fun f hf => label_of_mem_importFindings hf
    case h_2 => exact docOf_eq_nil (by decide) fun f hf => label_of_mem_importFromFinding hf
    case h_3 => rfl
    case h_4 => exact docOf_eq_nil (by decide) fun f hf => label_of_mem_literalFinding hf

/-- **What is noted as documentation in a file**: the statements on the surface of its tree that are one string
with no named sibling before it. -/
theorem docComments_eq (source : String) (root : Node) :
    (Finding.comments (findings .python source root)).filter (·.isDoc) =
      ((Site.surface (isClosed .python) { node := root }).filter isDocStatement).map fun s => docComment source s.node := by
  have hpick : (Finding.comments (findings .python source root)).filter (·.isDoc) =
      (findings .python source root).filterMap docOf := by
    rw [Finding.comments, List.filter_filterMap]
    refine List.filterMap_congr fun f _ => ?_
    cases f <;> simp [docOf, Option.filter]
  rw [hpick, filterMap_findings .python source root fun f hf => by cases f <;> simp_all [docOf]]
  simp only [visitorOf, filterMap_docOf_visit]
  induction Site.surface (isClosed .python) { node := root } with
  | nil => rfl
  | cons s l ih =>
    rw [List.flatMap_cons, ih, List.filter_cons]
    split <;> rfl

/-- **The documentation of a file.** A statement is noted as documentation just if it is, unless it is
documentation that is overlooked or a string that is mistaken for it. Where no statement is, and none stands
inside an import, a comment or a string, what is noted is the documentation of the file. -/
theorem docstrings_noted (path label : String) (size : ℕ) (source : String) (root : Node) :
    let noted := (ofTree path label size .python source root).comments.filter (·.isDoc)
    let tree : Site := { node := root }
    noted = ((tree.surface (isClosed .python)).filter isDocStatement).map (fun s => docComment source s.node) ∧
      (∀ s, (isDocStatement s = true ↔ documents s = true) ↔ ¬Overlooked s ∧ ¬Mistaken s) ∧
      ((∀ s ∈ tree.sites, ¬Overlooked s ∧ ¬Mistaken s) →
        (∀ s ∈ tree.enclosed (isClosed .python), s.node.kind ≠ "expression_statement") →
        noted = (tree.sites.filter documents).map fun s => docComment source s.node) := by
  refine ⟨docComments_eq source root, isDocStatement_iff_documents, fun hright houter => ?_⟩
  have hnone : ∀ s ∈ Site.enclosed (isClosed .python) { node := root }, isDocStatement s = false := by
    intro s hs
    by_contra h
    exact houter s hs (isDocStatement_iff.1 (by simpa using h)).1
  have hsame : ∀ s ∈ Site.sites { node := root }, isDocStatement s = documents s := fun s hs =>
    Bool.eq_iff_iff.2 ((isDocStatement_iff_documents s).2 (hright s hs))
  refine (docComments_eq source root).trans ?_
  rw [← Site.filter_sites hnone, List.filter_congr hsame]

end CodeAtlas.Outline.Python
