import CodeAtlas.Proofs.Outline.Surveys

/-!
# Branches of functions

The complexity of a function counts all branches of its tree. The branches of a file are listed by a
visitor that is shown nothing of what stands inside an import, a comment or a string.

* `flows_findings`: **the listed branches are those on the surface of the tree**, in order.
* `complexity_of_mem`: the complexity of a function is that of the tree of its body.
* `complexity_recorded`: **what is counted and not listed**, for every function of every tree.
-/

namespace CodeAtlas.Outline

open SyntaxTree

/-! ## What is listed and what is counted -/

/-- The kinds of node that are listed as branches, and what they are called in the list. -/
def flowKinds : Language → List (String × String)
  | .rust =>
    [("if_expression", "if"), ("for_expression", "loop"), ("while_expression", "loop"), ("loop_expression", "loop"),
     ("match_arm", "match_arm")]
  | .python =>
    [("if_statement", "if"), ("elif_clause", "if"), ("for_statement", "loop"), ("while_statement", "loop"),
     ("except_clause", "catch"), ("conditional_expression", "ternary"), ("case_clause", "match_arm")]
  | .javaScript | .typeScript | .tsx =>
    [("if_statement", "if"), ("for_statement", "loop"), ("for_in_statement", "loop"), ("while_statement", "loop"),
     ("do_statement", "loop"), ("switch_case", "switch_case"), ("catch_clause", "catch"),
     ("ternary_expression", "ternary")]

def isListed (language : Language) (kind : String) : Bool := ((flowKinds language).lookup kind).isSome

/-- The entry of a node in the list of branches. -/
def flowOf (language : Language) (n : Node) : Option ControlFlowInfo :=
  ((flowKinds language).lookup n.kind).map fun label => ⟨label, location n⟩

/-- The kinds of node that are counted and never listed. -/
def isUnlisted (language : Language) (kind : String) : Bool :=
  match language with
  | .rust => kind == "try_expression"
  | .python => kind == "boolean_operator"
  | .javaScript | .typeScript | .tsx => false

/-- The kinds of node that are counted. -/
def isBranchOf (language : Language) : String → Bool :=
  match language with
  | .rust => Rust.isBranch
  | .python => Python.isBranch
  | .javaScript | .typeScript | .tsx => Script.isBranch

theorem isListed_iff {language : Language} {kind : String} :
    isListed language kind = true ↔ kind ∈ (flowKinds language).map Prod.fst := by
  rw [isListed, List.lookup_isSome_iff, List.mem_map]
  exact exists_congr fun p => and_congr_right fun _ => by rw [beq_iff_eq, eq_comm]

theorem flowOf_eq_none {language : Language} {n : Node} (h : n.kind ∉ (flowKinds language).map Prod.fst) :
    flowOf language n = none := by
  have hnone : (flowKinds language).lookup n.kind = none := by
    rw [← Option.not_isSome_iff_eq_none]
    exact fun hsome => h (isListed_iff.1 hsome)
  rw [flowOf, hnone]
  rfl

/-- **What is counted is listed or never listed**, and not both. -/
theorem isBranchOf_iff {language : Language} {kind : String} :
    isBranchOf language kind = true ↔ isListed language kind = true ∨ isUnlisted language kind = true := by
  rw [isListed_iff]
  cases language <;>
    simp [isBranchOf, Rust.isBranch, Python.isBranch, Script.isBranch, flowKinds, isUnlisted] <;> tauto

theorem isUnlisted_of_isListed {language : Language} {kind : String} (h : isListed language kind = true) :
    isUnlisted language kind = false := by
  have hall : ∀ k ∈ (flowKinds language).map Prod.fst, isUnlisted language k = false := by cases language <;> decide
  exact hall kind (isListed_iff.1 h)

theorem flowOf_of_isClosed {language : Language} {n : Node} (h : isClosed language n.kind = true) :
    flowOf language n = none := by
  have hall : ∀ k ∈ closedKinds language, k ∉ (flowKinds language).map Prod.fst := by cases language <;> decide
  exact flowOf_eq_none (hall n.kind (by simpa [isClosed] using h))

/-! ## The list -/

variable {source : String} {s : Site} {l : List Finding}

theorem flows_append (l m : List Finding) : Finding.flows (l ++ m) = Finding.flows l ++ Finding.flows m :=
  List.filterMap_append

theorem flows_eq_nil {k : Finding.Label} (hk : k ≠ .controlFlow) (h : ∀ f ∈ l, f.label = k) : Finding.flows l = [] :=
  filterMap_eq_nil_of_label (fun f hf => by cases f <;> simp_all) h

theorem Rust.flows_inner (n : Node) : Finding.flows (inner source n) = (flowOf .rust n).toList := by
  unfold inner
  split
  case h_1 hk => rw [flowOf, hk]; exact flows_eq_nil (by decide) fun f hf => label_of_mem_functionFinding hf
  case h_2 hk | h_3 hk | h_4 hk | h_5 hk =>
    rw [flowOf, hk]; exact flows_eq_nil (by decide) fun f hf => label_of_mem_classFinding hf
  case h_6 hk => rw [flowOf, hk]; exact flows_eq_nil (by decide) fun f hf => label_of_mem_implFinding hf
  case h_7 hk | h_8 hk => rw [flowOf, hk]; exact flows_eq_nil (by decide) fun f hf => label_of_mem_variableFinding hf
  case h_9 hk | h_10 hk => rw [flowOf, hk]; exact flows_eq_nil (by decide) fun f hf => label_of_mem_calls hf
  case h_16 => rw [flowOf_eq_none (by simp_all [flowKinds])]; rfl
  all_goals
    rename_i hk
    rw [flowOf, hk]
    rfl

theorem Python.flows_inner (s : Site) : Finding.flows (inner source s) = (flowOf .python s.node).toList := by
  unfold inner
  dsimp only
  split
  case h_1 hk => rw [flowOf, hk]; exact flows_eq_nil (by decide) fun f hf => label_of_mem_functionFinding hf
  case h_2 hk => rw [flowOf, hk]; exact flows_eq_nil (by decide) fun f hf => label_of_mem_classFinding hf
  case h_3 hk => rw [flowOf, hk]; exact flows_eq_nil (by decide) fun f hf => label_of_mem_assignmentFinding hf
  case h_4 hk => rw [flowOf, hk]; exact flows_eq_nil (by decide) fun f hf => label_of_mem_calls hf
  case h_12 => rw [flowOf_eq_none (by simp_all [flowKinds])]; rfl
  all_goals
    rename_i hk
    rw [flowOf, hk]
    rfl

theorem Script.flows_callFindings (n : Node) : Finding.flows (callFindings source n) = [] := by
  unfold callFindings
  split
  · rfl
  · rw [flows_append, flows_eq_nil (by decide) fun f hf => label_of_mem_callFinding hf,
      flows_eq_nil (by decide) fun f hf => label_of_mem_loadFindings hf]
    rfl

theorem Script.flows_declaratorFindings (s : Site) : Finding.flows (declaratorFindings source s) = [] := by
  unfold declaratorFindings
  repeat' split
  all_goals rfl

theorem Script.flows_inner (s : Site) : Finding.flows (inner source s) = (flowOf .javaScript s.node).toList := by
  unfold inner
  dsimp only
  split
  case h_1 hk | h_2 hk | h_3 hk =>
    rw [flowOf, hk]
    cases childText? source s.node "name" <;> rfl
  case h_4 hk => rw [flowOf, hk]; exact flows_declaratorFindings s
  case h_5 hk | h_6 hk | h_7 hk | h_8 hk | h_9 hk =>
    rw [flowOf, hk]; exact flows_eq_nil (by decide) fun f hf => label_of_mem_classFindings hf
  case h_10 hk => rw [flowOf, hk]; exact flows_eq_nil (by decide) fun f hf => label_of_mem_exportFindings hf
  case h_11 hk => rw [flowOf, hk]; exact flows_callFindings s.node
  case h_12 hk => rw [flowOf, hk]; exact flows_eq_nil (by decide) fun f hf => label_of_mem_calls hf
  case h_21 => rw [flowOf_eq_none (by simp_all [flowKinds])]; rfl
  all_goals
    rename_i hk
    rw [flowOf, hk]
    rfl

/-- At a closed node there is no branch. -/
theorem flows_of_closed {language : Language} (h : isClosed language s.node.kind = true) :
    Finding.flows (visitorOf language source s).1 = [] :=
  List.filterMap_eq_nil_iff.2 fun f hf => by
    have := (visitorOf_closed language source s h).2 f hf
    cases f <;> simp_all

/-- **What a visitor lists at a site** is the entry of its node. -/
theorem flows_visitorOf (language : Language) (source : String) (s : Site) :
    Finding.flows (visitorOf language source s).1 = (flowOf language s.node).toList := by
  cases h : isClosed language s.node.kind with
  | true =>
    rw [flowOf_of_isClosed h, flows_of_closed h]
    rfl
  | false =>
    cases language with
    | rust =>
      rw [visitorOf, Rust.visit_open source h, flows_append, Rust.flows_inner,
        flows_eq_nil (by decide) fun f hf => Rust.label_of_mem_exportFinding hf, List.append_nil]
    | python =>
      rw [visitorOf, Python.visit_open source h]
      split
      case isTrue hdoc =>
        have hkind : s.node.kind = "expression_statement" := by
          simp only [isDocStatement, Bool.and_eq_true, beq_iff_eq] at hdoc
          exact hdoc.1
        rw [flowOf, hkind]
        rfl
      case isFalse => exact Python.flows_inner s
    | javaScript | typeScript | tsx =>
      rw [visitorOf, Script.visit_open source h]
      exact Script.flows_inner s

/-- The entries of the branches on the surface of a tree, in order. -/
def flowsOf (language : Language) (n : Node) : List ControlFlowInfo :=
  (Site.surface (isClosed language) { node := n }).filterMap fun s => flowOf language s.node

/-- They do not depend on what surrounds the tree. -/
theorem filterMap_flowOf (language : Language) (s : Site) :
    (s.surface (isClosed language)).filterMap (fun t => flowOf language t.node) = flowsOf language s.node := by
  have hnodes := Site.map_node_surface_congr (s := s) (t := { node := s.node }) (isClosed language) rfl
  have hmap : ∀ u : Site, (u.surface (isClosed language)).filterMap (fun t => flowOf language t.node) =
      ((u.surface (isClosed language)).map Site.node).filterMap (flowOf language) := fun u => by
    rw [List.filterMap_map]
    rfl
  rw [flowsOf, hmap, hmap, hnodes]

/-- **The listed branches are those on the surface of the tree**, in order. -/
theorem flows_findings (language : Language) (source : String) (root : Node) :
    Finding.flows (findings language source root) = flowsOf language root := by
  have hsurface : Finding.flows (findings language source root) =
      (Site.surface (isClosed language) { node := root }).flatMap fun s =>
        Finding.flows (visitorOf language source s).1 :=
    filterMap_findings language source root fun f hf => by cases f <;> simp_all
  simp only [hsurface, flows_visitorOf]
  exact (List.filterMap_eq_flatMap_toList _ _).symm

/-- The branches below a site of the surface are listed in one piece. -/
theorem flowsOf_within {language : Language} {r : Site} (h : s ∈ r.surface (isClosed language)) :
    flowsOf language s.node <:+: flowsOf language r.node := by
  rw [← filterMap_flowOf, ← filterMap_flowOf]
  exact (Site.surface_within h).filterMap _

/-! ## Functions -/

/-- The node in which the branches of a function are counted: what it is declared to be, or the declaration. -/
def bodyOf (language : Language) (n : Node) : Node :=
  match language with
  | .rust | .python => n
  | .javaScript | .typeScript | .tsx => if n.kind = "variable_declarator" then (n.child? "value").getD n else n

theorem bodyOf_eq (language : Language) (n : Node) :
    bodyOf language n = n ∨ n.child? "value" = some (bodyOf language n) := by
  have hscript : (if n.kind = "variable_declarator" then (n.child? "value").getD n else n) = n ∨
      n.child? "value" = some (if n.kind = "variable_declarator" then (n.child? "value").getD n else n) := by
    split
    · cases n.child? "value" with
      | none => exact Or.inl rfl
      | some value => exact Or.inr rfl
    · exact Or.inl rfl
  cases language with
  | rust | python => exact Or.inl rfl
  | javaScript | typeScript | tsx => exact hscript

variable {i : FunctionInfo} {n : Node}

theorem Rust.complexity_of_mem_inner (h : .function i ∈ inner source n) : i.complexity = complexity isBranch n := by
  unfold inner at h
  split at h
  case h_1 =>
    unfold functionFinding at h
    split at h <;> simp_all
  case h_2 | h_3 | h_4 | h_5 => exact absurd (label_of_mem_classFinding h) (by simp)
  case h_6 => exact absurd (label_of_mem_implFinding h) (by simp)
  case h_7 | h_8 => exact absurd (label_of_mem_variableFinding h) (by simp)
  case h_9 | h_10 => exact absurd (label_of_mem_calls h) (by simp)
  all_goals simp [flowFinding] at h

theorem Python.complexity_of_mem_inner (h : .function i ∈ inner source s) : i.complexity = complexity isBranch s.node := by
  unfold inner at h
  dsimp only at h
  split at h
  case h_1 =>
    unfold functionFinding at h
    split at h <;> simp_all
  case h_2 => exact absurd (label_of_mem_classFinding h) (by simp)
  case h_3 => exact absurd (label_of_mem_assignmentFinding h) (by simp)
  case h_4 => exact absurd (label_of_mem_calls h) (by simp)
  all_goals simp [flowFinding] at h

theorem Script.complexity_of_mem_declaratorFindings (h : .function i ∈ declaratorFindings source s) :
    ∃ value, s.node.child? "value" = some value ∧ i.complexity = complexity isBranch value := by
  unfold declaratorFindings at h
  split at h
  · simp at h
  · split at h
    · rename_i value hvalue
      refine ⟨value, (Option.filter_eq_some_iff.1 hvalue).1, ?_⟩
      simp only [functionFinding, List.mem_singleton, Finding.function.injEq] at h
      rw [h]
    · repeat' split at h
      all_goals simp at h

theorem Script.complexity_of_mem_inner (h : .function i ∈ inner source s) :
    i.complexity = complexity isBranch (bodyOf .javaScript s.node) := by
  unfold inner at h
  dsimp only at h
  split at h
  case h_1 hk | h_2 hk | h_3 hk =>
    rw [bodyOf, if_neg (by rw [hk]; decide)]
    simp only [functionFinding, Option.mem_toList, Option.map_eq_some_iff, Finding.function.injEq] at h
    obtain ⟨name, -, rfl⟩ := h
    rfl
  case h_4 hk =>
    obtain ⟨value, hvalue, hi⟩ := complexity_of_mem_declaratorFindings h
    rw [bodyOf, if_pos hk, hvalue, Option.getD_some, hi]
  case h_5 | h_6 | h_7 | h_8 | h_9 => exact absurd (label_of_mem_classFindings h) (by simp)
  case h_10 => exact absurd (label_of_mem_exportFindings h) (by simp)
  case h_11 => exact absurd (label_of_mem_callFindings h) (by simp)
  case h_12 => exact absurd (label_of_mem_calls h) (by simp)
  all_goals simp [flowFinding] at h

/-- **The complexity of a function** is that of its body. -/
theorem complexity_of_mem {language : Language} (h : .function i ∈ (visitorOf language source s).1) :
    isClosed language s.node.kind = false ∧ i.complexity = complexity (isBranchOf language) (bodyOf language s.node) := by
  cases hclosed : isClosed language s.node.kind with
  | true => exact absurd ((visitorOf_closed language source s hclosed).2 _ h) (by simp)
  | false =>
    refine ⟨rfl, ?_⟩
    cases language with
    | rust =>
      rw [visitorOf, Rust.visit_open source hclosed] at h
      rcases List.mem_append.1 h with h | h
      · exact Rust.complexity_of_mem_inner h
      · exact absurd (Rust.label_of_mem_exportFinding h) (by simp)
    | python =>
      rw [visitorOf, Python.visit_open source hclosed] at h
      split at h
      · exact absurd (label_of_mem_commentFinding h) (by simp)
      · exact Python.complexity_of_mem_inner h
    | javaScript | typeScript | tsx =>
      rw [visitorOf, Script.visit_open source hclosed] at h
      exact Script.complexity_of_mem_inner h

/-- What is shown at the body of a function is below the site at which the function is noted. -/
theorem flowsOf_bodyOf_within {language : Language} (hs : isClosed language s.node.kind = false)
    (hbody : bodyOf language s.node = s.node ∨ (bodyOf language s.node).named = true) :
    flowsOf language (bodyOf language s.node) <:+: flowsOf language s.node := by
  by_cases hself : bodyOf language s.node = s.node
  · rw [hself]
  have hmem : bodyOf language s.node ∈ s.node.children :=
    List.mem_of_find?_eq_some ((bodyOf_eq language s.node).resolve_left hself)
  have hinner : bodyOf language s.node ∈ s.inner.map Site.node := by
    rw [Site.map_node_inner]
    exact List.mem_filter.2 ⟨hmem, hbody.resolve_left hself⟩
  obtain ⟨t, ht, hnode⟩ := List.mem_map.1 hinner
  rw [← hnode, ← filterMap_flowOf, ← filterMap_flowOf]
  exact (Site.surface_within_of_mem_inner hs ht).filterMap _

/-- The branches of some sites are those that are listed and those that never are. -/
theorem countP_branches (language : Language) (l : List Site) :
    l.countP (fun t => isBranchOf language t.node.kind) =
      l.countP (fun t => isListed language t.node.kind) + l.countP fun t => isUnlisted language t.node.kind := by
  induction l with
  | nil => rfl
  | cons t l ih =>
    simp only [List.countP_cons, ih, isBranchOf_iff]
    cases hl : isListed language t.node.kind with
    | true => simp [isUnlisted_of_isListed hl]; omega
    | false => simp; omega

theorem length_flowsOf (language : Language) (n : Node) :
    (flowsOf language n).length =
      (Site.surface (isClosed language) { node := n }).countP fun t => isListed language t.node.kind := by
  rw [flowsOf, List.length_filterMap_eq_countP]
  simp only [flowOf, Option.isSome_map, isListed]

/-- **What is counted and not listed.** The complexity of a function is one more than the number of
branches that are listed for nodes of its body, of those that are never listed, and of those that
stand inside an import, a comment or a string of it. So none is missing from the list exactly if
no branch stands there. -/
theorem complexity_recorded (path label : String) (size : ℕ) (language : Language) (source : String) (root : Node) :
    let a := ofTree path label size language source root
    let shown := Site.surface (isClosed language) { node := root }
    a.functions = shown.flatMap (fun s => Finding.functions (visitorOf language source s).1) ∧
      a.controlFlow = flowsOf language root ∧
      ∀ s ∈ shown, ∀ i ∈ Finding.functions (visitorOf language source s).1,
        let body : Site := { node := bodyOf language s.node }
        let listed := flowsOf language body.node
        let unlisted := body.sites.countP fun t => isUnlisted language t.node.kind
        let hidden := body.enclosed (isClosed language)
        (body.node = s.node ∨ body.node.named = true → listed <:+: a.controlFlow) ∧
          i.complexity =
            1 + listed.length + unlisted + hidden.countP (fun t => isListed language t.node.kind) ∧
          (i.complexity = 1 + listed.length + unlisted ↔ ∀ t ∈ hidden, isListed language t.node.kind = false) := by
  have hfunctions : Finding.functions (findings language source root) =
      (Site.surface (isClosed language) { node := root }).flatMap fun s =>
        Finding.functions (visitorOf language source s).1 :=
    filterMap_findings language source root fun f hf => by cases f <;> simp_all
  refine ⟨hfunctions, flows_findings language source root, fun s hs i hi => ?_⟩
  have hmem : Finding.function i ∈ (visitorOf language source s).1 := by
    obtain ⟨f, hf, hfi⟩ := List.mem_filterMap.1 hi
    cases f <;> simp_all
  obtain ⟨hopen, hcomplexity⟩ := complexity_of_mem hmem
  have hcount : i.complexity = 1 + (flowsOf language (bodyOf language s.node)).length +
      (Site.sites { node := bodyOf language s.node }).countP (fun t => isUnlisted language t.node.kind) +
      (Site.enclosed (isClosed language) { node := bodyOf language s.node }).countP
        fun t => isListed language t.node.kind := by
    have hsites := complexity_eq (isBranchOf language) { node := bodyOf language s.node }
    rw [countP_branches, Site.countP_surface (isClosed language)] at hsites
    rw [hcomplexity, length_flowsOf]
    dsimp only at hsites
    omega
  dsimp only
  refine ⟨fun hbody => ?_, hcount, ?_⟩
  · exact ((flowsOf_bodyOf_within hopen hbody).trans (flowsOf_within hs)).trans
      (by rw [← flows_findings language source root]; exact List.infix_rfl)
  · have hzero : (Site.enclosed (isClosed language) { node := bodyOf language s.node }).countP
        (fun t => isListed language t.node.kind) = 0 ↔
        ∀ t ∈ Site.enclosed (isClosed language) { node := bodyOf language s.node },
          isListed language t.node.kind = false := by simp [List.countP_eq_zero]
    rw [← hzero]
    omega

end CodeAtlas.Outline
