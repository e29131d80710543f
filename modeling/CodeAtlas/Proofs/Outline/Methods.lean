import CodeAtlas.Proofs.Outline.Surveys

/-!
# Methods of Rust types

The functions of an `impl` block are methods of the struct or enum that it names. They are added to
the first class of that name, whatever it is.

* `Rust.blocks_findings`: the blocks of a file, in order.
* `Rust.getElem?_attachBlocks`: **what every class gains** from the blocks of a file.
* `Rust.AttachedAsMeant`: all methods go to a struct or enum of their name, and nothing else changes.
* `Rust.attachedAsMeant_iff`: **when they do.**
* `Rust.methods_attached`: what follows for the outline of a file.
-/

namespace CodeAtlas.Outline.Rust

open SyntaxTree

/-! ## Blocks -/

/-- The blocks of methods among some findings: the name of a type, and those of its methods. -/
def blocks (found : List Finding) : List (String × List String) :=
  found.filterMap fun | .methods type names => some (type, names) | _ => none

/-- The name of a type without its arguments. -/
def typeName? (source : String) (type : Node) : Option String :=
  if type.kind == "generic_type" then childText? source type "type" else some (type.text source)

/-- What an `impl` block with a body says: the name of its type, and those of its functions. -/
def implBlock? (source : String) (n : Node) : Option (String × List String) :=
  if n.kind = "impl_item" then
    (n.child? "type").bind fun type => (n.child? "body").bind fun body =>
      (typeName? source type).map fun name => (name, declared source ["function_item"] body)
  else none

variable {source : String} {s : Site} {found l : List Finding}

theorem blocks_append (l m : List Finding) : blocks (l ++ m) = blocks l ++ blocks m := List.filterMap_append

theorem blocks_eq_nil {k : Finding.Label} (hk : k ≠ .methods) (h : ∀ f ∈ l, f.label = k) : blocks l = [] :=
  filterMap_eq_nil_of_label (fun f hf => by cases f <;> simp_all) h

theorem blocks_implFinding (n : Node) (h : n.kind = "impl_item") :
    blocks (implFinding source n) = (implBlock? source n).toList := by
  rw [implBlock?, if_pos h]
  unfold implFinding
  cases n.child? "type" with
  | none => rfl
  | some type =>
    cases n.child? "body" with
    | none => rfl
    | some body =>
      simp only [Option.bind_some]
      rw [← typeName?]
      cases typeName? source type <;> rfl

theorem blocks_inner (n : Node) : blocks (inner source n) = (implBlock? source n).toList := by
  by_cases h : n.kind = "impl_item"
  · rw [← blocks_implFinding n h]
    simp only [inner, h]
  rw [implBlock?, if_neg h]
  unfold inner
  split
  case h_1 => exact blocks_eq_nil (by decide) fun f hf => label_of_mem_functionFinding hf
  case h_2 | h_3 | h_4 | h_5 => exact blocks_eq_nil (by decide) fun f hf => label_of_mem_classFinding hf
  case h_6 hk => exact absurd hk h
  case h_7 | h_8 => exact blocks_eq_nil (by decide) fun f hf => label_of_mem_variableFinding hf
  case h_9 | h_10 => exact blocks_eq_nil (by decide) fun f hf => label_of_mem_calls hf
  all_goals rfl

theorem blocks_visit (s : Site) : blocks (visit source s).1 = (implBlock? source s.node).toList := by
  cases hclosed : isClosed .rust s.node.kind with
  | false =>
    rw [visit_open source hclosed, blocks_append, blocks_inner,
      blocks_eq_nil (by decide) fun f hf => label_of_mem_exportFinding hf, List.append_nil]
  | true =>
    have hkind : s.node.kind ≠ "impl_item" := fun h => absurd (h ▸ hclosed) (by decide)
    rw [implBlock?, if_neg hkind]
    refine List.filterMap_eq_nil_iff.2 fun f hf => ?_
    have := (visit_closed source hclosed).2 f hf
    cases f <;> simp_all

/-- **The blocks of a file** are those of the `impl` blocks in its tree, in order. -/
theorem blocks_findings (source : String) (root : Node) :
    blocks (findings .rust source root) =
      (Site.surface (isClosed .rust) { node := root }).filterMap fun s => implBlock? source s.node := by
  have hsurface : blocks (findings .rust source root) =
      (Site.surface (isClosed .rust) { node := root }).flatMap fun s => blocks (visit source s).1 :=
    filterMap_findings .rust source root fun f hf => by cases f <;> simp_all
  simp only [hsurface, blocks_visit]
  exact (List.filterMap_eq_flatMap_toList _ _).symm

/-! ## What a class gains -/

variable {bs : List (String × List String)} {classes : List ClassInfo}

/-- All methods of the blocks of one name, in order. -/
def given (bs : List (String × List String)) (name : String) : List String :=
  (bs.filter (·.1 == name)).flatMap (·.2)

/-- Adds the methods of some blocks, one block after the other. -/
def attachBlocks (bs : List (String × List String)) (classes : List ClassInfo) : List ClassInfo :=
  bs.foldl (fun classes b => addMethods b.1 b.2 classes) classes

theorem attach_eq (found : List Finding) (classes : List ClassInfo) :
    attach found classes = attachBlocks (blocks found) classes := by
  unfold attach attachBlocks blocks
  induction found generalizing classes with
  | nil => rfl
  | cons f found ih => cases f <;> exact ih _

theorem map_name_addMethods (type : String) (names : List String) (classes : List ClassInfo) :
    (addMethods type names classes).map (·.name) = classes.map (·.name) := by
  induction classes with
  | nil => rfl
  | cons c cs ih =>
    unfold addMethods
    split
    · rfl
    · rw [List.map_cons, List.map_cons, ih]

/-- **One block adds its methods to the first class of its name.** -/
theorem getElem?_addMethods (type : String) (names : List String) (classes : List ClassInfo) (i : ℕ) :
    (addMethods type names classes)[i]? = classes[i]?.map fun c =>
      if c.name = type ∧ type ∉ (classes.take i).map (·.name) then { c with methods := c.methods ++ names } else c := by
  induction classes generalizing i with
  | nil => rfl
  | cons c cs ih =>
    unfold addMethods
    by_cases hc : c.name = type
    · rw [if_pos hc]
      cases i with
      | zero => simp [hc]
      | succ i => simp [hc]
    · rw [if_neg hc]
      cases i with
      | zero => simp [hc]
      | succ i =>
        rw [List.getElem?_cons_succ, List.getElem?_cons_succ, ih i, List.take_succ_cons]
        simp [Ne.symm hc]

theorem given_cons (b : String × List String) (bs : List (String × List String)) (name : String) :
    given (b :: bs) name = (if name = b.1 then b.2 else []) ++ given bs name := by
  unfold given
  by_cases h : name = b.1
  · rw [List.filter_cons_of_pos (by simp [h]), List.flatMap_cons, if_pos h]
  · rw [List.filter_cons_of_neg (by simpa using Ne.symm h), if_neg h, List.nil_append]

/-- **What every class gains**: the first class of a name all methods of the blocks of that name, in order and once,
and every other class nothing. -/
theorem getElem?_attachBlocks (bs : List (String × List String)) (classes : List ClassInfo) (i : ℕ) :
    (attachBlocks bs classes)[i]? = classes[i]?.map fun c =>
      if c.name ∈ (classes.take i).map (·.name) then c else { c with methods := c.methods ++ given bs c.name } := by
  -- no block changes a name, so what is first of its name stays first
  induction bs generalizing classes with
  | nil =>
    have hsame : ∀ c : ClassInfo, { c with methods := c.methods ++ given [] c.name } = c := fun c => by simp [given]
    simp only [attachBlocks, List.foldl_nil, hsame, ite_self, Option.map_id']
  | cons b bs ih =>
    have hstep : attachBlocks (b :: bs) classes = attachBlocks bs (addMethods b.1 b.2 classes) := rfl
    have hnames : ((addMethods b.1 b.2 classes).take i).map (·.name) = (classes.take i).map (·.name) := by
      rw [List.map_take, map_name_addMethods, List.map_take]
    rw [hstep, ih, getElem?_addMethods, Option.map_map, hnames]
    refine congrArg (fun g => classes[i]?.map g) (funext fun c => ?_)
    simp only [Function.comp_apply, given_cons]
    by_cases hearlier : c.name ∈ (classes.take i).map (·.name)
    · have hnot : ¬(c.name = b.1 ∧ b.1 ∉ (classes.take i).map (·.name)) := fun h => h.2 (h.1 ▸ hearlier)
      rw [if_neg hnot, if_pos hearlier, if_pos hearlier]
    · by_cases hname : c.name = b.1
      · have hfirst : c.name = b.1 ∧ b.1 ∉ (classes.take i).map (·.name) := ⟨hname, hname ▸ hearlier⟩
        rw [if_pos hfirst, if_neg hearlier, if_neg hearlier, if_pos hname, List.append_assoc]
      · have hnot : ¬(c.name = b.1 ∧ b.1 ∉ (classes.take i).map (·.name)) := fun h => hname h.1
        rw [if_neg hnot, if_neg hearlier, if_neg hearlier, if_neg hname, List.nil_append]

/-! ## Where that is as it is meant -/

/-- The classes that `impl` blocks are meant for. -/
def isOwner (c : ClassInfo) : Bool := c.kind == .struct || c.kind == .enum

/-- All methods of a struct or enum go to it, or to one of those that share its name. Nothing else changes: no other
class gains anything, in particular no trait and no alias, and no block of an undeclared type adds anything. -/
structure AttachedAsMeant (bs : List (String × List String)) (before after : List ClassInfo) : Prop where
  /-- Methods apart, the classes are the same. -/
  same : after.map (fun c => { c with methods := [] }) = before.map fun c => { c with methods := [] }
  /-- Every other sort of class keeps its methods. -/
  kept : ∀ (i : ℕ) c, before[i]? = some c → isOwner c = false → after[i]? = some c
  /-- Of the structs and enums of a name, one gains all methods of its blocks, in order, and the others keep theirs. -/
  gained : ∀ name, (∃ c ∈ before, c.name = name ∧ isOwner c = true) →
    ∃ (i : ℕ) (c : ClassInfo), before[i]? = some c ∧ c.name = name ∧ isOwner c = true ∧
      after[i]? = some { c with methods := c.methods ++ given bs name } ∧
      ∀ (j : ℕ) d, j ≠ i → before[j]? = some d → d.name = name → after[j]? = some d

theorem given_eq_nil {name : String} (h : ∀ b ∈ bs, b.2 ≠ [] → b.1 ≠ name) : given bs name = [] := by
  refine List.flatMap_eq_nil_iff.2 fun b hb => ?_
  obtain ⟨hb, hname⟩ := List.mem_filter.1 hb
  by_contra hne
  exact h b hb hne (by simpa using hname)

theorem given_ne_nil {b : String × List String} (hb : b ∈ bs) (hne : b.2 ≠ []) : given bs b.1 ≠ [] := fun h =>
  hne (List.flatMap_eq_nil_iff.1 h b (List.mem_filter.2 ⟨hb, by simp⟩))

/-- The first class of a name, and its place. -/
theorem exists_first {name : String} (h : ∃ c ∈ classes, c.name = name) :
    ∃ (i : ℕ) (c : ClassInfo), classes[i]? = some c ∧ c.name = name ∧ name ∉ (classes.take i).map (·.name) ∧
      classes.find? (·.name == name) = some c := by
  obtain ⟨d, hd, hname⟩ := h
  have hsome : (classes.find? (·.name == name)).isSome = true := List.find?_isSome.2 ⟨d, hd, beq_iff_eq.2 hname⟩
  obtain ⟨c, hc⟩ := Option.isSome_iff_exists.1 hsome
  obtain ⟨hcname, i, hi, hget, hbefore⟩ := List.find?_eq_some_iff_getElem.1 hc
  refine ⟨i, c, by rw [List.getElem?_eq_getElem hi, hget], by simpa using hcname, ?_, hc⟩
  intro hmem
  obtain ⟨e, he, hename⟩ := List.mem_map.1 hmem
  obtain ⟨j, hj, rfl⟩ := List.mem_take_iff_getElem.1 he
  have := hbefore j (by omega)
  simp [hename] at this

/-- A class without another of its name before it is found by its name. -/
theorem find?_of_first {i : ℕ} {c : ClassInfo} (hc : classes[i]? = some c)
    (hfirst : c.name ∉ (classes.take i).map (·.name)) : classes.find? (·.name == c.name) = some c := by
  obtain ⟨hi, rfl⟩ := List.getElem?_eq_some_iff.1 hc
  refine List.find?_eq_some_iff_getElem.2 ⟨beq_self_eq_true _, i, hi, rfl, fun j hj => ?_⟩
  rw [Bool.not_eq_true', beq_eq_false_iff_ne]
  exact fun hname => hfirst (List.mem_map.2 ⟨_, List.mem_take_iff_getElem.2 ⟨j, by omega, rfl⟩, hname⟩)

/-- Every other class of its name comes later. -/
theorem mem_take_of_first {i j : ℕ} {c d : ClassInfo} (hc : classes[i]? = some c)
    (hfirst : c.name ∉ (classes.take i).map (·.name)) (hd : classes[j]? = some d) (hname : d.name = c.name) (hne : j ≠ i) :
    c.name ∈ (classes.take j).map (·.name) := by
  obtain ⟨hi, rfl⟩ := List.getElem?_eq_some_iff.1 hc
  obtain ⟨hj, rfl⟩ := List.getElem?_eq_some_iff.1 hd
  rcases lt_or_gt_of_ne hne with hlt | hgt
  · exact absurd (List.mem_map.2 ⟨_, List.mem_take_iff_getElem.2 ⟨j, by omega, rfl⟩, hname⟩) hfirst
  · exact List.mem_map.2 ⟨_, List.mem_take_iff_getElem.2 ⟨i, by omega, rfl⟩, rfl⟩

/-- A class that comes after another of its name gains nothing. -/
theorem getElem?_attachBlocks_of_later {i : ℕ} {c : ClassInfo} (hc : classes[i]? = some c)
    (hlater : c.name ∈ (classes.take i).map (·.name)) : (attachBlocks bs classes)[i]? = some c := by
  rw [getElem?_attachBlocks, hc, Option.map_some, if_pos hlater]

/-- The first class of a name gains all methods of its blocks. -/
theorem getElem?_attachBlocks_of_first {i : ℕ} {c : ClassInfo} (hc : classes[i]? = some c)
    (hfirst : c.name ∉ (classes.take i).map (·.name)) :
    (attachBlocks bs classes)[i]? = some { c with methods := c.methods ++ given bs c.name } := by
  rw [getElem?_attachBlocks, hc, Option.map_some, if_neg hfirst]

/-- A class of whose name there is no method keeps what it has. -/
theorem getElem?_attachBlocks_of_given {i : ℕ} {c : ClassInfo} (hc : classes[i]? = some c)
    (hnone : given bs c.name = []) : (attachBlocks bs classes)[i]? = some c := by
  by_cases hlater : c.name ∈ (classes.take i).map (·.name)
  · exact getElem?_attachBlocks_of_later hc hlater
  · rw [getElem?_attachBlocks_of_first hc hlater, hnone, List.append_nil]

/-- Methods apart, no class changes. -/
theorem map_attachBlocks (bs : List (String × List String)) (classes : List ClassInfo) :
    (attachBlocks bs classes).map (fun c => { c with methods := [] }) =
      classes.map fun c => { c with methods := [] } := by
  refine List.ext_getElem? fun i => ?_
  rw [List.getElem?_map, List.getElem?_map, getElem?_attachBlocks, Option.map_map]
  refine congrArg (fun g => classes[i]?.map g) (funext fun c => ?_)
  simp only [Function.comp_apply]
  split <;> rfl

/-- **All methods go where they are meant to go** exactly if no block of methods has the name of a class that is first of
its name and no struct or enum. -/
theorem attachedAsMeant_iff :
    AttachedAsMeant bs classes (attachBlocks bs classes) ↔
      ∀ b ∈ bs, b.2 ≠ [] → ∀ c, classes.find? (·.name == b.1) = some c → isOwner c = true := by
  constructor
  · intro hmeant b hb hne c hc
    have hname : c.name = b.1 := by simpa using List.find?_some hc
    obtain ⟨i, d, hd, hdname, hfirst, hfound⟩ := exists_first ⟨c, List.mem_of_find?_eq_some hc, hname⟩
    obtain rfl : c = d := Option.some.inj (hc.symm.trans hfound)
    -- otherwise it would keep its methods
    by_contra hother
    have hkept := hmeant.kept i c hd (by simpa using hother)
    rw [getElem?_attachBlocks_of_first hd (hname ▸ hfirst)] at hkept
    have hmethods := congrArg ClassInfo.methods (Option.some.inj hkept)
    rw [hname] at hmethods
    exact given_ne_nil hb hne (by simpa using hmethods)
  · intro howner
    -- where the first class of a name is no struct or enum, there is nothing to gain
    have hnone : ∀ name c, classes.find? (·.name == name) = some c → isOwner c = false → given bs name = [] := by
      intro name c hc hother
      refine given_eq_nil fun b hb hne hbname => ?_
      have := howner b hb hne c (hbname ▸ hc)
      simp [this] at hother
    refine ⟨map_attachBlocks bs classes, fun i c hc hother => ?_, fun name hname => ?_⟩
    · by_cases hlater : c.name ∈ (classes.take i).map (·.name)
      · exact getElem?_attachBlocks_of_later hc hlater
      · exact getElem?_attachBlocks_of_given hc (hnone c.name c (find?_of_first hc hlater) hother)
    · obtain ⟨o, ho, honame, howns⟩ := hname
      obtain ⟨i, c, hc, hcname, hfirst, hfound⟩ := exists_first ⟨o, ho, honame⟩
      cases hcowns : isOwner c with
      | true =>
        refine ⟨i, c, hc, hcname, hcowns, ?_, fun j d hj hd hdname => getElem?_attachBlocks_of_later hd ?_⟩
        · rw [getElem?_attachBlocks_of_first hc (hcname ▸ hfirst), hcname]
        · rw [hdname, ← hcname]
          exact mem_take_of_first hc (hcname ▸ hfirst) hd (hdname.trans hcname.symm) hj
      | false =>
        -- there is nothing to gain, so any of them will do
        have hgiven := hnone name c hfound hcowns
        obtain ⟨j, hj⟩ := List.getElem?_of_mem ho
        refine ⟨j, o, hj, honame, howns, ?_, fun k d _ hd hdname => getElem?_attachBlocks_of_given hd (hdname ▸ hgiven)⟩
        rw [getElem?_attachBlocks_of_given hj (honame ▸ hgiven), hgiven, List.append_nil]

/-- The outline of a tree before the blocks add anything. -/
def declaredOutline (path label : String) (size : ℕ) (source : String) (root : Node) : Artifact :=
  let found := findings .rust source root
  { path, language := label, size, parseSuccess := true
    functions := Finding.functions found
    classes := Finding.classes found
    imports := Finding.imports found
    exports := Finding.exports found
    bindings := Finding.bindings found
    comments := Finding.comments found
    calls := Finding.calls found
    controlFlow := Finding.flows found
    literals := Finding.literals found
    dependencies := firstOnes []
      (((Finding.imports found).map fun i => dependencyName .rust i.source).filter (· ≠ "")) }

/-- The blocks change the classes and no other list. -/
theorem ofTree_eq (path label : String) (size : ℕ) (source : String) (root : Node) :
    let before := declaredOutline path label size source root
    ofTree path label size .rust source root =
      { before with classes := attachBlocks (blocks (findings .rust source root)) before.classes } := by
  dsimp only [ofTree, declaredOutline]
  rw [attach_eq, if_neg (by decide), List.append_nil]

/-- **The methods of a file.** The first class of a name gains the functions of all `impl` blocks that name it,
in order and once, and nothing else in the outline changes. All methods go to structs and enums of their names
exactly if no block with functions names a type of which the first class is something else. -/
theorem methods_attached (path label : String) (size : ℕ) (source : String) (root : Node) :
    let before := declaredOutline path label size source root
    let after := ofTree path label size .rust source root
    let bs := (Site.surface (isClosed .rust) { node := root }).filterMap fun s => implBlock? source s.node
    after = { before with classes := after.classes } ∧
      (∀ i : ℕ, after.classes[i]? = before.classes[i]?.map fun c =>
        if c.name ∈ (before.classes.take i).map (·.name) then c
        else { c with methods := c.methods ++ given bs c.name }) ∧
      (AttachedAsMeant bs before.classes after.classes ↔
        ∀ b ∈ bs, b.2 ≠ [] → ∀ c, before.classes.find? (·.name == b.1) = some c → isOwner c = true) := by
  dsimp only
  rw [ofTree_eq, blocks_findings]
  exact ⟨rfl, getElem?_attachBlocks _ _, attachedAsMeant_iff⟩

end CodeAtlas.Outline.Rust
