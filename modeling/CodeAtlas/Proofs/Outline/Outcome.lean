import CodeAtlas.Outline.Extract
import CodeAtlas.Proofs.Decimal.Shares
import CodeAtlas.Proofs.FirstOccurrences
import CodeAtlas.Proofs.SyntaxTree.Census

/-!
# What comes of a text

A text is outlined or it is not, and whatever its tree is, something is said about it: where it
stands, its label and its length. Five conditions decide, and only a text that meets them all
has anything in its outline.

* `Readable`: the five conditions.
* `withinThreshold_iff`: **the share of errors**, which is compared as a float.
* `tryOutline_eq_ok_iff`, `outlineWith_cases`: when there is an outline, and which.
* `firstOnes_eq`: each member of a list at its first place.
* `outline_outcome`: **what comes of every text.**
-/

namespace CodeAtlas.Outline

open SyntaxTree

/-! ## The five conditions -/

/-- At most thirty percent of the nodes of a tree are errors, as a float tells. -/
def WithinThreshold (root : Node) : Prop := ¬errorThreshold < Float.ofNat root.errors / Float.ofNat root.size

/-- **The share of errors is at most thirty percent** as a float just if it is as a number, in every tree that is not
too large to be counted. -/
theorem withinThreshold_iff {root : Node} (h : 3 * root.size ≤ 2 ^ 54) :
    WithinThreshold root ↔ 10 * root.errors ≤ 3 * root.size := by
  unfold WithinThreshold errorThreshold
  rw [Decimal.threeTenths_lt_div_iff root.size_pos root.errors_le_size h, not_lt]

/-- **What it takes to be outlined**: a grammar for the label of the path, a text of at most 512000 bytes, and a tree
that is at most 1024 levels deep and within the threshold of errors. -/
structure Readable (read : Language → String → Option Node) (path content : String) (language : Language)
    (root : Node) : Prop where
  grammar : Language.ofLabel? (labelOfPath path) = some language
  short : content.utf8ByteSize ≤ 512000
  tree : read language content = some root
  shallow : root.height ≤ 1024
  sound : WithinThreshold root

/-- An outline without any element. -/
structure Artifact.IsBare (a : Artifact) : Prop where
  functions : a.functions = []
  classes : a.classes = []
  imports : a.imports = []
  exports : a.exports = []
  bindings : a.bindings = []
  comments : a.comments = []
  calls : a.calls = []
  controlFlow : a.controlFlow = []
  literals : a.literals = []
  dependencies : a.dependencies = []

variable {read : Language → String → Option Node} {path content : String} {a : Artifact}

/-- **A text is outlined just if it meets the five conditions**, and then as its tree is. -/
theorem tryOutline_eq_ok_iff :
    tryOutline read path (labelOfPath path) content = .ok a ↔
      ∃ language root, Readable read path content language root ∧
        a = ofTree path (labelOfPath path) content.utf8ByteSize language content root := by
  constructor
  · intro h
    unfold tryOutline at h
    -- each condition that is not met ends in a refusal
    split at h
    · cases h
    rename_i language hgrammar
    dsimp only at h
    split at h
    · cases h
    rename_i hshort
    split at h
    · cases h
    rename_i root htree
    rw [Census.collect_eq] at h
    split at h
    · cases h
    rename_i hshallow
    split at h
    · cases h
    rename_i hsound
    exact ⟨language, root, ⟨hgrammar, not_lt.1 hshort, htree, not_lt.1 hshallow, hsound⟩, (Except.ok.inj h).symm⟩
  · rintro ⟨language, root, hreadable, rfl⟩
    unfold tryOutline
    have hshort : ¬maxFileBytes < content.utf8ByteSize := not_lt.2 hreadable.short
    have hshallow : ¬maxNesting < root.height := not_lt.2 hreadable.shallow
    have hsound : ¬errorThreshold < Float.ofNat root.errors / Float.ofNat root.size := hreadable.sound
    simp only [hreadable.grammar, hreadable.tree, Census.collect_eq, if_neg hshort, if_neg hshallow, if_neg hsound]

/-- **There is an outline of a tree, or a degraded one.** -/
theorem outlineWith_cases (read : Language → String → Option Node) (path content : String) :
    (∃ language root, Readable read path content language root ∧
      outlineWith read path content = ofTree path (labelOfPath path) content.utf8ByteSize language content root) ∨
    ((∀ language root, ¬Readable read path content language root) ∧
      outlineWith read path content = Artifact.degraded path (labelOfPath path) content) := by
  unfold outlineWith
  dsimp only
  cases htry : tryOutline read path (labelOfPath path) content with
  | ok a =>
    obtain ⟨language, root, hreadable, rfl⟩ := tryOutline_eq_ok_iff.1 htry
    exact Or.inl ⟨language, root, hreadable, rfl⟩
  | error e =>
    refine Or.inr ⟨fun language root hreadable => ?_, rfl⟩
    rw [tryOutline_eq_ok_iff.2 ⟨language, root, hreadable, rfl⟩] at htry
    cases htry

/-! ## Dependencies -/

/-- The members seen so far are the first occurrences of what was gone through, last first. -/
theorem firstOnes_eraseDups (l m : List String) : firstOnes l.eraseDups.reverse m = (l ++ m).eraseDups := by
  induction m generalizing l with
  | nil => rw [firstOnes, List.reverse_reverse, List.append_nil]
  | cons x m ih =>
    have hcontains : l.eraseDups.reverse.contains x = true ↔ x ∈ l := by simp [List.mem_eraseDups]
    rw [firstOnes]
    by_cases hx : x ∈ l
    · rw [if_pos (hcontains.2 hx), ih, eraseDups_insert_of_mem hx]
    · have hseen : x :: l.eraseDups.reverse = (l ++ [x]).eraseDups.reverse := by
        rw [eraseDups_concat_of_notMem hx, List.reverse_concat]
      rw [if_neg fun h => hx (hcontains.1 h), hseen, ih, List.append_assoc, List.singleton_append]

/-- **Each member of a list at its first place.** -/
theorem firstOnes_eq (l : List String) : firstOnes [] l = l.eraseDups := by
  simpa using firstOnes_eraseDups [] l

/-! ## Every text -/

/-- What an outline says of a text in either case. -/
theorem header_eq (path label content : String) (language : Language) (root : Node) :
    let parsed := ofTree path label content.utf8ByteSize language content root
    let degraded := Artifact.degraded path label content
    (parsed.path = path ∧ parsed.language = label ∧ parsed.size = content.utf8ByteSize ∧
      parsed.parseSuccess = true) ∧
      degraded.path = path ∧ degraded.language = label ∧ degraded.size = content.utf8ByteSize ∧
      degraded.parseSuccess = false :=
  ⟨⟨rfl, rfl, rfl, rfl⟩, rfl, rfl, rfl, rfl⟩

theorem isBare_degraded (path label content : String) : (Artifact.degraded path label content).IsBare :=
  ⟨rfl, rfl, rfl, rfl, rfl, rfl, rfl, rfl, rfl, rfl⟩

/-- **What comes of every text**, whatever tree is read from it or none. The outline has its path, the label of the path
and its length in bytes. It is that of a parsed text just if the five conditions are met, of which the last says that
at most thirty percent of all nodes are errors: a float tells so without mistake in every tree of up to `2 ^ 54 / 3`
nodes. Where they are not met, nothing is in the outline. Where they are, the dependencies are what the imports refer
to, without empty names and each at its first place. -/
theorem outline_outcome (read : Language → String → Option Node) (path content : String) :
    let a := outlineWith read path content
    (a.path = path ∧ a.language = labelOfPath path ∧ a.size = content.utf8ByteSize) ∧
      (a.parseSuccess = true ↔ ∃ language root, Readable read path content language root) ∧
      (∀ root : Node, 3 * root.size ≤ 2 ^ 54 → (WithinThreshold root ↔ 10 * root.errors ≤ 3 * root.size)) ∧
      (a.parseSuccess = false → a.IsBare) ∧
      (a.parseSuccess = true → ∃ language, Language.ofLabel? (labelOfPath path) = some language ∧
        a.dependencies = ((a.imports.map fun i => dependencyName language i.source).filter (· ≠ "")).eraseDups) := by
  intro a
  have hshare (root : Node) (h : 3 * root.size ≤ 2 ^ 54) := withinThreshold_iff h
  have hcases := outlineWith_cases read path content
  change (∃ language root, _ ∧ a = _) ∨ _ ∧ a = _ at hcases
  clear_value a
  rcases hcases with ⟨language, root, hreadable, rfl⟩ | ⟨hnot, rfl⟩
  · obtain ⟨hpath, hlabel, hsize, hparsed⟩ := (header_eq path (labelOfPath path) content language root).1
    exact ⟨⟨hpath, hlabel, hsize⟩, iff_of_true hparsed ⟨language, root, hreadable⟩, hshare,
      fun h => absurd (h.symm.trans hparsed) Bool.false_ne_true,
      fun _ => ⟨language, hreadable.grammar, firstOnes_eq _⟩⟩
  · obtain ⟨hpath, hlabel, hsize, hparsed⟩ := (header_eq path (labelOfPath path) content .rust default).2
    have hnone : ¬∃ language root, Readable read path content language root := fun ⟨_, _, h⟩ => hnot _ _ h
    exact ⟨⟨hpath, hlabel, hsize⟩, iff_of_false (hparsed ▸ Bool.false_ne_true) hnone, hshare,
      fun _ => isBare_degraded .., fun h => absurd (hparsed.symm.trans h) Bool.false_ne_true⟩

end CodeAtlas.Outline
