import CodeAtlas.Proofs.Analysis.Isolation
import CodeAtlas.Proofs.Host.Selection
import CodeAtlas.Proofs.Profile.Written
import Mathlib.Algebra.Ring.Nat

/-!
# What is counted

A file is selected, outlined and counted by its path. The three do so by tables of their own, and
agree.

* `isSourceFile_iff`, `isCodeLabel_of_isSourceFile`: **what is selected as source has the label of
  program source.**
* `Sorted.Tallies`: how often texts occur in a list, which every further text keeps.
* `Outline.IsOf`: what every outline has of its file, parsed or not.
* `Agree`: **outlines and numbers agree with the files**, for every list of files.
* `source_counted`: what follows for the files of an analysis.
-/

namespace CodeAtlas

/-! ## Extensions -/

/-- The name of a file is what follows the last slash. -/
theorem fileName_spec (path : String) :
    '/' ∉ (fileName path).toList ∧
      (path = fileName path ∨ ∃ directory, path.toList = directory ++ '/' :: (fileName path).toList) := by
  cases hcut : Text.cutLast? ['/'] path.toList with
  | none =>
    have hname : fileName path = path := by simp [fileName, Text.splitLast?, hcut]
    rw [hname]
    exact ⟨Text.cutLast?_eq_none_iff.1 hcut, Or.inl rfl⟩
  | some p =>
    have hname : fileName path = String.ofList p.2 := by simp [fileName, Text.splitLast?, hcut]
    obtain ⟨hs, hp⟩ := Text.cutLast?_eq_some_iff.1 (show Text.cutLast? ['/'] path.toList = some (p.1, p.2) from hcut)
    rw [hname, String.toList_ofList]
    exact ⟨hp, Or.inr ⟨p.1, hs⟩⟩

/-- **The extension of a path** is what follows its last dot, if no slash does. -/
theorem extension?_eq_some_iff {path e : String} :
    extension? path = some e ↔
      ∃ front tail, path.toList = front ++ '.' :: tail ∧ '.' ∉ tail ∧ '/' ∉ tail ∧
        e = Text.lower (String.ofList tail) := by
  have hext : extension? path = some e ↔ ∃ stem tail, (fileName path).toList = stem ++ '.' :: tail ∧ '.' ∉ tail ∧
      e = Text.lower (String.ofList tail) := by
    simp only [extension?, Text.splitLast?, Option.map_map, Option.map_eq_some_iff, Prod.exists, Function.comp_apply]
    refine exists_congr fun stem => exists_congr fun tail => ?_
    rw [show ".".toList = ['.'] from rfl, Text.cutLast?_eq_some_iff, and_assoc, eq_comm (a := e)]
  rw [hext]
  obtain ⟨hslash, hpath | ⟨directory, hpath⟩⟩ := fileName_spec path
  · rw [← hpath] at hslash ⊢
    refine exists_congr fun stem => exists_congr fun tail => ?_
    constructor
    · rintro ⟨hs, hdot, he⟩
      refine ⟨hs, hdot, fun h => hslash ?_, he⟩
      rw [hs]
      simp [h]
    · rintro ⟨hs, hdot, -, he⟩
      exact ⟨hs, hdot, he⟩
  · rw [hpath]
    constructor
    · rintro ⟨stem, tail, hs, hdot, he⟩
      refine ⟨directory ++ '/' :: stem, tail, by simp [hs], hdot, fun h => hslash ?_, he⟩
      rw [hs]
      simp [h]
    · rintro ⟨front, tail, hs, hdot, hnone, he⟩
      -- the last slash stands before the dot
      rcases List.append_eq_append_iff.1 hs with ⟨mid, rfl, hmid⟩ | ⟨mid, rfl, hmid⟩
      · cases mid with
        | nil => simp at hmid
        | cons c mid =>
          obtain ⟨-, hmid⟩ := List.cons.inj hmid
          exact ⟨mid, tail, hmid, hdot, he⟩
      · cases mid with
        | nil => simp at hmid
        | cons c mid =>
          obtain ⟨-, rfl⟩ := List.cons.inj hmid
          exact absurd (by simp) hnone

/-- Every extension of source has the label of program source. -/
theorem isCodeLabel_of_sourceExtension : ∀ e ∈ Selection.sourceExtensions, isCodeLabel (labelOfExtension e) = true := by
  decide

/-- **A source file is one with an extension of source**, in any letter case. -/
theorem isSourceFile_iff {path : String} :
    Selection.isSourceFile path = true ↔
      ∃ front tail, path.toList = front ++ '.' :: tail ∧ '.' ∉ tail ∧ '/' ∉ tail ∧
        Text.lower (String.ofList tail) ∈ Selection.sourceExtensions := by
  have hsome : Selection.isSourceFile path = true ↔ ∃ e, extension? path = some e ∧ e ∈ Selection.sourceExtensions := by
    unfold Selection.isSourceFile
    cases extension? path with
    | none => simp
    | some e => simp
  rw [hsome]
  simp only [extension?_eq_some_iff]
  constructor
  · rintro ⟨e, ⟨front, tail, hs, hdot, hslash, rfl⟩, he⟩
    exact ⟨front, tail, hs, hdot, hslash, he⟩
  · rintro ⟨front, tail, hs, hdot, hslash, he⟩
    exact ⟨_, ⟨front, tail, hs, hdot, hslash, rfl⟩, he⟩

/-- **What is selected as source has the label of program source.** -/
theorem isCodeLabel_of_isSourceFile {path : String} (h : Selection.isSourceFile path = true) :
    isCodeLabel (labelOfPath path) = true := by
  obtain ⟨front, tail, hs, hdot, hslash, he⟩ := isSourceFile_iff.1 h
  have hext : extension? path = some (Text.lower (String.ofList tail)) :=
    extension?_eq_some_iff.2 ⟨front, tail, hs, hdot, hslash, rfl⟩
  rw [labelOfPath, hext, Option.getD_some]
  exact isCodeLabel_of_sourceExtension _ he

/-! ## Counting -/

namespace Sorted

variable {α : Type} {j k : String} {a : α} {l : List (String × α)} {texts : List String} {counts : List (String × ℕ)}

theorem get?_cons (j : String) (p : String × α) (l : List (String × α)) :
    get? j (p :: l) = if p.1 = j then some p.2 else get? j l := by
  unfold get?
  by_cases h : p.1 = j
  · rw [List.find?_cons_of_pos (by simpa using h), if_pos h]
    rfl
  · rw [List.find?_cons_of_neg (by simpa using h), if_neg h]

/-- A value that is put under a text is found there, and the others where they were. -/
theorem get?_put (j k : String) (a : α) (l : List (String × α)) :
    get? j (put k a l) = if k = j then some a else get? j l := by
  induction l with
  | nil => rw [put, get?_cons]
  | cons p l ih =>
    obtain ⟨i, b⟩ := p
    unfold put
    by_cases hlt : k < i
    · rw [if_pos hlt, get?_cons]
    rw [if_neg hlt]
    by_cases hki : k = i
    · subst hki
      rw [if_pos rfl, get?_cons, get?_cons]
      split_ifs <;> rfl
    · rw [if_neg hki, get?_cons, get?_cons, ih]
      by_cases hij : i = j
      · rw [if_pos hij, if_pos hij, if_neg fun h => hki (h.trans hij.symm)]
      · rw [if_neg hij, if_neg hij]

theorem mem_put {p : String × α} (h : p ∈ put k a l) : p = (k, a) ∨ p ∈ l := by
  induction l with
  | nil => exact Or.inl (List.mem_singleton.1 h)
  | cons q l ih =>
    unfold put at h
    split_ifs at h
    · exact (List.mem_cons.1 h)
    · exact (List.mem_cons.1 h).imp_right (List.mem_cons_of_mem q)
    · rcases List.mem_cons.1 h with rfl | h
      · exact Or.inr List.mem_cons_self
      · exact (ih h).imp_right (List.mem_cons_of_mem q)

theorem lt_of_not_lt (h : ¬j < k) (hne : j ≠ k) : k < j := by
  by_contra hnot
  exact hne (String.le_antisymm (String.not_lt.1 hnot) (String.not_lt.1 h))

theorem pairwise_put (h : l.Pairwise fun p q => p.1 < q.1) (k : String) (a : α) :
    (put k a l).Pairwise fun p q => p.1 < q.1 := by
  induction l with
  | nil => exact List.pairwise_singleton _ _
  | cons p l ih =>
    obtain ⟨hp, hl⟩ := List.pairwise_cons.1 h
    unfold put
    split_ifs with hlt heq
    · refine List.pairwise_cons.2 ⟨fun q hq => ?_, h⟩
      rcases List.mem_cons.1 hq with rfl | hq
      · exact hlt
      · exact String.lt_trans hlt (hp q hq)
    · subst heq
      exact List.pairwise_cons.2 ⟨hp, hl⟩
    · refine List.pairwise_cons.2 ⟨fun q hq => ?_, ih hl⟩
      rcases mem_put hq with rfl | hq
      · exact lt_of_not_lt hlt heq
      · exact hp q hq

/-- A text that comes before all others is not among them. -/
theorem get?_eq_none_of_lt (h : ∀ p ∈ l, k < p.1) : get? k l = none := by
  unfold get?
  rw [Option.map_eq_none_iff, List.find?_eq_none]
  intro p hp heq
  exact String.lt_irrefl k (eq_of_beq heq ▸ h p hp)

/-- **The total of numbers under texts** changes by the one that is replaced. -/
theorem sum_put {l : List (String × ℕ)} (h : l.Pairwise fun p q => p.1 < q.1) (k : String) (n : ℕ) :
    ((put k n l).map (·.2)).sum + (get? k l).getD 0 = (l.map (·.2)).sum + n := by
  induction l with
  | nil => simp [put, get?]
  | cons p l ih =>
    obtain ⟨i, m⟩ := p
    obtain ⟨hp, hl⟩ := List.pairwise_cons.1 h
    unfold put
    by_cases hlt : k < i
    · have hnone : get? k ((i, m) :: l) = none := by
        apply get?_eq_none_of_lt
        intro q hq
        rcases List.mem_cons.1 hq with rfl | hq
        · exact hlt
        · exact String.lt_trans hlt (hp q hq)
      rw [if_pos hlt, hnone]
      simp [Nat.add_comm]
    rw [if_neg hlt]
    by_cases hki : k = i
    · subst hki
      rw [if_pos rfl, get?_cons, if_pos rfl]
      simp only [List.map_cons, List.sum_cons, Option.getD_some]
      omega
    · rw [if_neg hki, get?_cons, if_neg (Ne.symm hki)]
      have hrest := ih hl
      simp only [List.map_cons, List.sum_cons]
      omega

/-- **How often texts occur**, under each that does, in order. -/
structure Tallies (texts : List String) (counts : List (String × ℕ)) : Prop where
  get? : ∀ k, get? k counts = if texts.count k = 0 then none else some (texts.count k)
  sorted : counts.Pairwise fun p q => p.1 < q.1
  total : (counts.map (·.2)).sum = texts.length

theorem Tallies.of_nil : Tallies [] [] where
  get? _ := rfl
  sorted := List.Pairwise.nil
  total := rfl

theorem Tallies.getD (h : Tallies texts counts) (k : String) : (Sorted.get? k counts).getD 0 = texts.count k := by
  rw [h.get?]
  split_ifs with hzero
  · exact hzero.symm
  · rfl

/-- **Every text keeps it.** -/
theorem Tallies.add (h : Tallies texts counts) (k : String) : Tallies (texts ++ [k]) (count k counts) := by
  refine ⟨fun j => ?_, pairwise_put h.sorted _ _, ?_⟩
  · rw [count, get?_put, h.getD, h.get?, List.count_append, List.count_singleton]
    by_cases hkj : k = j
    · subst hkj
      simp
    · simp [hkj]
  · have htotal := sum_put h.sorted k (texts.count k + 1)
    rw [h.getD, h.total] at htotal
    rw [count, h.getD, List.length_append, List.length_singleton]
    omega

/-- Counting the texts of a list, one after the other. -/
theorem tallies (texts : List String) : Tallies texts (texts.foldl (fun counts k => count k counts) []) := by
  induction texts using List.reverseRecOn with
  | nil => exact Tallies.of_nil
  | append_singleton texts k ih =>
    rw [List.foldl_append]
    exact ih.add k

end Sorted

/-! ## Outlines -/

namespace Outline

/-- **What every outline has of its file**: its path, its label and its size. -/
structure Artifact.IsOf (a : Artifact) (f : SourceFile) : Prop where
  path : a.path = f.path
  language : a.language = labelOfPath f.path
  size : a.size = f.content.utf8ByteSize

/-- A text that is outlined is outlined under its path and label and with its size. -/
theorem tryOutline_ok {read : Language → String → Option SyntaxTree.Node} {path label content : String} {a : Artifact}
    (h : tryOutline read path label content = .ok a) :
    ∃ language root, a = ofTree path label content.utf8ByteSize language content root := by
  unfold tryOutline at h
  split at h
  · cases h
  · dsimp only at h
    split at h
    · cases h
    · split at h
      · cases h
      · split_ifs at h
        exact ⟨_, _, (Except.ok.inj h).symm⟩

/-- **So has every outline**, whether the text is parsed or not, and by any reader of trees. -/
theorem isOf_outlineWith (read : Language → String → Option SyntaxTree.Node) (f : SourceFile) :
    (outlineWith read f.path f.content).IsOf f := by
  unfold outlineWith
  -- the label of a path is never computed
  obtain ⟨label, hlabel⟩ : ∃ label, labelOfPath f.path = label := ⟨_, rfl⟩
  rw [hlabel]
  dsimp only
  cases h : tryOutline read f.path label f.content with
  | error e => exact ⟨rfl, hlabel.symm, rfl⟩
  | ok a =>
    obtain ⟨language, root, rfl⟩ := tryOutline_ok h
    exact ⟨rfl, hlabel.symm, rfl⟩

end Outline

/-! ## Agreement -/

/-- The files with a label of program source. -/
def codeFiles (files : List SourceFile) : List SourceFile := files.filter fun f => isCodeLabel (labelOfPath f.path)

/-- **Outlines and numbers agree with the files** that they were made of. -/
structure Agree (files : List SourceFile) (artifacts : List Outline.Artifact) (m : Metrics) : Prop where
  /-- There is one outline for each file of program source, in order. -/
  outlined : List.Forall₂ Outline.Artifact.IsOf artifacts (codeFiles files)
  /-- Under each label stands the number of its outlines, unless there is none. -/
  languages : Sorted.Tallies (artifacts.map (·.language)) m.languages
  fileCount : m.fileCount = files.length
  length_le : artifacts.length ≤ m.fileCount
  /-- The lines are those of the files that have an outline. -/
  linesOfCode : m.linesOfCode =
    ((files.filter fun f => f.path ∈ artifacts.map (·.path)).map fun f => (Text.lines f.content).length).sum

variable {files : List SourceFile} {f : SourceFile}

theorem mem_codeFiles : f ∈ codeFiles files ↔ f ∈ files ∧ isCodeLabel (labelOfPath f.path) = true := List.mem_filter

/-- What every outline has of its file can be read off either. -/
theorem map_outlines {β : Type} {g : Outline.Artifact → β} {k : SourceFile → β}
    (h : ∀ a f, a.IsOf f → g a = k f) (files : List SourceFile) :
    (outlines files).map g = (codeFiles files).map k := by
  unfold outlines
  rw [List.map_map]
  exact List.map_congr_left fun f _ => h _ f (Outline.isOf_outlineWith _ f)

/-- A file has an outline exactly if it is one of program source. -/
theorem mem_paths_outlines (hf : f ∈ files) :
    f.path ∈ (outlines files).map (·.path) ↔ isCodeLabel (labelOfPath f.path) = true := by
  rw [map_outlines (k := (·.path)) fun _ _ h => h.path]
  constructor
  · intro h
    obtain ⟨f', hf', hpath⟩ := List.mem_map.1 h
    rw [← hpath]
    exact (mem_codeFiles.1 hf').2
  · intro h
    exact List.mem_map.2 ⟨f, mem_codeFiles.2 ⟨hf, h⟩, rfl⟩

/-- **For every list of files.** -/
theorem agree (files : List SourceFile) : Agree files (outlines files) (Metrics.ofFiles files) where
  outlined := by
    unfold outlines
    rw [List.forall₂_map_left_iff]
    exact List.forall₂_same.2 fun f _ => Outline.isOf_outlineWith _ f
  languages := by
    rw [map_outlines (k := fun f => labelOfPath f.path) fun _ _ h => h.language]
    have htallies := Sorted.tallies ((codeFiles files).map fun f => labelOfPath f.path)
    rw [List.foldl_map] at htallies
    exact htallies
  fileCount := rfl
  length_le := by
    unfold outlines
    rw [List.length_map]
    exact List.length_filter_le _ _
  linesOfCode := by
    have hsame : (files.filter fun f => f.path ∈ (outlines files).map (·.path)) = codeFiles files :=
      List.filter_congr fun f hf => Bool.eq_iff_iff.2 (by rw [decide_eq_true_eq, mem_paths_outlines hf])
    rw [hsame, List.sum_eq_foldl, List.foldl_map]
    rfl

/-- **A source file is outlined and counted**: it has an outline, as many outlines have its path as
files do, and its label stands for some number of files. -/
theorem outlined_of_isSourceFile (hf : f ∈ files) (hsource : Selection.isSourceFile f.path = true) :
    (∃ a ∈ outlines files, a.IsOf f) ∧
      (outlines files).countP (·.path = f.path) = files.countP (·.path = f.path) ∧
      ∃ n, Sorted.get? (labelOfPath f.path) (Metrics.ofFiles files).languages = some n ∧ 0 < n := by
  have hcode : isCodeLabel (labelOfPath f.path) = true := isCodeLabel_of_isSourceFile hsource
  have hmem : f ∈ codeFiles files := mem_codeFiles.2 ⟨hf, hcode⟩
  refine ⟨⟨_, List.mem_map_of_mem hmem, Outline.isOf_outlineWith _ f⟩, ?path, ?label⟩
  case path =>
    calc (outlines files).countP (·.path = f.path)
        = ((outlines files).map (·.path)).countP (· = f.path) := by
          rw [List.countP_map]
          rfl
      _ = (codeFiles files).countP (·.path = f.path) := by
          rw [map_outlines (k := (·.path)) fun _ _ h => h.path, List.countP_map]
          rfl
      _ = files.countP (·.path = f.path) := by
          unfold codeFiles
          rw [List.countP_filter]
          -- a file with the same path has the same label
          refine List.countP_congr fun f' _ => ?_
          simp only [Bool.and_eq_true, decide_eq_true_eq, and_iff_left_iff_imp]
          intro hpath
          rw [hpath, hcode]
  case label =>
    have hlabel : labelOfPath f.path ∈ (outlines files).map (·.language) := by
      rw [map_outlines (k := fun f => labelOfPath f.path) fun _ _ h => h.language]
      exact List.mem_map_of_mem hmem
    have hpos := List.count_pos_iff.2 hlabel
    refine ⟨_, ?_, hpos⟩
    rw [(agree files).languages.get?, if_neg (Nat.pos_iff_ne_zero.1 hpos)]

/-! ## The files of an analysis -/

variable {σ : Type} {host : Host σ} {generator : Generator σ} {settings : AnalysisSettings} {fullName : String}
  {state : σ} {result : Result}

/-- **An analysis outlines and counts what it fetches.** -/
theorem result_of_conduct (h : (conduct host generator settings fullName state).result = .ok result) :
    ∃ s, Fetches host settings fullName state s ∧ result.artifacts = outlines s.files ∧
      result.metrics = Metrics.ofFiles s.files := by
  unfold conduct at h
  cases htree : host.tree fullName state with
  | mk reply after =>
    rw [htree] at h
    cases reply with
    | error e => cases h
    | ok tree =>
      dsimp only at h
      cases hfetch : fetchSnapshot host settings fullName
        ((Selection.selectFiles tree settings.mediumCap).take settings.maxFiles) after with
      | mk reply last =>
        rw [hfetch] at h
        cases reply with
        | error e => cases h
        | ok s =>
          obtain rfl := Except.ok.inj h
          exact ⟨s, ⟨tree, after, last, htree, hfetch⟩, rfl, rfl⟩

/-- A file that is taken as one of medium priority is a source file. -/
theorem isSourceFile_of_mem_medium {tree : List Entry} {cap : ℕ} {path : String}
    (h : path ∈ (tree.foldl (Selection.Taken.add cap) {}).medium) : Selection.isSourceFile path = true := by
  rw [← List.mem_reverse, (Selection.taken_of cap tree).medium] at h
  have hmedium := (List.mem_filter.1 (List.mem_of_mem_take h)).2
  simp only [Selection.isMediumPriority, Bool.and_eq_true] at hmedium
  exact hmedium.1.1

/-- **Selection, outlines and numbers agree.**

* Every source file has the label of program source.
* For every list of files, outlines and numbers agree with the files and so with each other.
* They are what an analysis comes to, for the files that it fetches.
* A file that was taken as one of medium priority, of whatever tree and with whatever room, and has
  been fetched, is outlined once and counted. -/
theorem source_counted (host : Host σ) (generator : Generator σ) (settings : AnalysisSettings) (fullName : String)
    (state : σ) :
    (∀ path, Selection.isSourceFile path = true → isCodeLabel (labelOfPath path) = true) ∧
      (∀ files, Agree files (outlines files) (Metrics.ofFiles files)) ∧
      (∀ result, (conduct host generator settings fullName state).result = .ok result →
        ∃ s, Fetches host settings fullName state s ∧ result.artifacts = outlines s.files ∧
          result.metrics = Metrics.ofFiles s.files) ∧
      ∀ (tree : List Entry) (cap : ℕ) (files : List SourceFile), ∀ f ∈ files,
        f.path ∈ (tree.foldl (Selection.Taken.add cap) {}).medium →
          (∃ a ∈ outlines files, a.IsOf f) ∧
            (outlines files).countP (·.path = f.path) = files.countP (·.path = f.path) ∧
            ∃ n, Sorted.get? (labelOfPath f.path) (Metrics.ofFiles files).languages = some n ∧ 0 < n := by
  refine ⟨fun _ => isCodeLabel_of_isSourceFile, agree, fun _ => result_of_conduct, ?_⟩
  intro tree cap files f hf hmedium
  exact outlined_of_isSourceFile hf (isSourceFile_of_mem_medium hmedium)

end CodeAtlas
