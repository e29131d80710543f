import CodeAtlas.Host.Selection
import CodeAtlas.Proofs.FirstOccurrences
import CodeAtlas.Proofs.Text.Cuts

/-!
# What is taken of a tree

The files of a tree are gone through once, with three lists: what has been seen, what is of high
priority, and what is of medium priority as long as there is room. What comes of it can be said
without a loop.

* `LiesUnder`, `inNoiseDirectory_iff`: the directories above a file.
* `filePaths`: the files of a tree, each at its first place.
* `Taken.Of`: what has been taken of some entries, which every further entry keeps.
* `files_selected`: **the files of high priority, and the first of the others that are source**;
  and what follows from it.
-/

namespace CodeAtlas.Selection

/-! ## Directories -/

/-- **A file lies under a directory of a name**: with a slash before its path, the name stands
between two slashes. -/
def LiesUnder (d path : String) : Prop := '/' :: d.toList ++ ['/'] <:+: '/' :: path.toList

theorem slash_notMem_of_noise : ∀ d ∈ noiseDirectories, '/' ∉ d.toList := by decide

/-- The noise directories are looked for above the file, at any height. -/
theorem inNoiseDirectory_iff {path : String} :
    inNoiseDirectory path = true ↔ ∃ d ∈ noiseDirectories, LiesUnder d path := by
  have hpieces : Text.split path "/" = (path.toList.splitOn '/').map String.ofList := by
    rw [← Text.pieces_eq_splitOn]
    rfl
  unfold inNoiseDirectory
  rw [hpieces, ← List.map_dropLast, List.any_map, List.any_eq_true]
  constructor
  · rintro ⟨d, hd, hnoise⟩
    have hmem : String.ofList d ∈ noiseDirectories := List.contains_iff_mem.1 hnoise
    refine ⟨String.ofList d, hmem, ?_⟩
    unfold LiesUnder
    rw [← Text.mem_dropLast_splitOn (slash_notMem_of_noise _ hmem), String.toList_ofList]
    exact hd
  · rintro ⟨d, hmem, hunder⟩
    refine ⟨d.toList, (Text.mem_dropLast_splitOn (slash_notMem_of_noise d hmem)).2 hunder, ?_⟩
    simpa using hmem

theorem not_inNoiseDirectory_of_high {path : String} (h : isHighPriority path = true) :
    inNoiseDirectory path = false := by
  simp only [isHighPriority, Bool.and_eq_true, Bool.not_eq_true'] at h
  exact h.1

/-! ## Files -/

/-- The paths of the files among entries. -/
def blobPaths (entries : List Entry) : List String := (entries.filter (·.kind = .blob)).map (·.path)

/-- **The files of a tree**, each at its first place. -/
def filePaths (entries : List Entry) : List String := (blobPaths entries).eraseDups

/-- A source file that is not of high priority and lies under no noise directory. -/
def isMediumPriority (path : String) : Bool :=
  isSourceFile path && !isHighPriority path && !inNoiseDirectory path

variable {entries before after : List Entry} {e : Entry} {cap cap' : ℕ}

theorem blobPaths_append (before after : List Entry) :
    blobPaths (before ++ after) = blobPaths before ++ blobPaths after := by simp [blobPaths]

theorem blobPaths_of_blob (h : e.kind = .blob) : blobPaths [e] = [e.path] := by simp [blobPaths, h]

theorem blobPaths_of_not_blob (h : e.kind ≠ .blob) : blobPaths [e] = [] := by simp [blobPaths, h]

theorem mem_blobPaths {path : String} : path ∈ blobPaths entries ↔ ∃ e ∈ entries, e.kind = .blob ∧ e.path = path := by
  simp [blobPaths, and_assoc]

theorem mem_filePaths {path : String} : path ∈ filePaths entries ↔ ∃ e ∈ entries, e.kind = .blob ∧ e.path = path :=
  List.mem_eraseDups.trans mem_blobPaths

/-! ## Taking -/

/-- **What has been taken of some entries.** -/
structure Taken.Of (cap : ℕ) (t : Taken) (entries : List Entry) : Prop where
  seen : t.seen.reverse = filePaths entries
  high : t.high.reverse = (filePaths entries).filter isHighPriority
  medium : t.medium.reverse = ((filePaths entries).filter isMediumPriority).take cap

theorem Taken.of_nil : Taken.Of cap {} [] where
  seen := rfl
  high := rfl
  medium := by simp [filePaths, blobPaths]

theorem Taken.Of.mem_seen {t : Taken} (h : t.Of cap entries) {path : String} :
    path ∈ t.seen ↔ path ∈ blobPaths entries := by
  rw [← List.mem_reverse, h.seen, filePaths, List.mem_eraseDups]

/-- An entry that adds no file is passed over. -/
theorem Taken.Of.skip {t : Taken} (h : t.Of cap entries) (hsame : filePaths (entries ++ [e]) = filePaths entries) :
    t.Of cap (entries ++ [e]) := by
  refine ⟨?_, ?_, ?_⟩
  · rw [hsame, h.seen]
  · rw [hsame, h.high]
  · rw [hsame, h.medium]

/-- One more medium file is taken if there is room. -/
theorem take_concat {α : Type} {n : ℕ} {l : List α} (x : α) :
    (l ++ [x]).take n = l.take n ++ if (l.take n).length < n then [x] else [] := by
  rw [List.take_append, List.length_take]
  congr 1
  split_ifs with h
  · exact List.take_of_length_le (by simp; omega)
  · rw [show n - l.length = 0 by omega, List.take_zero]

/-- **Every entry keeps it.** -/
theorem Taken.Of.add {t : Taken} (h : t.Of cap entries) (e : Entry) : (t.add cap e).Of cap (entries ++ [e]) := by
  unfold Taken.add
  by_cases hblob : e.kind = .blob
  case neg =>
    rw [if_pos (by simp [hblob])]
    apply h.skip
    rw [filePaths, blobPaths_append, blobPaths_of_not_blob hblob, List.append_nil]
    rfl
  by_cases hseen : e.path ∈ t.seen
  · rw [if_pos (by simp [hseen])]
    apply h.skip
    rw [filePaths, blobPaths_append, blobPaths_of_blob hblob, eraseDups_concat_of_mem (h.mem_seen.1 hseen)]
    rfl
  -- a file that is new comes last among those that have been seen
  have hnew : filePaths (entries ++ [e]) = filePaths entries ++ [e.path] := by
    rw [filePaths, blobPaths_append, blobPaths_of_blob hblob,
      eraseDups_concat_of_notMem fun hmem => hseen (h.mem_seen.2 hmem)]
    rfl
  have hhigh : ((filePaths entries) ++ [e.path]).filter isHighPriority =
      t.high.reverse ++ if isHighPriority e.path then [e.path] else [] := by
    rw [List.filter_append, h.high]
    cases hp : isHighPriority e.path <;> simp [hp]
  have hmedium : (((filePaths entries) ++ [e.path]).filter isMediumPriority).take cap =
      t.medium.reverse ++ if isMediumPriority e.path ∧ t.medium.length < cap then [e.path] else [] := by
    rw [← List.length_reverse, h.medium, List.filter_append]
    cases hm : isMediumPriority e.path
    · simp [hm]
    · simp [hm, take_concat]
  rw [if_neg (by simp [hblob, hseen])]
  refine ⟨?seen, ?high, ?medium⟩
  case seen =>
    rw [hnew, ← h.seen]
    dsimp only
    split_ifs <;> simp
  case high =>
    rw [hnew, hhigh]
    dsimp only
    split_ifs <;> simp
  case medium =>
    rw [hnew, hmedium]
    dsimp only
    by_cases hp : isHighPriority e.path = true
    · simp [isMediumPriority, hp]
    · have hm : isMediumPriority e.path = (isSourceFile e.path && !inNoiseDirectory e.path) := by
        simp [isMediumPriority, hp]
      rw [if_neg hp, hm]
      by_cases hroom : isSourceFile e.path && !inNoiseDirectory e.path && decide (t.medium.length < cap)
      · rw [if_pos hroom, if_pos (by simpa using hroom), List.reverse_cons]
      · rw [if_neg hroom, if_neg (by simpa using hroom), List.append_nil]

/-- **What is taken of a tree**, by induction on its entries from the end. -/
theorem taken_of (cap : ℕ) (entries : List Entry) : (entries.foldl (Taken.add cap) {}).Of cap entries := by
  induction entries using List.reverseRecOn with
  | nil => exact Taken.of_nil
  | append_singleton entries e ih =>
    rw [List.foldl_append]
    exact ih.add e

/-- **The files that are selected**, in closed form. -/
theorem selectFiles_eq (entries : List Entry) (cap : ℕ) :
    selectFiles entries cap =
      (filePaths entries).filter isHighPriority ++ ((filePaths entries).filter isMediumPriority).take cap := by
  have h := taken_of cap entries
  rw [← h.high, ← h.medium]
  rfl

/-! ## What follows -/

theorem not_high_of_medium {path : String} (h : isMediumPriority path = true) : isHighPriority path = false := by
  simp only [isMediumPriority, Bool.and_eq_true, Bool.not_eq_true'] at h
  exact h.1.2

theorem not_inNoiseDirectory_of_medium {path : String} (h : isMediumPriority path = true) :
    inNoiseDirectory path = false := by
  simp only [isMediumPriority, Bool.and_eq_true, Bool.not_eq_true'] at h
  exact h.2

/-- A selected file is a file of the tree, of high or of medium priority. -/
theorem mem_selectFiles {path : String} (h : path ∈ selectFiles entries cap) :
    path ∈ filePaths entries ∧ (isHighPriority path = true ∨ isMediumPriority path = true) := by
  rw [selectFiles_eq, List.mem_append] at h
  rcases h with h | h
  · obtain ⟨hmem, hp⟩ := List.mem_filter.1 h
    exact ⟨hmem, Or.inl hp⟩
  · obtain ⟨hmem, hp⟩ := List.mem_filter.1 (List.mem_of_mem_take h)
    exact ⟨hmem, Or.inr hp⟩

/-- No file is selected twice. -/
theorem nodup_selectFiles (entries : List Entry) (cap : ℕ) : (selectFiles entries cap).Nodup := by
  have hnd : (filePaths entries).Nodup := nodup_eraseDups _
  rw [selectFiles_eq]
  refine List.nodup_append.2 ⟨hnd.filter _, (hnd.filter _).sublist (List.take_sublist _ _), ?_⟩
  -- a file is not of both priorities
  rintro path hhigh _ hmedium rfl
  have hnot := not_high_of_medium (List.mem_filter.1 (List.mem_of_mem_take hmedium)).2
  rw [(List.mem_filter.1 hhigh).2] at hnot
  cases hnot

/-- The files of high priority are selected whatever the number of others is. -/
theorem filter_selectFiles (entries : List Entry) (cap : ℕ) :
    (selectFiles entries cap).filter isHighPriority = (filePaths entries).filter isHighPriority := by
  have hnone : (((filePaths entries).filter isMediumPriority).take cap).filter isHighPriority = [] := by
    rw [List.filter_eq_nil_iff]
    intro path hpath
    simp [not_high_of_medium (List.mem_filter.1 (List.mem_of_mem_take hpath)).2]
  rw [selectFiles_eq, List.filter_append, hnone, List.append_nil, List.filter_filter]
  simp

/-- **Less room takes less from the end.** -/
theorem selectFiles_prefix (entries : List Entry) (h : cap ≤ cap') :
    selectFiles entries cap <+: selectFiles entries cap' := by
  rw [selectFiles_eq, selectFiles_eq, List.prefix_append_right_inj]
  exact List.take_prefix_take_left h

/-! ## Entries that do not count -/

/-- **An entry that does not count** after others: it is no file, or a file that stands there before, or one
under a noise directory. -/
def Idle (before : List Entry) (e : Entry) : Prop :=
  e.kind ≠ .blob ∨ (∃ e' ∈ before, e'.kind = .blob ∧ e'.path = e.path) ∨ ∃ d ∈ noiseDirectories, LiesUnder d e.path

/-- A class of files that lie under no noise directory is the same without such an entry. -/
theorem filter_filePaths_of_idle {p : String → Bool} (hp : ∀ path, p path = true → inNoiseDirectory path = false)
    (h : Idle before e) (after : List Entry) :
    (filePaths (before ++ e :: after)).filter p = (filePaths (before ++ after)).filter p := by
  have hsplit : blobPaths (before ++ e :: after) = blobPaths before ++ blobPaths [e] ++ blobPaths after := by
    rw [← blobPaths_append, ← blobPaths_append, List.append_assoc, List.singleton_append]
  unfold filePaths
  rw [hsplit, blobPaths_append before after]
  by_cases hblob : e.kind = .blob
  case neg => rw [blobPaths_of_not_blob hblob, List.append_nil]
  rw [blobPaths_of_blob hblob, List.append_assoc, List.singleton_append]
  rcases h with hnot | hseen | hnoise
  · exact absurd hblob hnot
  · rw [eraseDups_insert_of_mem (mem_blobPaths.2 hseen)]
  · have hnot : ¬p e.path = true := by
      intro hpath
      have hclear := hp _ hpath
      rw [inNoiseDirectory_iff.2 hnoise] at hclear
      cases hclear
    rw [filter_eraseDups, filter_eraseDups, List.filter_append, List.filter_append, List.filter_cons_of_neg hnot]

/-- **Such an entry can be put in or left out anywhere.** -/
theorem selectFiles_insert (h : Idle before e) (after : List Entry) (cap : ℕ) :
    selectFiles (before ++ e :: after) cap = selectFiles (before ++ after) cap := by
  rw [selectFiles_eq, selectFiles_eq, filter_filePaths_of_idle (fun _ => not_inNoiseDirectory_of_high) h,
    filter_filePaths_of_idle (fun _ => not_inNoiseDirectory_of_medium) h]

/-- **What is selected of a tree**: with the files of the tree in order, each at its first place,
those of high priority, and then the first of those that are source files, not of high priority
and under no noise directory, as many as there is room for. So

* no file is selected twice, and each is a file of the tree with no noise directory above it;
* the files of high priority do not depend on the room, and less room takes less from the end;
* trees and commits, files that have come before and files under noise directories make no
  difference, wherever they stand. -/
theorem files_selected (entries : List Entry) (cap : ℕ) :
    selectFiles entries cap =
        (filePaths entries).filter isHighPriority ++ ((filePaths entries).filter isMediumPriority).take cap ∧
      (selectFiles entries cap).Nodup ∧
      (∀ path ∈ selectFiles entries cap,
        (∃ e ∈ entries, e.kind = .blob ∧ e.path = path) ∧ ∀ d ∈ noiseDirectories, ¬LiesUnder d path) ∧
      (∀ cap', (selectFiles entries cap').filter isHighPriority = (selectFiles entries cap).filter isHighPriority) ∧
      (∀ cap', cap ≤ cap' → selectFiles entries cap <+: selectFiles entries cap') ∧
      ∀ before e after, Idle before e → selectFiles (before ++ e :: after) cap = selectFiles (before ++ after) cap := by
  refine ⟨selectFiles_eq entries cap, nodup_selectFiles entries cap, ?_, ?_, fun _ => selectFiles_prefix entries, ?_⟩
  · intro path hpath
    obtain ⟨hmem, hp⟩ := mem_selectFiles hpath
    have hclear : inNoiseDirectory path = false :=
      hp.elim not_inNoiseDirectory_of_high not_inNoiseDirectory_of_medium
    refine ⟨mem_filePaths.1 hmem, fun d hd hunder => ?_⟩
    rw [inNoiseDirectory_iff.2 ⟨d, hd, hunder⟩] at hclear
    cases hclear
  · intro cap'
    rw [filter_selectFiles, filter_selectFiles]
  · intro before e after hidle
    exact selectFiles_insert hidle after cap

/-- What others wrote and what is mentioned again makes no difference, and a file where a program begins is one like
the others unless it stands at the root. -/
example :
    selectFiles [⟨"package.json", .blob, none⟩, ⟨"src", .tree, none⟩, ⟨"src/index.ts", .blob, none⟩,
      ⟨"node_modules/x/index.js", .blob, none⟩, ⟨"package.json", .blob, none⟩, ⟨"README.md", .blob, none⟩] 30 =
    ["package.json", "README.md", "src/index.ts"] := by decide +kernel

end CodeAtlas.Selection
