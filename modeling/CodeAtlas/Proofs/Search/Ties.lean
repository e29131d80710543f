import CodeAtlas.Proofs.Search.Order

/-!
# Ties

Without scores of a generator, files of equal averages tie. Nothing breaks ties by itself: the
files that fit a pattern are put first, then all are sorted by their averages, and both sorts
leave what ties as it stood.

* `pairwise_stable`: **a stable sort keeps an order** among members with one key.
* `FoundAt`, `Before`: the order of candidates and, within each, of artifacts.
* `Precedes`: the order that comes of it, which compares averages, then patterns, then places.
* `rank_inOrder`: **a ranking has this order**, and no file is lost or comes twice.
-/

namespace CodeAtlas.Search

open Decimal

variable {α σ : Type}

/-! ## Stable sorts -/

/-- **A stable sort keeps an order** among members with one key. -/
theorem pairwise_stable (key : α → ℚ) {R : α → α → Prop} {l : List α} (h : l.Pairwise R) :
    (l.mergeSort fun a b => key b ≤ key a).Pairwise fun a b => key b < key a ∨ key a = key b ∧ R a b := by
  obtain ⟨places, hplaces, hsort⟩ := exists_ranked key l
  have hmem (i : ℕ) (hi : i ∈ places) : ∃ a, l[i]? = some a := by
    have hlt : i < l.length := List.mem_range.1 (hplaces.perm.mem_iff.1 hi)
    exact ⟨_, List.getElem?_eq_getElem hlt⟩
  -- the members at two places are compared as the places are
  have hpairs : (places.map (l[·]?)).Pairwise fun x y =>
      ∀ a ∈ x, ∀ b ∈ y, key b < key a ∨ key a = key b ∧ R a b := by
    refine List.pairwise_map.2 (hplaces.pairwise.imp fun {i j} hij a ha b hb => ?_)
    rw [Option.mem_def] at ha hb
    simp only [ha, hb, Option.map_some, Option.getD_some] at hij
    refine hij.imp_right (And.imp_right fun hlt => ?_)
    obtain ⟨hi, rfl⟩ := List.getElem?_eq_some_iff.1 ha
    obtain ⟨hj, rfl⟩ := List.getElem?_eq_some_iff.1 hb
    exact List.pairwise_iff_getElem.1 h i j hi hj hlt
  rw [← hsort, List.pairwise_map] at hpairs
  exact hpairs.imp fun hab => hab _ rfl _ rfl

/-! ## Where files are found -/

/-- **A file with where it is found**: a candidate, by its place, and an artifact of it or its index. -/
def FoundAt (n : Needles) (pairs : List (Repository × Analysis)) (f : FileMatches) (source : ℕ × Option ℕ) : Prop :=
  ∃ p, pairs[source.1]? = some p ∧ IsFileOf n p f source.2

/-- **One source comes before another**: the candidate does, or it is the same and the artifact does. -/
def Before (s t : ℕ × Option ℕ) : Prop := s.1 < t.1 ∨ s.1 = t.1 ∧ Earlier s.2 t.2

/-- The files of all candidates, one candidate after the other. -/
def filesOf (n : Needles) (pairs : List (Repository × Analysis)) : List FileMatches :=
  pairs.flatMap fun p => matchRepository n p.1 p.2

variable {n : Needles} {pairs : List (Repository × Analysis)}

/-- **The files stand in the order of their sources.** -/
theorem filesOf_inOrder (n : Needles) (pairs : List (Repository × Analysis)) :
    ∃ sources, List.Forall₂ (FoundAt n pairs) (filesOf n pairs) sources ∧ sources.Pairwise Before := by
  induction pairs using List.reverseRecOn with
  | nil => exact ⟨[], .nil, .nil⟩
  | append_singleton pairs p ih =>
    obtain ⟨sources, hfiles, hsources⟩ := ih
    obtain ⟨places, hfiles', hplaces⟩ := matchRepository_inOrder n p
    refine ⟨sources ++ places.map (pairs.length, ·), ?files, ?order⟩
    case files =>
      unfold filesOf
      rw [List.flatMap_append, List.flatMap_singleton]
      refine List.rel_append (hfiles.imp ?_) (List.forall₂_map_right_iff.2 (hfiles'.imp ?_))
      · rintro f source ⟨p', hp', hf⟩
        have hlt := (List.getElem?_eq_some_iff.1 hp').1
        exact ⟨p', (List.getElem?_append_left hlt).trans hp', hf⟩
      · intro f place hf
        exact ⟨p, by simp, hf⟩
    case order =>
      refine List.pairwise_append.2 ⟨hsources, ?_, ?_⟩
      · exact List.pairwise_map.2 (hplaces.imp fun h => Or.inr ⟨rfl, h⟩)
      · intro s hs t ht
        obtain ⟨f, -, p', hp', -⟩ := exists_of_mem_right hfiles hs
        obtain ⟨place, -, rfl⟩ := List.mem_map.1 ht
        exact Or.inl (List.getElem?_eq_some_iff.1 hp').1

/-! ## The order -/

/-- **Which of two files comes first**: the one with the higher average; of equal averages, the one that
fits a file pattern, if the other does not; and else the one whose source does. -/
def Precedes (n : Needles) (p q : FileMatches × ℕ × Option ℕ) : Prop :=
  average q.1 < average p.1 ∨
    average p.1 ≤ average q.1 ∧ average q.1 ≤ average p.1 ∧
      (n.fitsPath p.1.file.path = true ∧ n.fitsPath q.1.file.path = false ∨
        n.fitsPath p.1.file.path = n.fitsPath q.1.file.path ∧ Before p.2 q.2)

/-- Whether a file fits a pattern, as a number. -/
def fitKey (n : Needles) (f : FileMatches) : ℚ := if n.fitsPath f.file.path then 1 else 0

/-- The average of a file, as a number. -/
def averageKey (f : FileMatches) : ℚ := (scored f none).value

theorem fitKey_le_iff (f g : FileMatches) :
    (n.fitsPath f.file.path || !n.fitsPath g.file.path) = decide (fitKey n g ≤ fitKey n f) := by
  unfold fitKey
  cases n.fitsPath f.file.path <;> cases n.fitsPath g.file.path <;> simp

theorem fitKey_lt_iff {f g : FileMatches} :
    fitKey n g < fitKey n f ↔ n.fitsPath f.file.path = true ∧ n.fitsPath g.file.path = false := by
  unfold fitKey
  cases n.fitsPath f.file.path <;> cases n.fitsPath g.file.path <;> simp

theorem fitKey_eq_iff {f g : FileMatches} : fitKey n f = fitKey n g ↔ n.fitsPath f.file.path = n.fitsPath g.file.path := by
  unfold fitKey
  cases n.fitsPath f.file.path <;> cases n.fitsPath g.file.path <;> simp

theorem number?_averageKey (f : FileMatches) : number? (average f) = some (averageKey f) := by
  obtain ⟨q, hq, -⟩ := number?_average f
  exact SearchResult.number?_score (r := scored f none) ⟨q, hq⟩

/-- The two sorts, of files with their sources. -/
theorem precedes_of_keys {p q : FileMatches × ℕ × Option ℕ}
    (h : averageKey q.1 < averageKey p.1 ∨ averageKey p.1 = averageKey q.1 ∧
      (fitKey n q.1 < fitKey n p.1 ∨ fitKey n p.1 = fitKey n q.1 ∧ Before p.2 q.2)) : Precedes n p q := by
  have hp := number?_averageKey p.1
  have hq := number?_averageKey q.1
  refine h.imp (lt_iff hq hp).2 fun ⟨heq, hfit⟩ => ⟨(le_iff hp hq).2 heq.le, (le_iff hq hp).2 heq.ge, ?_⟩
  exact hfit.imp fitKey_lt_iff.1 (And.imp_left fitKey_eq_iff.1)

theorem Earlier.asymm {a b : Option ℕ} (h : Earlier a b) : ¬Earlier b a := by
  intro h'
  cases a with
  | none => exact h
  | some i =>
    cases b with
    | none => exact h
    | some j => exact Nat.lt_asymm h h'

theorem Before.asymm {s t : ℕ × Option ℕ} (h : Before s t) : ¬Before t s := by
  rcases h with h | ⟨heq, h⟩
  · rintro (h' | ⟨heq', -⟩)
    · exact Nat.lt_asymm h h'
    · omega
  · rintro (h' | ⟨-, h'⟩)
    · omega
    · exact h.asymm h'

/-- **No two files come before each other.** -/
theorem Precedes.asymm {p q : FileMatches × ℕ × Option ℕ} (h : Precedes n p q) : ¬Precedes n q p := by
  have hp := number?_averageKey p.1
  have hq := number?_averageKey q.1
  simp only [Precedes, lt_iff hp hq, lt_iff hq hp, le_iff hp hq, le_iff hq hp] at h ⊢
  rcases h with h | ⟨hle, hge, h⟩
  · rintro (h' | ⟨-, h', -⟩)
    · exact lt_asymm h h'
    · exact absurd h h'.not_gt
  · rintro (h' | ⟨-, -, h'⟩)
    · exact absurd h' hge.not_gt
    · rcases h with ⟨hfits, hnot⟩ | ⟨hsame, hbefore⟩
      · rcases h' with ⟨-, hnot'⟩ | ⟨hsame, -⟩
        · simp [hfits] at hnot'
        · simp [hfits, hnot] at hsame
      · rcases h' with ⟨hfits, hnot⟩ | ⟨-, hbefore'⟩
        · simp [hfits, hnot] at hsame
        · exact hbefore.asymm hbefore'

/-! ## Rankings -/

/-- Without scores of a generator nothing is asked, and files are sorted by their averages. -/
theorem rank_eq_average (generator : Generator σ) (settings : SearchSettings) (query : String)
    (files : List FileMatches) (state : σ) :
    rank generator { settings with rescoring := false } query files state =
      (((files.mergeSort fun f g => averageKey g ≤ averageKey f).map (scored · none)).take settings.maxResults,
        state) := by
  have hentries : entries files [] = files.map (scored · none) := by
    refine List.ext_getElem? fun i => ?_
    rw [getElem?_entries, List.getElem?_map]
    rfl
  have hsort : byScore (files.map (scored · none)) =
      (files.mergeSort fun f g => averageKey g ≤ averageKey f).map (scored · none) := by
    rw [byScore_eq fun r hr => exists_number?_of_mem_entries (hentries ▸ hr)]
    symm
    exact List.map_mergeSort fun _ _ _ _ => rfl
  unfold rank
  rw [scoreBatches_eq]
  simp only [rescores, Bool.false_eq_true, if_false, askAll, hentries, hsort]

/-- **The order of a ranking without scores of a generator.** Let the files of all candidates be found,
one candidate after the other and in each one artifact after the other.

* What is searched for a query is these files in another order.
* The ranking is the list of them, cut off, in which the one with the higher average comes first; of
  equal averages, the one whose path fits a file pattern; and else the one that is found first. Before
  the cut each of them stands there once. Nothing is asked. -/
theorem rank_inOrder (n : Needles) (pairs : List (Repository × Analysis)) (generator : Generator σ)
    (settings : SearchSettings) (query : String) (state : σ) :
    (matchAll n pairs).Perm (pairs.flatMap fun p => matchRepository n p.1 p.2) ∧
      ∃ found : List (FileMatches × ℕ × Option ℕ),
        found.map (·.1) = (pairs.flatMap fun p => matchRepository n p.1 p.2) ∧
        (∀ p ∈ found, FoundAt n pairs p.1 p.2) ∧ found.Pairwise (fun p q => Before p.2 q.2) ∧
        ∃ ordered : List (FileMatches × ℕ × Option ℕ), ordered.Perm found ∧ ordered.Pairwise (Precedes n) ∧
          (∀ other, other.Perm found → other.Pairwise (Precedes n) → other = ordered) ∧
          rank generator { settings with rescoring := false } query (matchAll n pairs) state =
            ((ordered.map fun p => scored p.1 none).take settings.maxResults, state) := by
  obtain ⟨sources, hfiles, hsources⟩ := filesOf_inOrder n pairs
  obtain ⟨hlength, hzip⟩ := List.forall₂_iff_zip.1 hfiles
  obtain ⟨found, hfound⟩ : ∃ found, found = (filesOf n pairs).zip sources := ⟨_, rfl⟩
  have hfst : found.map (·.1) = filesOf n pairs := hfound ▸ List.map_fst_zip hlength.le
  have hsnd : found.map (·.2) = sources := hfound ▸ List.map_snd_zip hlength.ge
  have hbefore : found.Pairwise fun p q => Before p.2 q.2 := by
    rwa [← hsnd, List.pairwise_map] at hsources
  -- files are sorted together with their sources
  have hmatch : matchAll n pairs = (found.mergeSort fun p q => fitKey n q.1 ≤ fitKey n p.1).map (·.1) := by
    rw [List.map_mergeSort (s := fun f g => decide (fitKey n g ≤ fitKey n f)) fun _ _ _ _ => rfl, hfst]
    unfold matchAll
    simp only [fitKey_le_iff]
    rfl
  refine ⟨List.mergeSort_perm _ _, found, hfst, ?_, hbefore, ?_⟩
  · rintro ⟨f, source⟩ hp
    exact hzip (hfound ▸ hp)
  · obtain ⟨ordered, hordered⟩ : ∃ ordered, ordered = (found.mergeSort fun p q => fitKey n q.1 ≤ fitKey n p.1).mergeSort
      fun p q => averageKey q.1 ≤ averageKey p.1 := ⟨_, rfl⟩
    have hperm : ordered.Perm found := hordered ▸ (List.mergeSort_perm _ _).trans (List.mergeSort_perm _ _)
    have hinOrder : ordered.Pairwise (Precedes n) := by
      have hkeys := pairwise_stable (fun p => averageKey p.1) (pairwise_stable (fun p => fitKey n p.1) hbefore)
      rw [hordered]
      exact hkeys.imp precedes_of_keys
    refine ⟨ordered, hperm, hinOrder, ?only, ?ranking⟩
    case only =>
      intro other hother hpairwise
      refine List.Perm.eq_of_pairwise ?_ hpairwise hinOrder (hother.trans hperm.symm)
      intro p q _ _ hpq hqp
      exact absurd hqp hpq.asymm
    case ranking =>
      rw [rank_eq_average, hmatch, hordered,
        ← List.map_mergeSort (r := fun p q => decide (averageKey q.1 ≤ averageKey p.1)) fun _ _ _ _ => rfl,
        List.map_map]
      rfl

end CodeAtlas.Search
