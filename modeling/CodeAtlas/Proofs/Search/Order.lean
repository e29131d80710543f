import CodeAtlas.Proofs.Search.Precision
import CodeAtlas.Proofs.Search.Stream

/-!
# The order of a ranking

A ranking asks for the scores of files batch by batch, and then sorts. What it comes to does not
depend on the batches: one file after the other is asked for, what is said of a file depends on
the file and on its own answer, and the results are the first places of a stable sort.

* `askAll`: requests one after the other.
* `entries`: what is said of each file.
* `scoreBatches_eq`: **batches make no difference.**
* `Ranked`: places in the order of their scores, and among equal ones as they stood.
* `rank_eq_stableSort`: **a ranking is the stable sort of what is said of each file**, cut off.
-/

namespace CodeAtlas.Search

open Decimal

variable {α σ : Type}

/-! ## Requests -/

/-- What a generator answers to requests, one after the other, and its state after them. -/
def askAll (generator : Generator σ) : List Request → σ → List (Except Failure String) × σ
  | [], state => ([], state)
  | request :: requests, state =>
    let (answer, state) := generator request state
    let (answers, state) := askAll generator requests state
    (answer :: answers, state)

/-- A generator that notes what it is asked notes the requests in their order. -/
theorem askAll_logged (generator : Generator σ) (requests : List Request) (noted : List Request) (state : σ) :
    askAll (logged generator) requests (noted, state) =
      ((askAll generator requests state).1, noted ++ requests, (askAll generator requests state).2) := by
  induction requests generalizing noted state with
  | nil => simp [askAll]
  | cons request requests ih =>
    simp only [askAll, logged, ih, List.append_assoc]
    rfl

/-- What a ranking asks for: a score of each file, or nothing. -/
def rescores (settings : SearchSettings) (query : String) (files : List FileMatches) : List Request :=
  if settings.rescoring then files.map (Rescore.request query) else []

/-! ## Answers -/

/-- **What is said of each file**: the average of its matches, or its blend with the score that the
answer for the file gives. -/
def entries (files : List FileMatches) (answers : List (Except Failure String)) : List SearchResult :=
  files.mapIdx fun i f => scored f (answers[i]?.bind Rescore.given?)

theorem getElem?_entries (files : List FileMatches) (answers : List (Except Failure String)) (i : ℕ) :
    (entries files answers)[i]? = files[i]?.map fun f => scored f (answers[i]?.bind Rescore.given?) :=
  List.getElem?_mapIdx

section Batches

variable (generator : Generator σ) (settings : SearchSettings) (query : String)

/-- **One file after the other** is asked for, and the answer decides what is said of it. -/
theorem scoreBatch_eq (files : List FileMatches) (state : σ) :
    scoreBatch generator settings query files state =
      (entries files (askAll generator (rescores settings query files) state).1,
        (askAll generator (rescores settings query files) state).2) := by
  cases hon : settings.rescoring with
  | false =>
    -- nothing is asked, so no file has an answer
    simp only [rescores, hon, Bool.false_eq_true, if_false, askAll]
    induction files with
    | nil => rfl
    | cons f files ih =>
      simp only [scoreBatch, scoreFile, hon, Bool.false_eq_true, if_false, ih]
      simp [entries]
  | true =>
    simp only [rescores, hon, if_true]
    -- the first answer is for the first file, and the others are for the others
    induction files generalizing state with
    | nil => rfl
    | cons f files ih =>
      simp only [scoreBatch, scoreFile, hon, if_true, Rescore.ask_eq, ih, List.map_cons, askAll]
      simp [entries, List.mapIdx_cons]

theorem scoreBatch_append (fs gs : List FileMatches) (state : σ) :
    scoreBatch generator settings query (fs ++ gs) state =
      ((scoreBatch generator settings query fs state).1 ++
          (scoreBatch generator settings query gs (scoreBatch generator settings query fs state).2).1,
        (scoreBatch generator settings query gs (scoreBatch generator settings query fs state).2).2) := by
  induction fs generalizing state with
  | nil => rfl
  | cons f fs ih => simp only [List.cons_append, scoreBatch, ih]

theorem scoreBatches_eq_flatten (bs : List (List FileMatches)) (state : σ) :
    scoreBatches generator settings query bs state = scoreBatch generator settings query bs.flatten state := by
  induction bs generalizing state with
  | nil => rfl
  | cons b bs ih => simp only [scoreBatches, List.flatten_cons, scoreBatch_append, ih]

/-- **Batches make no difference.** -/
theorem scoreBatches_eq (size : ℕ) (files : List FileMatches) (state : σ) :
    scoreBatches generator settings query (batches size files) state =
      (entries files (askAll generator (rescores settings query files) state).1,
        (askAll generator (rescores settings query files) state).2) := by
  rw [scoreBatches_eq_flatten, flatten_batches, scoreBatch_eq]

end Batches

/-! ## Places -/

/-- **Places in the order of their scores**, the highest first, and among equal ones as they stood. -/
structure Ranked (score : ℕ → ℚ) (n : ℕ) (places : List ℕ) : Prop where
  perm : places.Perm (List.range n)
  pairwise : places.Pairwise fun i j => score j < score i ∨ score i = score j ∧ i < j

namespace Ranked

variable {score score' : ℕ → ℚ} {n : ℕ} {places places' : List ℕ}

/-- **Nothing that is cut off has a higher score** than what is kept. -/
theorem le_of_mem_take (h : Ranked score n places) {m i j : ℕ} (hi : i ∈ places.take m) (hj : j ∈ places.drop m) :
    score j ≤ score i := by
  have hpairwise := h.pairwise
  rw [← List.take_append_drop m places] at hpairwise
  rcases (List.pairwise_append.1 hpairwise).2.2 i hi j hj with hlt | ⟨heq, -⟩
  · exact hlt.le
  · exact heq.ge

/-- **The score of one place does not matter to the order of the others.** -/
theorem filter_ne_eq (h : Ranked score n places) (h' : Ranked score' n places') {k : ℕ}
    (hsame : ∀ i, i ≠ k → score i = score' i) : places.filter (· ≠ k) = places'.filter (· ≠ k) := by
  have hother : (places'.filter (· ≠ k)).Pairwise fun i j => score j < score i ∨ score i = score j ∧ i < j := by
    refine (h'.pairwise.filter _).imp_of_mem fun {i j} hi hj hij => ?_
    rw [hsame i (by simpa using (List.mem_filter.1 hi).2), hsame j (by simpa using (List.mem_filter.1 hj).2)]
    exact hij
  refine List.Perm.eq_of_pairwise ?_ (h.pairwise.filter _) hother ((h.perm.trans h'.perm.symm).filter _)
  -- of two places only one comes first
  rintro i j - - (hij | ⟨hij, hlt⟩) (hji | ⟨hji, hlt'⟩)
  · exact absurd hij hji.not_gt
  · exact absurd hij hji.not_lt
  · exact absurd hji hij.not_lt
  · omega

end Ranked

/-- **A stable sort puts places in order.** -/
theorem exists_ranked (key : α → ℚ) (l : List α) :
    ∃ places, Ranked (fun i => (l[i]?.map key).getD 0) l.length places ∧
      (l.mergeSort fun a b => key b ≤ key a).map some = places.map (l[·]?) := by
  -- the sort is that of the members together with their places, of which no two are equal
  let le (a b : α) : Bool := key b ≤ key a
  have htrans : ∀ a b c, le a b = true → le b c = true → le a c = true := by
    intro a b c hab hbc
    simp only [le, decide_eq_true_eq] at hab hbc ⊢
    exact hbc.trans hab
  have htotal : ∀ a b, (le a b || le b a) = true := by
    intro a b
    simpa [le] using le_total (key b) (key a)
  obtain ⟨sorted, hsorted⟩ : ∃ sorted, sorted = l.zipIdx.mergeSort (List.zipIdxLE le) := ⟨_, rfl⟩
  have hperm : sorted.Perm l.zipIdx := hsorted ▸ List.mergeSort_perm _ _
  have hmem : ∀ p ∈ sorted, l[p.2]? = some p.1 := fun p hp => List.mem_zipIdx_iff_getElem?.1 (hperm.mem_iff.1 hp)
  have hplaces : (sorted.map Prod.snd).Perm (List.range l.length) := by
    have hsnd := hperm.map Prod.snd
    rwa [List.zipIdx_map_snd, ← List.range_eq_range'] at hsnd
  have hinOrder : sorted.Pairwise fun p q => List.zipIdxLE le p q = true ∧ p.2 ≠ q.2 := by
    refine List.pairwise_and_iff.2 ⟨?_, ?_⟩
    · rw [hsorted]
      exact List.pairwise_mergeSort (List.zipIdxLE_trans htrans) (List.zipIdxLE_total htotal) _
    · exact List.pairwise_map.1 (hplaces.nodup_iff.2 List.nodup_range)
  refine ⟨sorted.map Prod.snd, ⟨hplaces, ?_⟩, ?_⟩
  · refine List.pairwise_map.2 (hinOrder.imp_of_mem fun {p q} hp hq hpq => ?_)
    simp only [hmem p hp, hmem q hq, Option.map_some, Option.getD_some]
    obtain ⟨hle, hne⟩ := hpq
    unfold List.zipIdxLE at hle
    split_ifs at hle with hqp hpq
    · simp only [le, decide_eq_true_eq] at hqp hpq hle
      exact Or.inr ⟨le_antisymm hpq hqp, lt_of_le_of_ne hle hne⟩
    · simp only [le, decide_eq_true_eq] at hpq
      exact Or.inl (not_le.1 hpq)
  · have hfst : l.mergeSort le = sorted.map Prod.fst := by
      rw [hsorted]
      exact List.mergeSort_zipIdx.symm
    rw [show (l.mergeSort fun a b => decide (key b ≤ key a)) = sorted.map Prod.fst from hfst, List.map_map,
      List.map_map]
    exact List.map_congr_left fun p hp => (hmem p hp).symm

/-! ## Rankings -/

/-- The score of what is said of a file. -/
def scoreAt (files : List FileMatches) (answers : List (Except Failure String)) (i : ℕ) : ℚ :=
  ((entries files answers)[i]?.map SearchResult.value).getD 0

/-- **What is said of a file** if an answer gives a score, and if none does: the file is as it was found, the
explanation is the given one, and the score is a blend or the average. The score is a float, but
stands for a number that is close to what exact arithmetic gives. -/
structure IsEntry (f : FileMatches) (given : Option Rescore) (value : ℚ) (r : SearchResult) : Prop where
  filed : r.filed = { f with context := "" }
  explanation : r.explanation = given.map (·.explanation)
  score : r.score = (given.map fun g => blend (average f) g.score).getD (average f)
  number : number? r.score = some value
  near : Countable f.matched → |value - exactScore f.matched (given.bind fun g => number? g.score)| ≤ 1 / 2 ^ 44

theorem isEntry_entries {files : List FileMatches} (answers : List (Except Failure String)) {i : ℕ} {f : FileMatches}
    (hf : files[i]? = some f) :
    ∃ r, (entries files answers)[i]? = some r ∧
      IsEntry f (answers[i]?.bind Rescore.given?) (scoreAt files answers i) r := by
  generalize hgiven : answers[i]?.bind Rescore.given? = given
  have hr : (entries files answers)[i]? = some (scored f given) := by
    rw [getElem?_entries, hf, hgiven]
    rfl
  have hvalid : ∀ g ∈ given, g.isValid = true := by
    rintro g rfl
    obtain ⟨answer, -, hanswer⟩ := Option.bind_eq_some_iff.1 hgiven
    exact Rescore.isValid_of_given? hanswer
  have hscore := hasScore_scored f hvalid
  have hvalue : scoreAt files answers i = (scored f given).value := by simp [scoreAt, hr]
  refine ⟨scored f given, hr, rfl, rfl, ?_, ?_, ?_⟩
  · cases given <;> rfl
  · rw [hvalue]
    exact SearchResult.number?_score hscore.exists_number?
  · intro hcount
    rw [hvalue]
    exact hscore.near hcount

/-- Every score in a ranking is a number. -/
theorem exists_number?_of_mem_entries {files : List FileMatches} {answers : List (Except Failure String)}
    {r : SearchResult} (hr : r ∈ entries files answers) : ∃ q, number? r.score = some q := by
  obtain ⟨i, hi⟩ := List.mem_iff_getElem?.1 hr
  have hfile := hi
  rw [getElem?_entries] at hfile
  obtain ⟨f, hf, -⟩ := Option.map_eq_some_iff.1 hfile
  obtain ⟨r', hr', hentry⟩ := isEntry_entries answers hf
  obtain rfl : r = r' := Option.some.inj (hi.symm.trans hr')
  exact ⟨_, hentry.number⟩

/-- **A ranking is the stable sort of what is said of each file**, cut off.

* A score is asked for file by file in their order, or none is if settings say so; nothing
  else is asked. The size of the batches matters neither to this nor to the results.
* What is said of a file is its average without an explanation, or, if the answer for the file
  gives a score from 0 to 100, their blend and the explanation. Scores are floats, but
  each is a number, and within `2 ^ -44` of what exact arithmetic gives.
* The results are the first of all files by score. Each file stands at one place; those of one
  score stay in their order, and nothing that is cut off has a higher score than what is kept.
* Whatever the answer for one file is instead, the others stay in order. -/
theorem rank_eq_stableSort (generator : Generator σ) (settings : SearchSettings) (query : String)
    (files : List FileMatches) (state : σ) :
    let requests := rescores settings query files
    let answers := (askAll generator requests state).1
    let last := (askAll generator requests state).2
    let results := (rank generator settings query files state).1
    (∀ size, rank generator { settings with batchSize := size } query files state = (results, last) ∧
      (rank (logged generator) { settings with batchSize := size } query files ([], state)).2 = (requests, last)) ∧
    (∀ i f, files[i]? = some f → ∃ r, (entries files answers)[i]? = some r ∧
      IsEntry f (answers[i]?.bind Rescore.given?) (scoreAt files answers i) r) ∧
    ∃ places, Ranked (scoreAt files answers) files.length places ∧
      results.map some = (places.take settings.maxResults).map ((entries files answers)[·]?) ∧
      (∀ i ∈ places.take settings.maxResults, ∀ j ∈ places.drop settings.maxResults,
        scoreAt files answers j ≤ scoreAt files answers i) ∧
      ∀ answers' k, (∀ i, i ≠ k → answers[i]? = answers'[i]?) →
        ∀ places', Ranked (scoreAt files answers') files.length places' →
          places.filter (· ≠ k) = places'.filter (· ≠ k) := by
  intro requests answers last results
  have hrank (size : ℕ) : rank generator { settings with batchSize := size } query files state =
      ((byScore (entries files answers)).take settings.maxResults, last) := by
    unfold rank
    rw [scoreBatches_eq]
    rfl
  have hresults : results = (byScore (entries files answers)).take settings.maxResults :=
    congrArg Prod.fst (hrank settings.batchSize)
  refine ⟨?_, fun i f hf => isEntry_entries answers hf, ?_⟩
  · intro size
    refine ⟨hresults ▸ hrank size, ?_⟩
    unfold rank
    rw [scoreBatches_eq]
    show (askAll (logged generator) requests ([], state)).2 = (requests, last)
    rw [askAll_logged]
    rfl
  obtain ⟨places, hplaces, hsort⟩ := exists_ranked SearchResult.value (entries files answers)
  have hlength : (entries files answers).length = files.length := List.length_mapIdx
  rw [hlength] at hplaces
  rw [← byScore_eq fun r hr => exists_number?_of_mem_entries hr] at hsort
  refine ⟨places, hplaces, ?_, fun i hi j hj => hplaces.le_of_mem_take hi hj, ?_⟩
  · rw [hresults, List.map_take, hsort, List.map_take]
  · intro answers' k hsame places' hplaces'
    apply hplaces.filter_ne_eq hplaces'
    intro i hi
    show scoreAt files answers i = scoreAt files answers' i
    unfold scoreAt
    rw [getElem?_entries, getElem?_entries, hsame i hi]

/-! ## Rounded scores -/

theorem byScore_swap {a b : SearchResult} (h : ¬b.score ≤ a.score) : byScore [a, b] = [b, a] := by
  unfold byScore
  rw [List.mergeSort]
  simp [h, List.MergeSort.Internal.splitInTwo]

/-- A generator that gives the answers of a list. -/
def listed : Generator (List String) := fun _ answers => (.ok (answers.headD ""), answers.tail)

/-- A file with one match. -/
def single (path : String) (score : ℕ) : FileMatches :=
  ⟨⟨default, "a/b"⟩, ⟨path, "python"⟩, [⟨.function, "f", "f()", 1, 1, score, "name contains query"⟩], "a/b"⟩

/-- **Rounding breaks a tie.** In exact arithmetic two files have the score 22.1, and the first
of them would come first. The float of the first is lower in its last place, so the second
comes first, and is the only one that is kept. -/
theorem rank_breaks_tie :
    exactScore (single "a.py" 20).matched (some 23) = 221 / 10 ∧
      exactScore (single "b.py" 27).matched (some 20) = 221 / 10 ∧
      (rank listed { maxResults := 1 } "f" [single "a.py" 20, single "b.py" 27]
        ["\x7b\"score\": 23\x7d", "\x7b\"score\": 20\x7d"]).1.map (·.file.path) = ["b.py"] := by
  refine ⟨by norm_num [exactScore, mean, single], by norm_num [exactScore, mean, single], ?_⟩
  have hlower : ¬(scored (single "b.py" 27) (Rescore.given? (.ok "\x7b\"score\": 20\x7d"))).score ≤
      (scored (single "a.py" 20) (Rescore.given? (.ok "\x7b\"score\": 23\x7d"))).score := by
    decide +kernel
  unfold rank
  rw [scoreBatches_eq]
  exact congrArg (fun rs => (rs.take 1).map (·.file.path)) (byScore_swap hlower)

end CodeAtlas.Search
