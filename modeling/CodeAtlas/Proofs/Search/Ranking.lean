import CodeAtlas.Proofs.Decimal.Floats
import CodeAtlas.Proofs.Search.Sources
import Mathlib.Algebra.Ring.Nat

/-!
# Scores of files

The score of a file is a float: the mean of the scores of its matches, rounded, or that and
a generator's score in the proportion of three to seven. It keeps to the limits that it has in
exact arithmetic, and it can always be compared, so that results can be put in order.

* `mean`, `exactScore`: scores in exact arithmetic.
* `HasScore`: the score of a result and what a generator gave for it.
* `HasScore.bounds`: **a score is positive and at most 100.**
* `pairwise_byScore`: **results are in order.**
* `rank_spec`: what a ranking makes of files.
-/

namespace CodeAtlas.Search

open Decimal

variable {σ β : Type}

/-! ## Averages -/

/-- The mean of the scores of matches. -/
def mean (ms : List Match) : ℚ := ((ms.map (·.score)).sum : ℕ) / ms.length

theorem sum_bounds {ms : List Match} (lo hi : ℕ) (h : ∀ m ∈ ms, lo ≤ m.score ∧ m.score ≤ hi) :
    lo * ms.length ≤ (ms.map (·.score)).sum ∧ (ms.map (·.score)).sum ≤ hi * ms.length := by
  induction ms with
  | nil => simp
  | cons m ms ih =>
    obtain ⟨hlow, hhigh⟩ := h m List.mem_cons_self
    obtain ⟨ihlow, ihhigh⟩ := ih fun m' hm' => h m' (List.mem_cons_of_mem _ hm')
    simp only [List.map_cons, List.sum_cons, List.length_cons, Nat.mul_succ]
    omega

/-- **An average** is that of what 32 bits keep of the sum. -/
theorem average_eq (f : FileMatches) :
    average f = if f.matched.isEmpty then 0.0
      else Float.ofNat ((f.matched.map (·.score)).sum % UInt32.size) / Float.ofNat f.matched.length := by
  rw [average, List.sum_eq_foldl, List.foldl_map]

theorem Relevant.mean_bounds {ms : List Match} (h : Relevant ms) : 15 < mean ms ∧ mean ms ≤ 100 := by
  obtain ⟨hlow, hhigh⟩ := sum_bounds 16 100 h.scores
  have hlen : (0 : ℚ) < ms.length := by exact_mod_cast List.length_pos_of_ne_nil h.ne_nil
  unfold mean
  rw [lt_div_iff₀ hlen, div_le_iff₀ hlen]
  have hlow' : (16 : ℚ) * ms.length ≤ ((ms.map (·.score)).sum : ℕ) := by exact_mod_cast hlow
  exact ⟨by linarith, by exact_mod_cast hhigh⟩

/-- An average is a number, however many matches there are. -/
theorem number?_average (f : FileMatches) : ∃ q, number? (average f) = some q ∧ q ≤ 2 ^ 32 := by
  rw [average_eq]
  split_ifs with hnone
  · exact ⟨0, number?_zero, by norm_num⟩
  have hlen : 1 ≤ f.matched.length := List.length_pos_of_ne_nil (by simpa using hnone)
  -- a sum that leaves 32 bits starts again from zero, and so stays a number
  have hsum : (f.matched.map (·.score)).sum % UInt32.size < 2 ^ 32 := Nat.mod_lt _ (by decide)
  generalize (f.matched.map (·.score)).sum % UInt32.size = n at hsum
  have hnum := number?_ofNat (n := n) (by omega)
  have hone : IsShort 1 := by simpa using isShort_natCast (n := 1) (by decide)
  obtain ⟨r, hr, ⟨-, hlen'⟩ | ⟨-, hinf⟩⟩ := isRounding_ofNat f.matched.length
  · have hr1 : 1 ≤ r := hr.short_le hone (by exact_mod_cast hlen)
    have hn : (n : ℚ) ≤ 2 ^ 32 := by exact_mod_cast hsum.le
    have hle : (n : ℚ) / r ≤ 2 ^ 32 := (div_le_self n.cast_nonneg hr1).trans hn
    have hnonneg : 0 ≤ (n : ℚ) / r := div_nonneg n.cast_nonneg (by linarith)
    obtain ⟨q, hq, hnumq⟩ := (isRounding_div hnum hlen' (by linarith)).exists_number? hnonneg
      (hle.trans (by norm_num))
    exact ⟨q, hnumq, hq.le_short (isShort_two_zpow (e := 32) (by decide)) hnonneg hle⟩
  · exact ⟨0, number?_div_of_isInfinite hnum hinf, by norm_num⟩

/-- **An average keeps to the limits of the scores** if their sum is not too large. -/
theorem number?_average_of_relevant {f : FileMatches} (h : Relevant f.matched)
    (hsum : (f.matched.map (·.score)).sum < 2 ^ 32) :
    ∃ q, number? (average f) = some q ∧ 15 ≤ q ∧ q ≤ 100 := by
  obtain ⟨hlow, hhigh⟩ := h.mean_bounds
  have hlen : 1 ≤ f.matched.length := List.length_pos_of_ne_nil h.ne_nil
  have hlen' := (sum_bounds 16 100 h.scores).1
  have hmod := Nat.mod_eq_of_lt (show (f.matched.map (·.score)).sum < UInt32.size from hsum)
  have hnot : f.matched.isEmpty = false := by simpa using h.ne_nil
  rw [average_eq, hnot, if_neg Bool.false_ne_true, hmod]
  have hround := isRounding_div (number?_ofNat (n := (f.matched.map (·.score)).sum) (by omega))
    (number?_ofNat (n := f.matched.length) (by omega)) (by exact_mod_cast hlen)
  change IsRounding _ (mean f.matched) at hround
  obtain ⟨q, hq, hnum⟩ := hround.exists_number? (by linarith) (hhigh.trans (by norm_num))
  have hshort (n : ℕ) (hn : n < 2 ^ 53) : IsShort n := isShort_natCast hn
  exact ⟨q, hnum, hq.short_le (hshort 15 (by decide)) hlow.le, hq.le_short (hshort 100 (by decide)) (by linarith) hhigh⟩

/-! ## Blends -/

/-- The weight of an average. -/
theorem number?_threeTenths : ∃ w, number? 0.3 = some w ∧ 3 / 10 - 1 / 2 ^ 53 ≤ w ∧ w ≤ 3 / 10 := by
  have h : (0.3 : Float).toModel.unpack = .finite .positive 5404319552844595 (-54) (by decide) := rfl
  simp only [number?, h]
  refine ⟨_, rfl, ?_, ?_⟩ <;> norm_num

/-- The weight of a generator's score. -/
theorem number?_sevenTenths : ∃ w, number? 0.7 = some w ∧ 7 / 10 - 1 / 2 ^ 53 ≤ w ∧ w ≤ 7 / 10 := by
  have h : (0.7 : Float).toModel.unpack = .finite .positive 6305039478318694 (-53) (by decide) := rfl
  simp only [number?, h]
  refine ⟨_, rfl, ?_, ?_⟩ <;> norm_num

theorem number?_hundred : number? 100.0 = some 100 := by
  have h : (100.0 : Float).toModel.unpack = .finite .positive (100 * 2 ^ 46) (-46) (by decide) := rfl
  simp only [number?, h]
  norm_num

/-- **A blend keeps to the limits of its parts.** -/
theorem number?_blend {a x : Float} {p q : ℚ} (ha : number? a = some p) (hp : p ≤ 2 ^ 32)
    (hx : number? x = some q) (hq : q ≤ 100) :
    ∃ r, number? (blend a x) = some r ∧ (p ≤ 100 → r ≤ 100) ∧ (15 ≤ p → 4 ≤ r) := by
  obtain ⟨v, hv, hvnear, hvhigh⟩ := number?_threeTenths
  obtain ⟨w, hw, hwnear, hwhigh⟩ := number?_sevenTenths
  have hvlow : 27 / 100 ≤ v := le_trans (by norm_num) hvnear
  have hwlow : 0 ≤ w := le_trans (by norm_num) hwnear
  have hp0 := number?_nonneg ha
  have hq0 := number?_nonneg hx
  have hshort (n : ℕ) (hn : n < 2 ^ 53) : IsShort n := isShort_natCast hn
  have hvp : v * p ≤ 3 / 10 * p := mul_le_mul_of_nonneg_right hvhigh hp0
  have hvp0 : 0 ≤ v * p := mul_nonneg (by linarith) hp0
  have hwq : w * q ≤ 70 := (mul_le_mul hwhigh hq hq0 (by norm_num)).trans (by norm_num)
  have hwq0 : 0 ≤ w * q := mul_nonneg hwlow hq0
  obtain ⟨y, hy, hnumy⟩ := (isRounding_mul hv ha).exists_number? hvp0 (by linarith)
  obtain ⟨z, hz, hnumz⟩ := (isRounding_mul hw hx).exists_number? hwq0 (by linarith)
  have hz70 : z ≤ 70 := hz.le_short (hshort 70 (by decide)) hwq0 hwq
  have hy32 : y ≤ 2 ^ (32 : ℤ) := hy.le_short (isShort_two_zpow (by decide)) hvp0 (by norm_num; linarith)
  have hyz0 : 0 ≤ y + z := add_nonneg hy.nonneg hz.nonneg
  have hyz : y + z ≤ 2 ^ 100 := (add_le_add hy32 hz70).trans (by norm_num)
  obtain ⟨r, hr, hnum⟩ := (isRounding_add hnumy hnumz).exists_number? hyz0 hyz
  -- no step of the rounding passes 30, 70, 100 or 4, which are floats themselves
  refine ⟨r, hnum, fun hp100 => ?_, fun hp15 => ?_⟩
  · have hy30 : y ≤ 30 := hy.le_short (hshort 30 (by decide)) hvp0 (hvp.trans (by linarith))
    exact hr.le_short (hshort 100 (by decide)) hyz0 (by linarith)
  · have hy4 : 4 ≤ y := hy.short_le (hshort 4 (by decide)) (by
      have := mul_le_mul_of_nonneg_right hvlow hp0
      linarith)
    exact hr.short_le (hshort 4 (by decide)) (by linarith [hz.nonneg])

/-- A score that a generator gives is a number. -/
theorem Rescore.number?_score {r : Rescore} (h : r.isValid = true) : ∃ q, number? r.score = some q ∧ q ≤ 100 := by
  simp only [Rescore.isValid, Bool.and_eq_true, decide_eq_true_eq] at h
  obtain ⟨q, hq⟩ := exists_number?_of_le_of_le number?_zero number?_hundred h.1 h.2
  exact ⟨q, hq, (le_iff hq number?_hundred).1 h.2⟩

/-! ## Results -/

/-- The score in exact arithmetic: the mean of the matches, or three parts of it and seven of what
a generator gave. -/
def exactScore (ms : List Match) : Option ℚ → ℚ
  | none => mean ms
  | some q => 3 / 10 * mean ms + 7 / 10 * q

/-- **An exact score is positive and at most 100.** -/
theorem Relevant.exactScore_bounds {ms : List Match} (h : Relevant ms) {given : Option ℚ}
    (hgiven : ∀ q ∈ given, 0 ≤ q ∧ q ≤ 100) : 0 < exactScore ms given ∧ exactScore ms given ≤ 100 := by
  obtain ⟨hlow, hhigh⟩ := h.mean_bounds
  cases given with
  | none => exact ⟨lt_trans (by norm_num) hlow, hhigh⟩
  | some q =>
    obtain ⟨hq0, hq100⟩ := hgiven q rfl
    simp only [exactScore]
    exact ⟨by linarith, by linarith⟩

/-- The file of a result, without what is said of its repository. -/
def SearchResult.filed (r : SearchResult) : FileMatches := ⟨r.repository, r.file, r.matched, ""⟩

/-- **The score of a result**, and what a generator gave for it, if it gave something that counts. -/
def SearchResult.HasScore (r : SearchResult) : Option ℚ → Prop
  | none => r.score = average r.filed
  | some q => q ≤ 100 ∧ ∃ x, number? x = some q ∧ r.score = blend (average r.filed) x

/-- **A result tells of a file.** -/
structure Tells (f : FileMatches) (r : SearchResult) : Prop where
  filed : r.filed = { f with context := "" }
  score : ∃ given, r.HasScore given

theorem SearchResult.HasScore.given_bounds {r : SearchResult} {given : Option ℚ} (h : r.HasScore given) :
    ∀ q ∈ given, 0 ≤ q ∧ q ≤ 100 := by
  rintro q ⟨⟩
  obtain ⟨hq, x, hx, -⟩ := h
  exact ⟨number?_nonneg hx, hq⟩

/-- Every score is a number. -/
theorem SearchResult.HasScore.exists_number? {r : SearchResult} {given : Option ℚ} (h : r.HasScore given) :
    ∃ q, number? r.score = some q := by
  obtain ⟨p, hp, hp32⟩ := number?_average r.filed
  cases given with
  | none => exact ⟨p, h ▸ hp⟩
  | some q =>
    obtain ⟨hq, x, hx, hscore⟩ := h
    obtain ⟨v, hv, -⟩ := number?_blend hp hp32 hx hq
    exact ⟨v, hscore ▸ hv⟩

/-- **A score is positive and at most 100** if the scores of the matches have a sum below 2^32. -/
theorem SearchResult.HasScore.bounds {r : SearchResult} {given : Option ℚ} (h : r.HasScore given)
    (hrelevant : Relevant r.matched) (hsum : (r.matched.map (·.score)).sum < 2 ^ 32) :
    0.0 < r.score ∧ r.score ≤ 100.0 := by
  obtain ⟨v, hv, hpos, hle⟩ : ∃ v, number? r.score = some v ∧ 0 < v ∧ v ≤ 100 := by
    obtain ⟨p, hp, hp15, hp100⟩ := number?_average_of_relevant (f := r.filed) hrelevant hsum
    cases given with
    | none => exact ⟨p, h ▸ hp, by linarith, hp100⟩
    | some q =>
      obtain ⟨hq, x, hx, hscore⟩ := h
      obtain ⟨v, hv, hhigh, hlow⟩ := number?_blend hp (by linarith) hx hq
      exact ⟨v, hscore ▸ hv, by linarith [hlow hp15], hhigh hp100⟩
  exact ⟨(lt_iff number?_zero hv).2 hpos, (le_iff hv number?_hundred).2 hle⟩

/-! ## The order -/

/-- The number that a score stands for. -/
def SearchResult.value (r : SearchResult) : ℚ := (number? r.score).getD 0

theorem SearchResult.number?_score {r : SearchResult} (h : ∃ q, number? r.score = some q) :
    number? r.score = some r.value := by
  obtain ⟨q, hq⟩ := h
  simp [value, hq]

/-- **Floats are not in order, numbers are**; results are sorted by the numbers that their scores stand for. -/
theorem byScore_eq {rs : List SearchResult} (h : ∀ r ∈ rs, ∃ q, number? r.score = some q) :
    byScore rs = rs.mergeSort fun r r' => r'.value ≤ r.value := by
  have := List.map_mergeSort (r := fun r r' : SearchResult => decide (r'.score ≤ r.score))
    (s := fun r r' => decide (r'.value ≤ r.value)) (f := id) (l := rs)
    fun r hr r' hr' => by
      simpa using le_iff (SearchResult.number?_score (h r' hr')) (SearchResult.number?_score (h r hr))
  simpa [byScore] using this

/-- **Results are in order** if their scores are numbers. -/
theorem pairwise_byScore {rs : List SearchResult} (h : ∀ r ∈ rs, ∃ q, number? r.score = some q) :
    (byScore rs).Pairwise fun r r' => r'.score ≤ r.score := by
  have hmem : ∀ r ∈ byScore rs, ∃ q, number? r.score = some q := fun r hr =>
    h r ((List.mergeSort_perm _ _).mem_iff.1 hr)
  have hsorted := pairwise_mergeSort SearchResult.value rs
  rw [← byScore_eq h] at hsorted
  refine hsorted.imp_of_mem fun {r r'} hr hr' hle => ?_
  exact (le_iff (SearchResult.number?_score (hmem r' hr')) (SearchResult.number?_score (hmem r hr))).2 hle

/-! ## Files in a ranking -/

theorem hasScore_scored (f : FileMatches) {rescore : Option Rescore} (h : ∀ r ∈ rescore, r.isValid = true) :
    (scored f rescore).HasScore (rescore.bind fun r => number? r.score) := by
  cases rescore with
  | none => rfl
  | some r =>
    obtain ⟨q, hq, hle⟩ := Rescore.number?_score (h r rfl)
    rw [Option.bind_some, hq]
    exact ⟨hle, r.score, hq, rfl⟩

theorem tells_scored (f : FileMatches) {rescore : Option Rescore} (h : ∀ r ∈ rescore, r.isValid = true) :
    Tells f (scored f rescore) :=
  ⟨rfl, _, hasScore_scored f h⟩

namespace Rescore

/-- **The score that an answer gives.** There is none if the answer is a failure, if it cannot be read or
if the score is not from 0 to 100. -/
def given? : Except Failure String → Option Rescore
  | .error _ => none
  | .ok text => (parseStructured decode text).toOption.filter isValid

theorem isValid_of_given? {answer : Except Failure String} {r : Rescore} (h : r ∈ given? answer) :
    r.isValid = true := by
  cases answer with
  | error e => cases h
  | ok text => exact (Option.filter_eq_some_iff.1 h).2

theorem ask_eq (generator : Generator σ) (query : String) (f : FileMatches) (state : σ) :
    ask generator query f state =
      (given? (generator (request query f) state).1, (generator (request query f) state).2) := by
  unfold ask generateStructured
  rcases generator (request query f) state with ⟨_ | text, after⟩
  · rfl
  · cases h : parseStructured decode text with
    | error e => simp [given?, h, Except.toOption]
    | ok r => by_cases hvalid : r.isValid <;> simp [given?, h, hvalid, Except.toOption, Option.filter]

theorem isValid_of_ask {generator : Generator σ} {query : String} {f : FileMatches} {state : σ} {r : Rescore}
    (h : r ∈ (ask generator query f state).1) : r.isValid = true := by
  rw [ask_eq] at h
  exact isValid_of_given? h

end Rescore

variable (generator : Generator σ) (settings : SearchSettings) (query : String)

theorem tells_scoreFile (f : FileMatches) (state : σ) : Tells f (scoreFile generator settings query f state).1 := by
  unfold scoreFile
  split_ifs
  · exact tells_scored f fun r hr => Rescore.isValid_of_ask hr
  · exact @tells_scored f none (by simp)

theorem tells_scoreBatch (fs : List FileMatches) (state : σ) :
    List.Forall₂ Tells fs (scoreBatch generator settings query fs state).1 := by
  induction fs generalizing state with
  | nil => exact .nil
  | cons f fs ih => exact .cons (tells_scoreFile generator settings query f state) (ih _)

theorem tells_scoreBatches (bs : List (List FileMatches)) (state : σ) :
    List.Forall₂ Tells bs.flatten (scoreBatches generator settings query bs state).1 := by
  induction bs generalizing state with
  | nil => exact .nil
  | cons b bs ih => exact List.rel_append (tells_scoreBatch generator settings query b state) (ih _)

/-- **A ranking tells of distinct sources in order**, and of so many at most. -/
theorem rank_spec {R : FileMatches → β → Prop} {files : List FileMatches} (h : Distinctly R files) (state : σ) :
    let results := (rank generator settings query files state).1
    results.length ≤ settings.maxResults ∧ results.Pairwise (fun r r' => r'.score ≤ r.score) ∧
      Distinctly (fun r source => ∃ f, Tells f r ∧ R f source) results := by
  have htells := tells_scoreBatches generator settings query (batches settings.batchSize files) state
  rw [flatten_batches] at htells
  unfold rank
  dsimp only
  generalize (scoreBatches generator settings query (batches settings.batchSize files) state).1 = rs at htells
  refine ⟨List.length_take_le _ _, (pairwise_byScore fun r hr => ?_).take, ?_⟩
  · obtain ⟨f, -, hf⟩ := exists_of_mem_right htells hr
    obtain ⟨given, hgiven⟩ := hf.score
    exact hgiven.exists_number?
  · exact ((h.made htells).perm (List.mergeSort_perm _ _)).take _

end CodeAtlas.Search
