import CodeAtlas.Proofs.Search.Stream
import CodeAtlas.Proofs.Store.Repositories
import Mathlib.Data.List.Nodup
import Mathlib.Data.List.Perm.Basic
import Mathlib.Tactic.MkIffOfInductiveProp

/-!
# Where files are found

A file that is found belongs to a repository that is searched, and is an artifact of the
repository's analysis that has been parsed, or stands for its index if there is none.

* `Distinctly`: the members of a list come from distinct sources.
* `Relevant`: the matches of a file.
* `ComesFrom`: a file and its source.
* `distinctly_matchAll`: **no source gives two files.**
-/

namespace CodeAtlas.Search

variable {α β γ κ : Type}

/-! ## Distinct sources -/

theorem exists_of_mem_right {R : α → β → Prop} {l : List α} {bs : List β} (h : List.Forall₂ R l bs) {b : β}
    (hb : b ∈ bs) : ∃ a ∈ l, R a b := by
  induction h with
  | nil => cases hb
  | @cons a b' l bs hab _ ih =>
    rcases List.mem_cons.1 hb with rfl | hb
    · exact ⟨a, List.mem_cons_self, hab⟩
    · obtain ⟨c, hc, hcb⟩ := ih hb
      exact ⟨c, List.mem_cons_of_mem _ hc, hcb⟩

/-- What is made of some members comes from some of their sources, in the same order. -/
theorem exists_pairwise_filterMap {R : α → β → Prop} {S : γ → β → Prop} {lt : β → β → Prop} {l : List α} {bs : List β}
    (h : List.Forall₂ R l bs) (hbs : bs.Pairwise lt) {f : α → Option γ}
    (hf : ∀ a b c, R a b → f a = some c → S c b) : ∃ cs, List.Forall₂ S (l.filterMap f) cs ∧ cs.Pairwise lt := by
  obtain ⟨cs, hsub, hcs⟩ : ∃ cs, cs.Sublist bs ∧ List.Forall₂ S (l.filterMap f) cs := by
    clear hbs
    induction h with
    | nil => exact ⟨[], .slnil, .nil⟩
    | @cons a b l bs hab _ ih =>
      obtain ⟨cs, hsub, hcs⟩ := ih
      cases hfa : f a with
      | none =>
        rw [List.filterMap_cons_none hfa]
        exact ⟨cs, hsub.cons b, hcs⟩
      | some c =>
        rw [List.filterMap_cons_some hfa]
        exact ⟨b :: cs, hsub.cons_cons b, .cons (hf a b c hab hfa) hcs⟩
  exact ⟨cs, hcs, hbs.sublist hsub⟩

/-- **The members of a list come from distinct sources.** -/
def Distinctly (R : α → β → Prop) (l : List α) : Prop := ∃ bs, List.Forall₂ R l bs ∧ bs.Nodup

namespace Distinctly

variable {R : α → β → Prop} {S : γ → β → Prop} {l m : List α}

theorem nil : Distinctly R [] := ⟨[], .nil, List.nodup_nil⟩

theorem perm (h : Distinctly R l) (hm : m.Perm l) : Distinctly R m := by
  obtain ⟨bs, hbs, hnd⟩ := h
  obtain ⟨cs, hcs, hperm⟩ := List.perm_comp_forall₂ hm hbs
  exact ⟨cs, hcs, hperm.nodup_iff.2 hnd⟩

theorem take (h : Distinctly R l) (n : ℕ) : Distinctly R (l.take n) := by
  obtain ⟨bs, hbs, hnd⟩ := h
  exact ⟨bs.take n, List.forall₂_take n hbs, hnd.sublist (List.take_sublist n bs)⟩

/-- What is made of each member comes from its source. -/
theorem made (h : Distinctly R l) {M : α → γ → Prop} {cs : List γ} (hcs : List.Forall₂ M l cs) :
    Distinctly (fun c b => ∃ a, M a c ∧ R a b) cs := by
  obtain ⟨bs, hbs, hnd⟩ := h
  refine ⟨bs, ?_, hnd⟩
  clear hnd
  induction hcs generalizing bs with
  | nil => cases hbs; exact .nil
  | @cons a c l cs hac _ ih =>
    rcases hbs with _ | ⟨hab, hbs⟩
    exact .cons ⟨a, hac, hab⟩ (ih _ hbs)

/-- Members under distinct keys, each with distinct sources. -/
theorem flatMap {key : α → κ} (hl : (l.map key).Nodup) {g : α → List γ} {T : α → γ → β → Prop}
    (h : ∀ a ∈ l, Distinctly (T a) (g a)) :
    Distinctly (fun c (p : κ × β) => ∃ a ∈ l, p.1 = key a ∧ T a c p.2) (l.flatMap g) := by
  induction l with
  | nil => exact nil
  | cons a l ih =>
    obtain ⟨hnew, hl⟩ := List.nodup_cons.1 hl
    obtain ⟨bs, hbs, hnd⟩ := h a List.mem_cons_self
    obtain ⟨ps, hps, hnd'⟩ := ih hl fun b hb => h b (List.mem_cons_of_mem _ hb)
    refine ⟨bs.map (key a, ·) ++ ps, ?_, ?_⟩
    · rw [List.flatMap_cons]
      refine List.rel_append (List.forall₂_map_right_iff.2 (hbs.imp ?_)) (hps.imp ?_)
      · exact fun c b hcb => ⟨a, List.mem_cons_self, rfl, hcb⟩
      · rintro c p ⟨b, hb, hp⟩
        exact ⟨b, List.mem_cons_of_mem _ hb, hp⟩
    · refine List.nodup_append.2 ⟨hnd.map fun b c hbc => (Prod.mk.inj hbc).2, hnd', ?_⟩
      rintro p hp q hq rfl
      obtain ⟨b, -, rfl⟩ := List.mem_map.1 hp
      obtain ⟨c, -, a', ha', hkey, -⟩ := exists_of_mem_right hps hq
      have hkey : key a = key a' := hkey
      exact hnew (hkey ▸ List.mem_map_of_mem ha')

end Distinctly

/-! ## Matches -/

/-- **The matches of a file that is found**: the best first, each above all thresholds there are. -/
structure Relevant (ms : List Match) : Prop where
  ne_nil : ms ≠ []
  sorted : ms.Pairwise fun m m' => m'.score ≤ m.score
  scores : ∀ m ∈ ms, 15 < m.score ∧ m.score ≤ 100

theorem pairwise_mergeSort [LE κ] [DecidableLE κ] [Std.IsLinearPreorder κ] (key : α → κ) (l : List α) :
    (l.mergeSort fun a b => key b ≤ key a).Pairwise fun a b => key b ≤ key a := by
  have hsorted := @List.pairwise_mergeSort α (fun a b => decide (key b ≤ key a))
    (fun a b c hab hbc => by simp only [decide_eq_true_eq] at *; exact Std.le_trans hbc hab)
    (fun a b => by simpa using Std.le_total) l
  exact hsorted.imp of_decide_eq_true

theorem score_of_match? {c : Candidate} {m : Match} (h : c.match? = some m) :
    c.threshold < m.score ∧ m.score ≤ 100 := by
  obtain ⟨habove, rfl⟩ := Candidate.match?_eq_some_iff.1 h
  exact ⟨habove, Nat.min_le_right _ _⟩

theorem fifteen_le_threshold {a : Outline.Artifact} {n : Needles} {c : Candidate} (h : c ∈ candidates a n) :
    15 ≤ c.threshold := by
  simp only [candidates, List.mem_append, List.mem_map] at h
  rcases h with (((⟨f, -, rfl⟩ | ⟨k, -, rfl⟩) | ⟨v, -, rfl⟩) | ⟨i, -, rfl⟩) | ⟨t, -, rfl⟩ <;> simp

theorem relevant_bestFirst {cs : List Candidate} (hcs : ∀ c ∈ cs, 15 ≤ c.threshold)
    (hne : bestFirst (cs.filterMap Candidate.match?) ≠ []) : Relevant (bestFirst (cs.filterMap Candidate.match?)) := by
  refine ⟨hne, pairwise_mergeSort Match.score (cs.filterMap Candidate.match?), fun m hm => ?_⟩
  rw [bestFirst, (List.mergeSort_perm _ _).mem_iff, List.mem_filterMap] at hm
  obtain ⟨c, hc, hcm⟩ := hm
  obtain ⟨hlow, hhigh⟩ := score_of_match? hcm
  exact ⟨Nat.lt_of_le_of_lt (hcs c hc) hlow, hhigh⟩

theorem relevant_matchArtifact {a : Outline.Artifact} {n : Needles} (hne : matchArtifact a n ≠ []) :
    Relevant (matchArtifact a n) := relevant_bestFirst (fun _ hc => fifteen_le_threshold hc) hne

theorem relevant_matchIndex {i : Index} {n : Needles} (hne : matchIndex i n ≠ []) : Relevant (matchIndex i n) := by
  have hwords : matchIndex i n = bestFirst (((i.keywords ++ i.directories ++ i.fileTypes).map fun word =>
      Candidate.mk .general word word {} (keywordAwards word n) 25).filterMap Candidate.match?) := by
    rw [List.filterMap_map]
    rfl
  rw [hwords] at hne ⊢
  refine relevant_bestFirst (fun c hc => ?_) hne
  obtain ⟨word, -, rfl⟩ := List.mem_map.1 hc
  simp

/-! ## Files -/

/-- **Where a file is found** in the result of an analysis: an artifact that has been parsed, at
its place among the artifacts, or the index, if no artifact has been parsed. -/
def StandsAt (result : Result) (n : Needles) (file : FileRef) (matched : List Match) : Option ℕ → Prop
  | some i => ∃ artifact, result.artifacts[i]? = some artifact ∧ artifact.parseSuccess = true ∧
      file = ⟨artifact.path, artifact.language⟩ ∧ matched = matchArtifact artifact n
  | none => (∀ artifact ∈ result.artifacts, artifact.parseSuccess = false) ∧ file = ⟨".", "index"⟩ ∧
      matched = matchIndex result.index n

theorem StandsAt.relevant {result : Result} {n : Needles} {file : FileRef} {ms : List Match} {place : Option ℕ}
    (h : StandsAt result n file ms place) (hne : ms ≠ []) : Relevant ms := by
  cases place with
  | some i =>
    obtain ⟨artifact, -, -, -, rfl⟩ := h
    exact relevant_matchArtifact hne
  | none =>
    obtain ⟨-, -, rfl⟩ := h
    exact relevant_matchIndex hne

/-- A file of a repository with its place in the result. -/
def IsFileOf (n : Needles) (p : Repository × Analysis) (f : FileMatches) (place : Option ℕ) : Prop :=
  ∃ result, p.2.result = some result ∧ f.repository = ⟨p.1.id, p.1.fullName⟩ ∧ f.matched ≠ [] ∧
    StandsAt result n f.file f.matched place

/-- **One place comes before another** if both are those of artifacts. -/
def Earlier : Option ℕ → Option ℕ → Prop
  | some i, some j => i < j
  | _, _ => False

theorem Earlier.ne {a b : Option ℕ} (h : Earlier a b) : a ≠ b := by
  rintro rfl
  cases a with
  | none => exact h
  | some i => exact Nat.lt_irrefl i h

/-- The members of a list come from their places. -/
theorem forall₂_places (l : List α) :
    List.Forall₂ (fun a place => ∃ i : ℕ, place = some i ∧ l[i]? = some a) l ((List.range l.length).map some) := by
  refine List.forall₂_map_right_iff.2 (List.forall₂_iff_get.2 ⟨by simp, ?_⟩)
  intro i h₁ h₂
  simp [h₁]

/-- **The files of a repository stand in the order of its artifacts.** -/
theorem matchRepository_inOrder (n : Needles) (p : Repository × Analysis) :
    ∃ places, List.Forall₂ (IsFileOf n p) (matchRepository n p.1 p.2) places ∧ places.Pairwise Earlier := by
  unfold matchRepository
  cases hresult : p.2.result with
  | none => exact ⟨[], .nil, .nil⟩
  | some result =>
    dsimp only
    have hfound {file : FileRef} {ms : List Match} {f : FileMatches} (place : Option ℕ)
        (h : (if ms.isEmpty then none
          else some (⟨⟨p.1.id, p.1.fullName⟩, file, ms, contextOf p.1 p.2⟩ : FileMatches)) = some f)
        (hplace : StandsAt result n file ms place) : IsFileOf n p f place := by
      split_ifs at h with hms
      obtain rfl := Option.some.inj h
      exact ⟨result, hresult, rfl, by simpa using hms, hplace⟩
    by_cases hnone : (result.artifacts.filter (·.parseSuccess)).isEmpty
    · rw [if_pos hnone]
      have hunparsed : ∀ artifact ∈ result.artifacts, artifact.parseSuccess = false := by simpa using hnone
      split_ifs with hms
      · exact ⟨[], .nil, .nil⟩
      · exact ⟨[none], .cons (hfound none (if_neg hms) ⟨hunparsed, rfl, rfl⟩) .nil, List.pairwise_singleton _ _⟩
    · rw [if_neg hnone, List.filterMap_filter]
      have hplaces : ((List.range result.artifacts.length).map some).Pairwise Earlier :=
        List.pairwise_map.2 List.pairwise_lt_range
      refine exists_pairwise_filterMap (forall₂_places result.artifacts) hplaces ?_
      rintro artifact place f ⟨i, rfl, hi⟩ hf
      by_cases hparsed : artifact.parseSuccess
      · rw [if_pos hparsed] at hf
        exact hfound (some i) hf ⟨artifact, hi, hparsed, rfl, rfl⟩
      · rw [if_neg hparsed] at hf
        cases hf

/-- **No source in a repository gives two files.** -/
theorem distinctly_matchRepository (n : Needles) (p : Repository × Analysis) :
    Distinctly (IsFileOf n p) (matchRepository n p.1 p.2) := by
  obtain ⟨places, hfiles, hplaces⟩ := matchRepository_inOrder n p
  exact ⟨places, hfiles, hplaces.imp Earlier.ne⟩

/-! ## Repositories -/

/-- **A repository passes filters**: one value of each filter that is not empty fits, whatever the
case of the letters `A` to `Z`. -/
@[mk_iff]
structure Passes (r : Repository) (result : Result) (f : Filters) : Prop where
  language : f.languages ≠ [] → ∃ l ∈ f.languages, ∃ word,
    (r.primaryLanguage = some word ∨ word ∈ result.techStack.languages) ∧ Text.lowerAscii word = Text.lowerAscii l
  framework : f.frameworks ≠ [] → ∃ w ∈ f.frameworks, ∃ word ∈ result.techStack.frameworks,
    Text.lowerAscii word = Text.lowerAscii w
  complexity : ∀ c, f.complexity = some c → result.complexity = c

theorem mentions_iff {l : List String} {word : String} :
    mentions l word = true ↔ ∃ w ∈ l, Text.lowerAscii w = Text.lowerAscii word := by
  simp [mentions, Text.equalIgnoringAsciiCase_iff]

theorem passesFilters_iff {r : Repository} {a : Analysis} {f : Filters} :
    passesFilters r a f = true ↔ ∃ result, a.result = some result ∧ Passes r result f := by
  unfold passesFilters
  cases a.result with
  | none => simp
  | some result =>
    simp only [Option.some.injEq, exists_eq_left', passes_iff, Bool.and_eq_true, and_assoc]
    refine and_congr ?language (and_congr ?framework ?complexity)
    case language =>
      have hword (l : String) : (r.primaryLanguage.any (Text.equalIgnoringAsciiCase · l) = true ∨
          ∃ word ∈ result.techStack.languages, Text.lowerAscii word = Text.lowerAscii l) ↔
          ∃ word, (r.primaryLanguage = some word ∨ word ∈ result.techStack.languages) ∧
            Text.lowerAscii word = Text.lowerAscii l := by
        cases r.primaryLanguage <;> simp [Text.equalIgnoringAsciiCase_iff, or_and_right, exists_or]
      simp only [Bool.or_eq_true, List.isEmpty_iff, List.any_eq_true, mentions_iff, hword, or_iff_not_imp_left]
    case framework =>
      simp only [Bool.or_eq_true, List.isEmpty_iff, List.any_eq_true, mentions_iff, or_iff_not_imp_left]
    case complexity => cases f.complexity <;> simp

/-- **A repository that is searched**, with its analysis. -/
structure Searched (s : Store) (context : QueryContext) (r : Repository) (a : Analysis) (result : Result) : Prop where
  stored : r ∈ s.repositories
  asked : ∀ ids, context.repositories = some ids → r.id ∈ ids
  latest : (r, a) ∈ s.latestCompleted context.repositories
  repository : a.repository = r.id
  analyzed : a.result = some result
  passes : Passes r result context.filters

theorem mem_of_lastMax? {le : α → α → Bool} {l : List α} {a : α} (h : lastMax? le l = some a) : a ∈ l := by
  cases l with
  | nil => cases h
  | cons b l =>
    obtain rfl := Option.some.inj h
    clear h
    induction l generalizing b with
    | nil => exact List.mem_cons_self
    | cons c l ih =>
      rw [List.foldl_cons]
      have hrest := ih (if le b c then c else b)
      split_ifs at hrest ⊢
      · exact List.mem_cons_of_mem _ hrest
      · rcases List.mem_cons.1 hrest with h | h
        · rw [h]
          exact List.mem_cons_self
        · exact List.mem_cons_of_mem _ (List.mem_cons_of_mem _ h)

theorem mem_latestCompleted {s : Store} {ids : Option (List Ident)} {r : Repository} {a : Analysis}
    (h : (r, a) ∈ s.latestCompleted ids) :
    r ∈ s.repositories ∧ (∀ l, ids = some l → r.id ∈ l) ∧ s.latestCompletedOf? r.id = some a := by
  simp only [Store.latestCompleted, List.mem_filterMap, List.mem_filter, Option.map_eq_some_iff] at h
  obtain ⟨r', ⟨hr, hasked⟩, a', ha, heq⟩ := h
  cases heq
  refine ⟨hr, ?_, ha⟩
  rintro l rfl
  simpa using hasked

theorem searched_of_eligible {s : Store} {context : QueryContext} {r : Repository} {a : Analysis}
    (h : (r, a) ∈ eligible s context) : ∃ result, Searched s context r a result := by
  obtain ⟨hlatest, hpasses⟩ := List.mem_filter.1 h
  obtain ⟨hstored, hasked, ha⟩ := mem_latestCompleted hlatest
  obtain ⟨result, hresult, hpasses⟩ := passesFilters_iff.1 hpasses
  have hmem := mem_of_lastMax? ha
  have hrepository : a.repository = r.id := by
    have := (List.mem_filter.1 hmem).2
    simp only [Bool.and_eq_true, beq_iff_eq] at this
    exact this.1
  exact ⟨result, hstored, hasked, hlatest, hrepository, hresult, hpasses⟩

theorem eligible_ids_nodup {s : Store} (h : s.DistinctIds) (context : QueryContext) :
    ((eligible s context).map (·.1.id)).Nodup := by
  have hsub : ((eligible s context).map (·.1)).Sublist s.repositories := by
    have hpairs (l : List Repository) (g : Repository → Option Analysis) :
        ((l.filterMap fun r => (g r).map (r, ·)).map (·.1)).Sublist l := by
      induction l with
      | nil => exact .slnil
      | cons r l ih =>
        cases hr : g r with
        | none => simpa [hr] using ih.cons r
        | some a => simpa [hr] using ih
    exact ((List.filter_sublist.map _).trans (hpairs _ _)).trans List.filter_sublist
  have hids := List.Nodup.sublist (hsub.map Repository.id) h
  rwa [List.map_map] at hids

/-- **A file and its source.** -/
def ComesFrom (s : Store) (context : QueryContext) (n : Needles) (f : FileMatches) (source : Ident × Option ℕ) : Prop :=
  ∃ r a result, Searched s context r a result ∧ source.1 = r.id ∧ f.repository = ⟨r.id, r.fullName⟩ ∧
    f.matched ≠ [] ∧ StandsAt result n f.file f.matched source.2

/-- **No source gives two files.** -/
theorem distinctly_matchAll {s : Store} (h : s.DistinctIds) (context : QueryContext) (n : Needles) :
    Distinctly (ComesFrom s context n) (matchAll n (eligible s context)) := by
  have hfiles := Distinctly.flatMap (eligible_ids_nodup h context) fun p _ => distinctly_matchRepository n p
  obtain ⟨sources, hsources, hnd⟩ := hfiles.perm (List.mergeSort_perm _ _)
  refine ⟨sources, hsources.imp ?_, hnd⟩
  rintro f source ⟨⟨r, a⟩, hp, hsource, result, hresult, hrepository, hne, hstands⟩
  obtain ⟨result', hsearched⟩ := searched_of_eligible hp
  obtain rfl : result' = result := Option.some.inj (hsearched.analyzed.symm.trans hresult)
  exact ⟨r, a, result', hsearched, hsource, hrepository, hne, hstands⟩

end CodeAtlas.Search
