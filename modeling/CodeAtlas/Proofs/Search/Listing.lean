import CodeAtlas.Proofs.Search.Elements
import CodeAtlas.Proofs.Search.Sources

/-!
# The matches of a file, listed

Functions, classes, variables, imports and comments are gone through sort by sort. Each whose
score lies above the threshold of its sort gives one match, and these are sorted by their
scores. The sort is stable: what is left of it for one score is what was left before. A score
is what 32 bits keep of the points, up to 100.

* `IsStableSort`, `IsStableSort.unique`: what a stable sort is, and that there is only one.
* `Item`: whatever a match can be of, with its `points` counted out.
* `IsMatchOf`: what a match tells of its item.
* `manyTerms_lost`: an item can earn so many points that it is not found.
* `matchArtifact_isStableSort`: **the matches of a file are the stable sort of one match for
  each item above its threshold.**
-/

namespace CodeAtlas.Search

open Outline

/-! ## Stable sorts -/

section StableSort

variable {α β : Type} {key : α → ℕ} {l s t : List α}

/-- **The stable sort of a list by numbers**: it goes down, and the members with any one
number stand in it as they stood in the list. -/
structure IsStableSort (key : α → ℕ) (l sorted : List α) : Prop where
  descending : sorted.Pairwise fun a b => key b ≤ key a
  stable : ∀ v, (sorted.filter fun a => key a = v) = l.filter fun a => key a = v

theorem isStableSort_mergeSort (key : α → ℕ) (l : List α) :
    IsStableSort key l (l.mergeSort fun a b => key b ≤ key a) := by
  refine ⟨pairwise_mergeSort key l, fun v => ?_⟩
  have htrans : ∀ a b c, decide (key b ≤ key a) = true → decide (key c ≤ key b) = true →
      decide (key c ≤ key a) = true := by
    intro a b c hab hbc
    simp only [decide_eq_true_eq] at hab hbc ⊢
    omega
  have htotal : ∀ a b, (decide (key b ≤ key a) || decide (key a ≤ key b)) = true := by
    intro a b
    simp only [Bool.or_eq_true, decide_eq_true_eq]
    omega
  -- members with one number are in order, so they stay a sublist
  have hties : (l.filter fun a => key a = v).Pairwise fun a b => decide (key b ≤ key a) = true := by
    refine List.pairwise_of_forall_mem_list fun a ha b hb => ?_
    have ha : key a = v := by simpa using (List.mem_filter.1 ha).2
    have hb : key b = v := by simpa using (List.mem_filter.1 hb).2
    simp [ha, hb]
  have hsub := (List.sublist_mergeSort htrans htotal hties List.filter_sublist).filter fun a => key a = v
  rw [List.filter_filter] at hsub
  simp only [Bool.and_self] at hsub
  refine (hsub.eq_of_length ?_).symm
  exact ((List.mergeSort_perm l _).filter _).length_eq.symm

theorem mem_of_filter_eq (h : ∀ v, (s.filter fun a => key a = v) = t.filter fun a => key a = v) {a : α}
    (ha : a ∈ s) : a ∈ t := by
  have hfilter : a ∈ s.filter fun b => key b = key a := List.mem_filter.2 ⟨ha, by simp⟩
  rw [h] at hfilter
  exact (List.mem_filter.1 hfilter).1

/-- Lists that go down are equal if they are so number by number. -/
theorem eq_of_filter_eq (hs : s.Pairwise fun a b => key b ≤ key a) (ht : t.Pairwise fun a b => key b ≤ key a)
    (h : ∀ v, (s.filter fun a => key a = v) = t.filter fun a => key a = v) : s = t := by
  induction s generalizing t with
  | nil =>
    cases t with
    | nil => rfl
    | cons b t => exact absurd (mem_of_filter_eq (fun v => (h v).symm) List.mem_cons_self) List.not_mem_nil
  | cons a s ih =>
    cases t with
    | nil => exact absurd (mem_of_filter_eq h List.mem_cons_self) List.not_mem_nil
    | cons b t =>
      obtain ⟨ha, hs⟩ := List.pairwise_cons.1 hs
      obtain ⟨hb, ht'⟩ := List.pairwise_cons.1 ht
      -- both heads have the highest number there is, and are the first that have it
      have hkey : key a = key b := by
        refine Nat.le_antisymm ?_ ?_
        · rcases List.mem_cons.1 (mem_of_filter_eq h List.mem_cons_self) with rfl | hmem
          · exact Nat.le_refl _
          · exact hb a hmem
        · rcases List.mem_cons.1 (mem_of_filter_eq (fun v => (h v).symm) List.mem_cons_self) with rfl | hmem
          · exact Nat.le_refl _
          · exact ha b hmem
      have hheads := h (key a)
      rw [List.filter_cons_of_pos (by simp), List.filter_cons_of_pos (by simp [hkey])] at hheads
      obtain ⟨rfl, -⟩ := List.cons.inj hheads
      refine congrArg (a :: ·) (ih hs ht' fun v => ?_)
      have hv := h v
      by_cases hav : key a = v
      · rw [List.filter_cons_of_pos (by simpa using hav), List.filter_cons_of_pos (by simpa using hav)] at hv
        exact (List.cons.inj hv).2
      · rwa [List.filter_cons_of_neg (by simpa using hav), List.filter_cons_of_neg (by simpa using hav)] at hv

/-- **A list has one stable sort only.** -/
theorem IsStableSort.unique (hs : IsStableSort key l s) (ht : IsStableSort key l t) : s = t :=
  eq_of_filter_eq hs.descending ht.descending fun v => (hs.stable v).trans (ht.stable v).symm

/-- What is made of some members of a list, one by one. -/
theorem forall₂_filterMap {R : α → β → Prop} {p : α → Bool} {f : α → Option β}
    (h : ∀ a, (p a = true ∧ ∃ b, f a = some b ∧ R a b) ∨ p a = false ∧ f a = none) (l : List α) :
    List.Forall₂ R (l.filter p) (l.filterMap f) := by
  induction l with
  | nil => exact .nil
  | cons a l ih =>
    rcases h a with ⟨hp, b, hf, hab⟩ | ⟨hp, hf⟩
    · rw [List.filter_cons_of_pos hp, List.filterMap_cons_some hf]
      exact .cons hab ih
    · rw [List.filter_cons_of_neg (by simp [hp]), List.filterMap_cons_none hf]
      exact ih

end StableSort

/-! ## Items -/

/-- **Whatever a match can be of.** -/
inductive Item where
  | element (e : Element)
  | imported (i : ImportInfo)
  | comment (c : CommentInfo)

namespace Item

def kind : Item → MatchKind
  | .element e => e.kind
  | .imported _ => .imported
  | .comment _ => .comment

def name : Item → String
  | .element e => e.name
  | .imported i => i.source
  | .comment _ => "comment"

def snippet : Item → String
  | .element e => e.snippet
  | .imported i => i.snippet
  | .comment c => c.text

def location : Item → Location
  | .element e => e.location
  | .imported i => i.location
  | .comment c => c.location

def threshold : Item → ℕ
  | .element e => e.threshold
  | .imported _ => 30
  | .comment _ => 15

def awards (n : Needles) : Item → List Award
  | .element e => e.awards n
  | .imported i => importAwards i.source n
  | .comment c => commentAwards c.text c.isDoc n

/-- What earns the points of an item. -/
def subject : Item → Subject
  | .element e => .element e.name e.written
  | .imported i => .imported i.source
  | .comment c => .comment c.text c.isDoc

theorem awards_eq (n : Needles) (i : Item) : i.awards n = i.subject.awards n := by cases i <;> rfl

def candidate (n : Needles) (i : Item) : Candidate :=
  ⟨i.kind, i.name, i.snippet, i.location, i.awards n, i.threshold⟩

/-- All that can be found in a file, sort by sort. -/
def ofArtifact (a : Artifact) : List Item :=
  a.functions.map (fun f => .element (.function f)) ++ a.classes.map (fun c => .element (.classType c)) ++
    a.bindings.map (fun v => .element (.binding v)) ++ a.imports.map .imported ++ a.comments.map .comment

theorem candidates_eq_map (a : Artifact) (n : Needles) : candidates a n = (ofArtifact a).map (candidate n) := by
  unfold candidates ofArtifact
  simp only [List.map_append, List.map_map]
  rfl

/-! ## Points -/

/-- The text in which patterns are looked for. -/
def searched : Item → String
  | .element e => e.written
  | .imported i => Text.lower i.source
  | .comment c => Text.lower c.text

/-- The number of texts of a list that stand in the text of an item. -/
def hits (i : Item) (l : List String) : ℕ := l.countP (Text.contains i.searched ·)

/-- The text in which the query is looked for. -/
def asked : Item → String
  | .element e => Text.lower e.name
  | .imported i => Text.lower i.source
  | .comment c => Text.lower c.text

/-- Whether there is a query, and it stands in the text of an item. -/
def meetsQuery (n : Needles) (i : Item) : Bool := n.query ≠ "" && Text.contains i.asked n.query

/-- **The points of an item**, counted out. -/
def points (n : Needles) (i : Item) : ℕ :=
  match i with
  | .element _ =>
    (if i.meetsQuery n then 50 else 0) + 30 * i.hits n.terms + 25 * i.hits n.codePatterns + 20 * i.hits n.frameworkHints
  | .imported _ => (if i.meetsQuery n then 60 else 0) + 40 * i.hits n.frameworkHints + 35 * i.hits n.terms
  | .comment c => (if i.meetsQuery n then 40 else 0) + 20 * i.hits n.terms + if c.isDoc then 10 else 0

/-- **The awards of an item add up to its points.** -/
theorem sum_awards (n : Needles) (i : Item) : ((i.awards n).map (·.points)).sum = i.points n := by
  cases i with
  | element e =>
    rw [awards, Element.sum_awards, sum_queryAward]
    rfl
  | imported i =>
    simp only [awards, importAwards, List.map_append, List.sum_append, sum_patternAwards, sum_queryAward]
    rfl
  | comment c =>
    simp only [awards, commentAwards, List.map_append, List.sum_append, sum_patternAwards, sum_queryAward]
    cases hdoc : c.isDoc <;> simp [points, meetsQuery, asked, hits, searched, hdoc]

/-- The points of an item fit 32 bits if the patterns are few. -/
theorem points_lt {n : Needles} (h : n.Few) (i : Item) : i.points n < UInt32.size := by
  rw [← i.sum_awards, i.awards_eq]
  exact Subject.sum_awards_lt h i.subject

end Item

/-! ## Matches -/

theorem matchArtifact_eq (a : Artifact) (n : Needles) :
    matchArtifact a n = bestFirst ((Item.ofArtifact a).filterMap fun i => (i.candidate n).match?) := by
  rw [matchArtifact, Item.candidates_eq_map, List.filterMap_map]
  rfl

/-- **What a match tells of its item.** -/
structure IsMatchOf (n : Needles) (i : Item) (m : Match) : Prop where
  kind : m.kind = i.kind
  interface : m.kind = .interface ↔ ∃ c : ClassInfo, i = .element (.classType c) ∧ c.kind = .interface
  name : m.name = i.name
  snippet : m.snippet = i.snippet
  lineStart : m.lineStart = i.location.startLine
  lineEnd : m.lineEnd = i.location.endLine
  score : m.score = min 100 (((i.awards n).map (·.points)).sum % UInt32.size)
  explanation : m.explanation = "; ".intercalate ((i.awards n).map (·.reason))

theorem Item.kind_eq_interface_iff (i : Item) :
    i.kind = .interface ↔ ∃ c : ClassInfo, i = .element (.classType c) ∧ c.kind = .interface := by
  rcases i with (f | c | v) | i | c <;> simp [Item.kind, Element.kind]

/-- **An item gives a match if its score lies above its threshold**, and none otherwise. -/
theorem Item.match?_cases (n : Needles) (i : Item) :
    (decide (i.threshold < min 100 (i.points n % UInt32.size)) = true ∧
        ∃ m, (i.candidate n).match? = some m ∧ IsMatchOf n i m) ∨
      decide (i.threshold < min 100 (i.points n % UInt32.size)) = false ∧ (i.candidate n).match? = none := by
  have hscore : scoreOf (i.candidate n).awards = min 100 (i.points n % UInt32.size) := by
    rw [scoreOf_eq, ← i.sum_awards]
    exact Nat.min_comm _ _
  by_cases habove : i.threshold < min 100 (i.points n % UInt32.size)
  · have hfound : (i.candidate n).threshold < scoreOf (i.candidate n).awards := by
      rw [hscore]
      exact habove
    have hmatch := Candidate.match?_eq_some_iff.2 ⟨hfound, rfl⟩
    refine Or.inl ⟨by simpa using habove, _, hmatch, rfl, i.kind_eq_interface_iff, rfl, rfl, rfl, rfl, ?_, rfl⟩
    rw [i.sum_awards]
    exact hscore
  · refine Or.inr ⟨by simpa using habove, Option.eq_none_iff_forall_ne_some.2 fun m hm => ?_⟩
    rw [Candidate.match?_eq_some_iff, hscore] at hm
    exact habove hm.1

/-- **The matches of a file.** Go through its functions, classes, variables, imports and
comments, and keep each whose score lies above the threshold: 20 for functions and classes,
25 for variables, 30 for imports, 15 for comments. Each that is kept gives one match, and the
matches of the file are the one stable sort of these by their scores. A score is what 32 bits
keep of the points, up to 100, and they keep all of them if the patterns are few. -/
theorem matchArtifact_isStableSort (a : Artifact) (n : Needles) :
    (∀ i : Item, ((i.awards n).map (·.points)).sum = i.points n) ∧
    (n.Few → ∀ i : Item, i.points n < UInt32.size) ∧
    ∃ found, List.Forall₂ (IsMatchOf n)
        ((Item.ofArtifact a).filter fun i => i.threshold < min 100 (i.points n % UInt32.size)) found ∧
      ∀ sorted, IsStableSort Match.score found sorted ↔ sorted = matchArtifact a n := by
  refine ⟨Item.sum_awards n, Item.points_lt, (Item.ofArtifact a).filterMap fun i => (i.candidate n).match?, ?found,
    ?sorted⟩
  case found => exact forall₂_filterMap (Item.match?_cases n) _
  case sorted =>
    have hsort : IsStableSort Match.score ((Item.ofArtifact a).filterMap fun i => (i.candidate n).match?)
        (matchArtifact a n) := by
      rw [matchArtifact_eq]
      exact isStableSort_mergeSort Match.score _
    intro sorted
    constructor
    · exact fun hsorted => hsorted.unique hsort
    · rintro rfl
      exact hsort

/-- A function with one letter for a name. -/
def letter : FunctionInfo := { name := "a", snippet := "a()", location := ⟨1, 1⟩, complexity := 1 }

/-- The points for one term fit 32 bits. -/
theorem matchArtifact_isStableSort_letter :
    let n := Needles.prepare "" { terms := ["a"] }
    n.Few ∧ (Item.element (.function letter)).points n < UInt32.size := by
  intro n
  have hfew : n.Few := by decide +kernel
  exact ⟨hfew, (matchArtifact_isStableSort { functions := [letter] } n).2.1 hfew _⟩

/-! ## More points than fit -/

/-- A pattern that is listed many times is found as often. -/
theorem countP_prepared_replicate {text p : String} (hne : Text.lower (Text.trim p) ≠ "")
    (hcontains : Text.contains text (Text.lower (Text.trim p)) = true) (k : ℕ) :
    (prepared (List.replicate k p)).countP (Text.contains text ·) = k := by
  unfold prepared
  rw [List.map_replicate, List.filter_replicate_of_pos (by simpa using hne), List.countP_replicate, if_pos hcontains]

/-- **Points of a pattern** that is listed many times and stands in what is searched. -/
theorem sum_elementAwards_replicate {written p : String} (hne : Text.lower (Text.trim p) ≠ "")
    (hcontains : Text.contains written (Text.lower (Text.trim p)) = true) (name : String) (t c h : ℕ) :
    ((elementAwards name written (Needles.prepare ""
        { terms := List.replicate t p, codePatterns := List.replicate c p, frameworkHints := List.replicate h p })).map
      (·.points)).sum = 30 * t + 25 * c + 20 * h := by
  have hblank : Text.lower (Text.trim "") = "" := by decide +kernel
  have hcount := countP_prepared_replicate hne hcontains
  unfold elementAwards Needles.prepare
  simp only [List.map_append, List.sum_append, sum_patternAwards, sum_queryAward, hblank, hcount]
  simp

/-- **Points that do not fit 32 bits are lost.** The function earns 4294967310 points for its
letter, which is listed 143165577 times, and 14 are left of them, so it is not found. -/
theorem manyTerms_lost :
    let n := Needles.prepare "" { terms := List.replicate 143165577 "a" }
    (Item.element (.function letter)).threshold < min 100 (((Element.function letter).awards n).map (·.points)).sum ∧
      matchArtifact { functions := [letter] } n = [] := by
  intro n
  have hsum : (((Element.function letter).awards n).map (·.points)).sum = 30 * 143165577 + 25 * 0 + 20 * 0 :=
    sum_elementAwards_replicate (by decide +kernel) (by decide +kernel) _ _ 0 0
  have hnone : ((Item.element (.function letter)).candidate n).match? = none := by
    rcases (Item.element (.function letter)).match?_cases n with ⟨habove, -⟩ | ⟨-, hnone⟩
    · rw [← Item.sum_awards, Item.awards, hsum] at habove
      exact absurd habove (by decide)
    · exact hnone
  refine ⟨?_, ?_⟩
  · rw [hsum]
    decide
  · have hfound : (Item.ofArtifact { functions := [letter] }).filterMap (fun i => (i.candidate n).match?) = [] :=
      List.filterMap_cons_none hnone
    rw [matchArtifact_eq, hfound, bestFirst, List.mergeSort_nil]

end CodeAtlas.Search
