import CodeAtlas.Search.Score
import Mathlib.Algebra.Order.BigOperators.Group.List
import Mathlib.Algebra.Order.Group.Nat
import Mathlib.Algebra.Ring.Nat

/-!
# Points

Whatever is searched earns points for the query and for each pattern of a list that stands in
it, part by part. The points are added up in 32 bits. Nobody earns more than 60 points for
the query or for one pattern, so nothing is lost of the sum unless there are tens of millions
of patterns.

* `Subject`: whatever earns points.
* `Subject.awards_of_parts`: **a relation between awards goes through their parts.**
* `PatternSet.Few`, `Needles.Few`, `Subject.sum_awards_lt`: few patterns, and **points that fit
  32 bits.**
* `scoreOf_eq_min`, `scoreOf_le_of_sublist`, `scoreOf_eq_of_perm`: scores by the awards alone.
-/

namespace CodeAtlas.Search

/-! ## Scores by the awards -/

section Scores

variable {l m : List Award}

theorem scoreOf_eq (l : List Award) : scoreOf l = min ((l.map (·.points)).sum % UInt32.size) 100 := by
  rw [scoreOf, maxScore, List.sum_eq_foldl, List.foldl_map]

/-- **A score is the sum of the points**, up to 100, if that sum fits 32 bits. -/
theorem scoreOf_eq_min (h : (l.map (·.points)).sum < UInt32.size) : scoreOf l = min (l.map (·.points)).sum 100 := by
  rw [scoreOf_eq, Nat.mod_eq_of_lt h]

theorem scoreOf_le (l : List Award) : scoreOf l ≤ 100 := Nat.min_le_right _ _

/-- **Awards that are added never lower a score** whose points fit 32 bits. -/
theorem scoreOf_le_of_sublist (h : l.Sublist m) (hfits : (m.map (·.points)).sum < UInt32.size) :
    scoreOf l ≤ scoreOf m := by
  have hpoints : (l.map (·.points)).sum ≤ (m.map (·.points)).sum := (h.map _).sum_le_sum fun _ _ => Nat.zero_le _
  rw [scoreOf_eq_min hfits, scoreOf_eq_min (hpoints.trans_lt hfits)]
  exact min_le_min_right 100 hpoints

theorem scoreOf_eq_of_perm (h : l.Perm m) : scoreOf l = scoreOf m := by
  rw [scoreOf_eq, scoreOf_eq, (h.map _).sum_eq]

end Scores

/-! ## Patterns -/

section Patterns

variable (points : ℕ) (word text : String)

theorem sum_patternAwards (l : List String) :
    ((patternAwards points word text l).map (·.points)).sum = points * l.countP (Text.contains text ·) := by
  unfold patternAwards
  induction l with
  | nil => rfl
  | cons p l ih =>
    cases hp : Text.contains text p with
    | true =>
      rw [List.filter_cons_of_pos hp, List.countP_cons_of_pos hp, List.map_cons, List.map_cons, List.sum_cons, ih,
        Nat.mul_succ, Nat.add_comm]
    | false => rw [List.filter_cons_of_neg (by simp [hp]), List.countP_cons_of_neg (by simp [hp]), ih]

theorem sum_queryAward (query reason : String) (holds : Bool) :
    ((queryAward query holds points reason).map (·.points)).sum = if query ≠ "" && holds then points else 0 := by
  unfold queryAward
  split_ifs <;> rfl

theorem sum_patternAwards_le (l : List String) :
    ((patternAwards points word text l).map (·.points)).sum ≤ points * l.length := by
  rw [sum_patternAwards]
  exact Nat.mul_le_mul_left points List.countP_le_length

theorem sum_queryAward_le (query reason : String) (holds : Bool) :
    ((queryAward query holds points reason).map (·.points)).sum ≤ points := by
  rw [sum_queryAward]
  split_ifs
  · exact Nat.le_refl _
  · exact Nat.zero_le _

end Patterns

/-! ## Whatever earns points -/

/-- **Whatever earns points**: an element by its name and its written form in lower case, an import
by its source, a comment by its text, an entry of an index by itself. -/
inductive Subject where
  | element (name written : String)
  | imported (source : String)
  | comment (text : String) (isDoc : Bool)
  | keyword (word : String)

namespace Subject

def awards (n : Needles) : Subject → List Award
  | element name written => elementAwards name written n
  | imported source => importAwards source n
  | comment text isDoc => commentAwards text isDoc n
  | keyword word => keywordAwards word n

/-- **A relation between awards goes through their parts**: it relates the awards of two
searches for one query if it relates those for the patterns of each list, in whatever text
and for whatever points. -/
theorem awards_of_parts {n n' : Needles} {R : List Award → List Award → Prop} (hrefl : ∀ l, R l l)
    (happend : ∀ {l l' m m'}, R l l' → R m m' → R (l ++ m) (l' ++ m')) (hquery : n.query = n'.query)
    (hterms : ∀ points word text, R (patternAwards points word text n.terms) (patternAwards points word text n'.terms))
    (hcode : ∀ points word text,
      R (patternAwards points word text n.codePatterns) (patternAwards points word text n'.codePatterns))
    (hhints : ∀ points word text,
      R (patternAwards points word text n.frameworkHints) (patternAwards points word text n'.frameworkHints))
    (s : Subject) : R (s.awards n) (s.awards n') := by
  cases s with
  | element name written =>
    unfold awards elementAwards
    rw [hquery]
    exact happend (happend (happend (hrefl _) (hterms _ _ _)) (hcode _ _ _)) (hhints _ _ _)
  | imported source =>
    unfold awards importAwards
    rw [hquery]
    exact happend (happend (hrefl _) (hhints _ _ _)) (hterms _ _ _)
  | comment text isDoc =>
    unfold awards commentAwards
    rw [hquery]
    exact happend (happend (hrefl _) (hterms _ _ _)) (hrefl _)
  | keyword word =>
    unfold awards keywordAwards
    rw [hquery]
    exact happend (hrefl _) (hterms _ _ _)

/-- **How many points there can be.** -/
theorem sum_awards_le (n : Needles) (s : Subject) :
    ((s.awards n).map (·.points)).sum ≤
      60 + 40 * (n.terms.length + n.codePatterns.length + n.frameworkHints.length) := by
  have hquery (holds : Bool) (points : ℕ) (reason : String) := sum_queryAward_le points n.query reason holds
  have hpatterns := sum_patternAwards_le
  cases s with
  | element name written =>
    unfold awards elementAwards
    simp only [List.map_append, List.sum_append]
    refine (Nat.add_le_add (Nat.add_le_add (Nat.add_le_add (hquery _ _ _) (hpatterns _ _ _ _)) (hpatterns _ _ _ _))
      (hpatterns _ _ _ _)).trans ?_
    omega
  | imported source =>
    unfold awards importAwards
    simp only [List.map_append, List.sum_append]
    refine (Nat.add_le_add (Nat.add_le_add (hquery _ _ _) (hpatterns _ _ _ _)) (hpatterns _ _ _ _)).trans ?_
    omega
  | comment text isDoc =>
    unfold awards commentAwards
    simp only [List.map_append, List.sum_append]
    have hdoc : (((if isDoc then [⟨10, "doc comment"⟩] else [] : List Award)).map (·.points)).sum ≤ 10 := by
      cases isDoc <;> decide
    refine (Nat.add_le_add (Nat.add_le_add (hquery _ _ _) (hpatterns _ _ _ _)) hdoc).trans ?_
    omega
  | keyword word =>
    unfold awards keywordAwards
    simp only [List.map_append, List.sum_append]
    refine (Nat.add_le_add (hquery _ _ _) (hpatterns _ _ _ _)).trans ?_
    omega

end Subject

/-! ## Few patterns -/

/-- **Few enough patterns to look for**: 60 points for each of them fit 32 bits. -/
def Needles.Few (n : Needles) : Prop :=
  60 * (n.terms.length + n.codePatterns.length + n.frameworkHints.length) < UInt32.size
deriving Decidable

/-- **Few enough patterns in a set.** -/
def PatternSet.Few (P : PatternSet) : Prop :=
  60 * (P.terms.length + P.codePatterns.length + P.frameworkHints.length) < UInt32.size
deriving Decidable

theorem length_prepared_le (l : List String) : (prepared l).length ≤ l.length := by
  unfold prepared
  exact (List.length_filter_le _ _).trans (List.length_map _).le

theorem PatternSet.Few.prepare {P : PatternSet} (h : P.Few) (query : String) : (Needles.prepare query P).Few := by
  have hterms : (Needles.prepare query P).terms.length ≤ P.terms.length := length_prepared_le _
  have hcode : (Needles.prepare query P).codePatterns.length ≤ P.codePatterns.length := length_prepared_le _
  have hhints : (Needles.prepare query P).frameworkHints.length ≤ P.frameworkHints.length := length_prepared_le _
  unfold PatternSet.Few at h
  unfold Needles.Few
  omega

/-- **The points of a search for few patterns fit 32 bits.** -/
theorem Subject.sum_awards_lt {n : Needles} (h : n.Few) (s : Subject) :
    ((s.awards n).map (·.points)).sum < UInt32.size := by
  have hle := s.sum_awards_le n
  have hsize : UInt32.size = 4294967296 := rfl
  unfold Needles.Few at h
  omega

end CodeAtlas.Search
