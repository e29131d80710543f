import CodeAtlas.Proofs.Search.Listing

/-!
# Scores grow with what is looked for

Whatever is added to the patterns of a search only adds awards, and so does text around what
is searched. The order of the patterns orders the awards and leaves their points as they are.
Scores follow as long as the points fit 32 bits, and one pattern too many lowers them.

* `Needles.Extends`, `Needles.Reorders`: more to look for, and the same in another order.
* `Needles.Extends.sublist_awards`, `Needles.Reorders.perm_awards`: **more to look for adds
  awards**, and another order puts them in another order.
* `Needles.Compare`: the scores of two searches, side by side.
* `matchArtifact_of_extends`: what is found is found again.
* `scores_monotone`: **scores are monotone, bounded and do not depend on the order.**
* `manyHints_lower`: the points of one more pattern do not fit any more.
-/

namespace CodeAtlas.Search

open Outline

/-! ## Patterns -/

section Patterns

variable {l m : List String} (points : ℕ) (word text : String)

theorem patternAwards_sublist (h : l.Sublist m) :
    (patternAwards points word text l).Sublist (patternAwards points word text m) :=
  (h.filter _).map _

theorem patternAwards_perm (h : l.Perm m) : (patternAwards points word text l).Perm (patternAwards points word text m) :=
  (h.filter _).map _

/-- **Text around a text** takes nothing from it. -/
theorem contains_around {text p : String} (a b : String) (h : Text.contains text p = true) :
    Text.contains (a ++ text ++ b) p = true := by
  rw [Text.contains_iff] at h ⊢
  rw [String.toList_append, String.toList_append]
  exact h.trans (List.infix_append _ _ _)

theorem patternAwards_around (a b : String) (l : List String) :
    (patternAwards points word text l).Sublist (patternAwards points word (a ++ text ++ b) l) :=
  (List.monotone_filter_right l fun _ => contains_around a b).map _

end Patterns

/-! ## More to look for -/

/-- **The same query with more patterns**, put in anywhere. -/
structure Needles.Extends (n n' : Needles) : Prop where
  query : n.query = n'.query
  terms : n.terms.Sublist n'.terms
  codePatterns : n.codePatterns.Sublist n'.codePatterns
  frameworkHints : n.frameworkHints.Sublist n'.frameworkHints

/-- **The same query with the patterns in another order.** -/
structure Needles.Reorders (n n' : Needles) : Prop where
  query : n.query = n'.query
  terms : n.terms.Perm n'.terms
  codePatterns : n.codePatterns.Perm n'.codePatterns
  frameworkHints : n.frameworkHints.Perm n'.frameworkHints

section Prepare

variable {P P' : PatternSet} (query : String)

theorem extends_prepare (hterms : P.terms.Sublist P'.terms) (hcode : P.codePatterns.Sublist P'.codePatterns)
    (hhints : P.frameworkHints.Sublist P'.frameworkHints) :
    (Needles.prepare query P).Extends (Needles.prepare query P') :=
  ⟨rfl, (hterms.map _).filter _, (hcode.map _).filter _, (hhints.map _).filter _⟩

theorem reorders_prepare (hterms : P.terms.Perm P'.terms) (hcode : P.codePatterns.Perm P'.codePatterns)
    (hhints : P.frameworkHints.Perm P'.frameworkHints) :
    (Needles.prepare query P).Reorders (Needles.prepare query P') :=
  ⟨rfl, (hterms.map _).filter _, (hcode.map _).filter _, (hhints.map _).filter _⟩

end Prepare

section Awards

variable {n n' : Needles}

/-- **More to look for adds awards**, whatever is searched. -/
theorem Needles.Extends.sublist_awards (h : n.Extends n') (s : Subject) : (s.awards n).Sublist (s.awards n') :=
  Subject.awards_of_parts List.Sublist.refl List.Sublist.append h.query
    (fun points word text => patternAwards_sublist points word text h.terms)
    (fun points word text => patternAwards_sublist points word text h.codePatterns)
    (fun points word text => patternAwards_sublist points word text h.frameworkHints) s

/-- **Another order of the patterns** is another order of the awards. -/
theorem Needles.Reorders.perm_awards (h : n.Reorders n') (s : Subject) : (s.awards n).Perm (s.awards n') :=
  Subject.awards_of_parts List.Perm.refl List.Perm.append h.query
    (fun points word text => patternAwards_perm points word text h.terms)
    (fun points word text => patternAwards_perm points word text h.codePatterns)
    (fun points word text => patternAwards_perm points word text h.frameworkHints) s

/-- Text around the written form adds awards. -/
theorem elementAwards_around (n : Needles) (name written a b : String) :
    (elementAwards name written n).Sublist (elementAwards name (a ++ written ++ b) n) := by
  unfold elementAwards
  exact (((List.Sublist.refl _).append (patternAwards_around 30 "term" written a b n.terms)).append
    (patternAwards_around 25 "code pattern" written a b n.codePatterns)).append
    (patternAwards_around 20 "framework" written a b n.frameworkHints)

/-- **More to look for lowers no score**, unless there is too much of it. -/
theorem Needles.Extends.scoreOf_le (hfew : n'.Few) (h : n.Extends n') (s : Subject) :
    scoreOf (s.awards n) ≤ scoreOf (s.awards n') :=
  scoreOf_le_of_sublist (h.sublist_awards s) (Subject.sum_awards_lt hfew s)

end Awards

/-! ## Matches -/

section Matches

variable {α β : Type}

/-- What is made of some members only stands in what is made of more of them. -/
theorem filterMap_sublist {f g : α → Option β} (h : ∀ a, f a = g a ∨ f a = none) (l : List α) :
    (l.filterMap f).Sublist (l.filterMap g) := by
  induction l with
  | nil => exact List.Sublist.refl _
  | cons a l ih =>
    rcases h a with ha | ha
    · rw [List.filterMap_cons, List.filterMap_cons, ha]
      cases g a with
      | none => exact ih
      | some b => exact ih.cons_cons b
    · rw [List.filterMap_cons_none ha]
      cases hg : g a with
      | none => rwa [List.filterMap_cons_none hg]
      | some b =>
        rw [List.filterMap_cons_some hg]
        exact ih.cons b

/-- **What is found is found again** if there is more to look for, with a score that is not
lower, unless there is too much of it. -/
theorem Item.exists_match_of_extends {n n' : Needles} (hfew : n'.Few) (h : n.Extends n') {i : Item} {m : Match}
    (hm : (i.candidate n).match? = some m) :
    IsMatchOf n i m ∧ ∃ m', (i.candidate n').match? = some m' ∧ IsMatchOf n' i m' ∧ m.score ≤ m'.score := by
  have hscore : scoreOf (i.awards n) ≤ scoreOf (i.awards n') := by
    rw [i.awards_eq, i.awards_eq]
    exact h.scoreOf_le hfew i.subject
  rw [scoreOf_eq, scoreOf_eq, Nat.min_comm _ 100, Nat.min_comm _ 100] at hscore
  rcases i.match?_cases n with ⟨habove, m₀, hm₀, hof⟩ | ⟨-, hnone⟩
  · obtain rfl : m₀ = m := by simpa [hm₀] using hm
    refine ⟨hof, ?_⟩
    rcases i.match?_cases n' with ⟨-, m', hm', hof'⟩ | ⟨hbelow, -⟩
    · refine ⟨m', hm', hof', ?_⟩
      rw [hof.score, hof'.score]
      exact hscore
    · -- the threshold is that of the item, and no other search changes it
      simp only [decide_eq_true_eq, decide_eq_false_iff_not, ← i.sum_awards] at habove hbelow
      exact absurd (habove.trans_le hscore) hbelow
  · rw [hnone] at hm
    cases hm

/-- An item with its matches in two searches, if it is found in both. -/
def Item.inBoth? (n n' : Needles) (i : Item) : Option (Item × Match × Match) :=
  match (i.candidate n).match?, (i.candidate n').match? with
  | some m, some m' => some (i, m, m')
  | _, _ => none

theorem Item.inBoth?_cases {n n' : Needles} (hfew : n'.Few) (h : n.Extends n') (i : Item) :
    (∃ m m', (i.candidate n).match? = some m ∧ (i.candidate n').match? = some m' ∧
        i.inBoth? n n' = some (i, m, m') ∧ IsMatchOf n i m ∧ IsMatchOf n' i m' ∧ m.score ≤ m'.score) ∨
      (i.candidate n).match? = none ∧ i.inBoth? n n' = none := by
  cases hm : (i.candidate n).match? with
  | none => exact Or.inr ⟨rfl, by simp [inBoth?, hm]⟩
  | some m =>
    obtain ⟨hof, m', hm', hof', hscore⟩ := exists_match_of_extends hfew h hm
    exact Or.inl ⟨m, m', rfl, hm', by simp [inBoth?, hm, hm'], hof, hof', hscore⟩

theorem matchArtifact_perm (a : Artifact) (n : Needles) :
    (matchArtifact a n).Perm ((Item.ofArtifact a).filterMap fun i => (i.candidate n).match?) := by
  rw [matchArtifact_eq]
  exact List.mergeSort_perm _ _

/-- **Each match of a search is one of the other search**, of the same item and with a score
that is not lower. -/
theorem matchArtifact_of_extends {n n' : Needles} (hfew : n'.Few) (h : n.Extends n') (a : Artifact) :
    ∃ found : List (Item × Match × Match), (found.map (·.1)).Sublist (Item.ofArtifact a) ∧
      (found.map (·.2.1)).Perm (matchArtifact a n) ∧ (found.map (·.2.2)).Subperm (matchArtifact a n') ∧
      ∀ q ∈ found, IsMatchOf n q.1 q.2.1 ∧ IsMatchOf n' q.1 q.2.2 ∧ q.2.1.score ≤ q.2.2.score := by
  -- in the order of the file: each search sorts its matches by scores of its own
  refine ⟨(Item.ofArtifact a).filterMap (Item.inBoth? n n'), ?items, ?same, ?more, ?each⟩
  case items =>
    rw [List.map_filterMap]
    conv_rhs => rw [← List.filterMap_some (l := Item.ofArtifact a)]
    refine filterMap_sublist (fun i => ?_) _
    rcases i.inBoth?_cases hfew h with ⟨m, m', -, -, hboth, -⟩ | ⟨-, hboth⟩ <;> simp [hboth]
  case same =>
    rw [List.map_filterMap]
    refine List.Perm.trans (List.Perm.of_eq (List.filterMap_congr fun i _ => ?_)) (matchArtifact_perm a n).symm
    rcases i.inBoth?_cases hfew h with ⟨m, m', hm, -, hboth, -⟩ | ⟨hnone, hboth⟩
    · rw [hm, hboth]
      rfl
    · rw [hnone, hboth]
      rfl
  case more =>
    rw [List.map_filterMap]
    refine ((filterMap_sublist (fun i => ?_) _).subperm).trans (matchArtifact_perm a n').symm.subperm
    rcases i.inBoth?_cases hfew h with ⟨m, m', -, hm', hboth, -⟩ | ⟨-, hboth⟩
    · exact Or.inl (by rw [hm', hboth]; rfl)
    · exact Or.inr (by rw [hboth]; rfl)
  case each =>
    intro q hq
    obtain ⟨i, -, hi⟩ := List.mem_filterMap.1 hq
    rcases i.inBoth?_cases hfew h with ⟨m, m', -, -, hboth, hof, hof', hscore⟩ | ⟨-, hboth⟩
    · obtain rfl : (i, m, m') = q := by simpa [hboth] using hi
      exact ⟨hof, hof', hscore⟩
    · rw [hboth] at hi
      cases hi

end Matches

/-! ## Scores -/

/-- **The scores of two searches compare**, whatever is searched. -/
structure Needles.Compare (R : ℕ → ℕ → Prop) (n n' : Needles) : Prop where
  element : ∀ name written, R (scoreOf (elementAwards name written n)) (scoreOf (elementAwards name written n'))
  imported : ∀ source, R (scoreOf (importAwards source n)) (scoreOf (importAwards source n'))
  comment : ∀ text isDoc, R (scoreOf (commentAwards text isDoc n)) (scoreOf (commentAwards text isDoc n'))

theorem Needles.Compare.of_subject {R : ℕ → ℕ → Prop} {n n' : Needles}
    (h : ∀ s : Subject, R (scoreOf (s.awards n)) (scoreOf (s.awards n'))) : n.Compare R n' where
  element name written := h (.element name written)
  imported source := h (.imported source)
  comment text isDoc := h (.comment text isDoc)

/-- **Scores are monotone, bounded and do not depend on the order.** Patterns that are put in
anywhere lower no score, so each match of a file is found again with a score that is not
lower; scores go from 0 to 100; the order of the patterns does not change them; and text
around the written form of an element does not lower its score. What grows needs that there
are not too many patterns at last, in the three lists together: then the points, before they
are cut at 100, fit 32 bits. -/
theorem scores_monotone (query : String) (P : PatternSet) :
    (∀ P' : PatternSet, P'.Few → P.terms.Sublist P'.terms → P.codePatterns.Sublist P'.codePatterns →
      P.frameworkHints.Sublist P'.frameworkHints →
        (Needles.prepare query P).Compare (· ≤ ·) (Needles.prepare query P') ∧
        ∀ a : Artifact, ∃ found : List (Item × Match × Match), (found.map (·.1)).Sublist (Item.ofArtifact a) ∧
          (found.map (·.2.1)).Perm (matchArtifact a (Needles.prepare query P)) ∧
          (found.map (·.2.2)).Subperm (matchArtifact a (Needles.prepare query P')) ∧
          ∀ q ∈ found, IsMatchOf (Needles.prepare query P) q.1 q.2.1 ∧
            IsMatchOf (Needles.prepare query P') q.1 q.2.2 ∧ q.2.1.score ≤ q.2.2.score) ∧
    (∀ name written, scoreOf (elementAwards name written (Needles.prepare query P)) ≤ 100) ∧
    (∀ source, scoreOf (importAwards source (Needles.prepare query P)) ≤ 100) ∧
    (∀ text isDoc, scoreOf (commentAwards text isDoc (Needles.prepare query P)) ≤ 100) ∧
    (∀ Q : PatternSet, P.terms.Perm Q.terms → P.codePatterns.Perm Q.codePatterns →
      P.frameworkHints.Perm Q.frameworkHints → (Needles.prepare query P).Compare (· = ·) (Needles.prepare query Q)) ∧
    (P.Few →
      (∀ name written a b, scoreOf (elementAwards name written (Needles.prepare query P)) ≤
        scoreOf (elementAwards name (a ++ written ++ b) (Needles.prepare query P))) ∧
      (∀ name written, ((elementAwards name written (Needles.prepare query P)).map (·.points)).sum < UInt32.size) ∧
      (∀ source, ((importAwards source (Needles.prepare query P)).map (·.points)).sum < UInt32.size) ∧
      ∀ text isDoc, ((commentAwards text isDoc (Needles.prepare query P)).map (·.points)).sum < UInt32.size) := by
  refine ⟨fun P' hfew hterms hcode hhints => ?more, fun _ _ => scoreOf_le _, fun _ => scoreOf_le _,
    fun _ _ => scoreOf_le _, fun Q hterms hcode hhints => ?reordered, fun hfew => ?few⟩
  case more =>
    have hextends := extends_prepare query hterms hcode hhints
    exact ⟨.of_subject (hextends.scoreOf_le (hfew.prepare query)), matchArtifact_of_extends (hfew.prepare query) hextends⟩
  case reordered =>
    have hreorders := reorders_prepare query hterms hcode hhints
    exact .of_subject fun s => scoreOf_eq_of_perm (hreorders.perm_awards s)
  case few =>
    have hfits := fun s : Subject => Subject.sum_awards_lt (hfew.prepare query) s
    exact ⟨fun name written a b =>
        scoreOf_le_of_sublist (elementAwards_around _ name written a b) (hfits (.element name (a ++ written ++ b))),
      fun name written => hfits (.element name written), fun source => hfits (.imported source),
      fun text isDoc => hfits (.comment text isDoc)⟩

/-- One more term finds more, and the other order finds the same. -/
theorem scores_monotone_session :
    ["jwt", "token"].Sublist ["jwt", "session", "token"] ∧
      (Needles.prepare "login" { terms := ["jwt", "token"] }).Compare (· ≤ ·)
        (Needles.prepare "login" { terms := ["jwt", "session", "token"] }) ∧
      ["jwt", "token"].Perm ["token", "jwt"] ∧
      (Needles.prepare "login" { terms := ["jwt", "token"] }).Compare (· = ·)
        (Needles.prepare "login" { terms := ["token", "jwt"] }) ∧
      60 * (2 + 0 + 0) < UInt32.size ∧
      ∀ source, ((importAwards source (Needles.prepare "login" { terms := ["jwt", "token"] })).map (·.points)).sum <
        UInt32.size := by
  obtain ⟨more, -, -, -, reordered, few⟩ := scores_monotone "login" { terms := ["jwt", "token"] }
  have hsub : ["jwt", "token"].Sublist ["jwt", "session", "token"] := by decide
  have hperm : ["jwt", "token"].Perm ["token", "jwt"] := List.Perm.swap _ _ _
  exact ⟨hsub,
    (more { terms := ["jwt", "session", "token"] } (by decide) hsub (List.Sublist.refl _) (List.Sublist.refl _)).1,
    hperm, reordered { terms := ["token", "jwt"] } hperm (List.Perm.refl _) (List.Perm.refl _), by decide,
    (few (by decide)).2.2.1⟩

/-- **One pattern more lowers a score** where the points do not fit 32 bits any more, although
there are fewer than `2 ^ 32 / 60` patterns in each list: of 4294967280 points all are left,
of 4294967300 four. -/
theorem manyHints_lower :
    let P : PatternSet :=
      { terms := List.replicate 35791410 "a", codePatterns := List.replicate 71582776 "a"
        frameworkHints := List.replicate 71582779 "a" }
    let P' : PatternSet := { P with frameworkHints := List.replicate 71582780 "a" }
    (60 * P'.terms.length < UInt32.size ∧ 60 * P'.codePatterns.length < UInt32.size ∧
      60 * P'.frameworkHints.length < UInt32.size) ∧ P.frameworkHints.Sublist P'.frameworkHints ∧
      scoreOf (elementAwards "" "a" (Needles.prepare "" P)) = 100 ∧
      scoreOf (elementAwards "" "a" (Needles.prepare "" P')) = 4 := by
  intro P P'
  have hpoints : ((elementAwards "" "a" (Needles.prepare "" P)).map (·.points)).sum =
      30 * 35791410 + 25 * 71582776 + 20 * 71582779 :=
    sum_elementAwards_replicate (by decide +kernel) (by decide +kernel) _ _ _ _
  have hpoints' : ((elementAwards "" "a" (Needles.prepare "" P')).map (·.points)).sum =
      30 * 35791410 + 25 * 71582776 + 20 * 71582780 :=
    sum_elementAwards_replicate (by decide +kernel) (by decide +kernel) _ _ _ _
  have hshort (k : ℕ) (hk : 60 * k < UInt32.size) : 60 * (List.replicate k "a").length < UInt32.size := by
    rwa [List.length_replicate]
  refine ⟨⟨hshort _ (by decide), hshort _ (by decide), hshort _ (by decide)⟩,
    (List.replicate_sublist_replicate "a").2 (by decide), ?_, ?_⟩
  · rw [scoreOf_eq, hpoints]
    decide
  · rw [scoreOf_eq, hpoints']
    decide

end CodeAtlas.Search
