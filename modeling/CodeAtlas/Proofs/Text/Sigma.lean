import CodeAtlas.Proofs.Text.Occurrences
import CodeAtlas.Proofs.Text.Relowering

/-!
# Lowercase text in its place

A piece of a text has in lower case the form that it has by itself, but for its capital
sigmas: one that begins or ends the word in the piece may stand within a word of the text,
and the other way round. Some sigmas are settled by the piece alone, whatever stands around
it. A text of which each sigma is settled is found in lower case wherever it stands, and no
other text is.

* `isFinal`, `isSettled`: which form a sigma has, and whether more text can change it.
* `allSigmas`: a test of each sigma of a text, by what stands before and after it.
* `loweredIn_eq_iff`: **a piece in its place** has its own form if its sigmas have theirs.
* `lowerChars_infix_iff`: **which texts are found wherever they stand.**
-/

namespace CodeAtlas.Text

variable {done before after a b p s u v : List Char} {c x : Char}

/-! ## The forms of sigma -/

/-- Whether a capital sigma has the form `ς`: a character with case comes before it, the
nearest first, and none after it. -/
def isFinal (before after : List Char) : Bool := meetsCased before && !meetsCased after

/-- Whether there is a character that is not ignored for case. -/
def hasBound (l : List Char) : Bool := l.any fun c => !isCaseIgnorable c

/-- **Whether the form of a sigma is settled**: a character with case comes after it, or it
does not look farther than there is text. -/
def isSettled (before after : List Char) : Bool :=
  meetsCased after || hasBound before && (hasBound after || !meetsCased before)

theorem hasBound_cons (c : Char) (s : List Char) : hasBound (c :: s) = (!isCaseIgnorable c || hasBound s) :=
  List.any_cons

/-- The nearest character that is not ignored hides what is behind it. -/
theorem meetsCased_append (s t : List Char) :
    meetsCased (s ++ t) = if hasBound s then meetsCased s else meetsCased t := by
  induction s with
  | nil => rfl
  | cons c s ih =>
    rw [List.cons_append, hasBound_cons]
    cases hc : isCaseIgnorable c with
    | true =>
      rw [meetsCased_cons_of_ignorable hc, meetsCased_cons_of_ignorable hc, ih]
      rfl
    | false =>
      rw [meetsCased_cons_of_not_ignorable hc, meetsCased_cons_of_not_ignorable hc]
      rfl

theorem hasBound_of_meetsCased (h : meetsCased s = true) : hasBound s = true := by
  by_contra hbound
  have hnil := meetsCased_append s []
  rw [if_neg hbound, List.append_nil, h] at hnil
  cases hnil

/-- **More text does not change the form of a settled sigma.** -/
theorem isFinal_append_of_settled (h : isSettled before after = true) (a b : List Char) :
    isFinal (before ++ a) (after ++ b) = isFinal before after := by
  unfold isFinal
  rw [meetsCased_append, meetsCased_append]
  simp only [isSettled, Bool.or_eq_true, Bool.and_eq_true, Bool.not_eq_true'] at h
  rcases h with hcased | ⟨hbefore, hafter | hnone⟩
  · rw [hcased, hasBound_of_meetsCased hcased]
    simp
  · rw [if_pos hbefore, if_pos hafter]
  · rw [if_pos hbefore, hnone]
    simp

/-- **A letter more changes the form of a sigma that is not settled**, on one side or on
the other. -/
theorem isFinal_ne_of_not_settled (h : isSettled before after = false) :
    (∀ x, meetsCased [x] = true → isFinal (before ++ [x]) after ≠ isFinal before after) ∨
      ∀ x, meetsCased [x] = true → isFinal before (after ++ [x]) ≠ isFinal before after := by
  simp only [isSettled, Bool.or_eq_false_iff, Bool.and_eq_false_iff, Bool.not_eq_false'] at h
  obtain ⟨hafter, hbefore | ⟨hopen, hcased⟩⟩ := h
  · -- a letter before a sigma with nothing before it
    refine Or.inl fun x hx => ?_
    have halone : meetsCased before = false := by
      by_contra hcased
      rw [hasBound_of_meetsCased (by simpa using hcased)] at hbefore
      cases hbefore
    unfold isFinal
    rw [meetsCased_append, hbefore, hx, hafter, halone]
    decide
  · -- a letter after a sigma at the end of a word
    refine Or.inr fun x hx => ?_
    unfold isFinal
    rw [meetsCased_append, hopen, hx, hafter, hcased]
    decide

/-! ## The sigmas of a text -/

/-- Whether a test holds of each capital sigma of a text, by what stands before it, nearest
first, and after it. -/
def allSigmas (test : List Char → List Char → Bool) (before : List Char) : List Char → Bool
  | [] => true
  | c :: after => (c ≠ 'Σ' || test before after) && allSigmas test (c :: before) after

variable {test : List Char → List Char → Bool}

theorem allSigmas_cons_iff : allSigmas test before (c :: s) = true ↔
    (c = 'Σ' → test before s = true) ∧ allSigmas test (c :: before) s = true := by
  have hcons : allSigmas test before (c :: s) =
      ((c ≠ 'Σ' || test before s) && allSigmas test (c :: before) s) := rfl
  rw [hcons, Bool.and_eq_true, Bool.or_eq_true, decide_eq_true_eq, imp_iff_not_or]

/-- **A test of each sigma**, wherever it stands. -/
theorem allSigmas_iff :
    allSigmas test before s = true ↔ ∀ u v, s = u ++ 'Σ' :: v → test (u.reverse ++ before) v = true := by
  induction s generalizing before with
  | nil => exact iff_of_true rfl fun u v h => absurd h.symm (by simp)
  | cons c s ih =>
    rw [allSigmas_cons_iff, ih]
    constructor
    · rintro ⟨hfirst, hrest⟩ u v h
      cases u with
      | nil =>
        obtain ⟨rfl, rfl⟩ := List.cons.inj h
        exact hfirst rfl
      | cons d u =>
        obtain ⟨rfl, rfl⟩ := List.cons.inj h
        rw [List.reverse_cons, List.append_assoc]
        exact hrest u v rfl
    · intro h
      refine ⟨fun hc => h [] s (by rw [hc, List.nil_append]), fun u v hs => ?_⟩
      have htest := h (c :: u) v (by rw [hs, List.cons_append])
      rwa [List.reverse_cons, List.append_assoc] at htest

/-- Whether each sigma of a piece has the form between two texts that it has by itself. The
text before the piece is given with the nearest character first. -/
def keepsForms (a b : List Char) (piece : List Char) : Bool :=
  allSigmas (fun u v => isFinal (u ++ a) (v ++ b) == isFinal u v) [] piece

/-- Whether each sigma of a text is settled. -/
def settlesForms (s : List Char) : Bool := allSigmas isSettled [] s

/-- **Settled sigmas have their forms everywhere.** -/
theorem keepsForms_of_settles (h : settlesForms p = true) (a b : List Char) : keepsForms a b p = true := by
  refine allSigmas_iff.2 fun u v huv => beq_iff_eq.2 ?_
  exact isFinal_append_of_settled (allSigmas_iff.1 h u v huv) a b

theorem settlesForms_of_notMem (h : 'Σ' ∉ p) : settlesForms p = true := by
  refine allSigmas_iff.2 fun u v huv => absurd ?_ h
  rw [huv]
  exact List.mem_append_right u List.mem_cons_self

/-! ## Pieces in lower case -/

/-- The lowercase form of a piece after what stands before it, nearest first, and before
what follows it. -/
def loweredIn (done ahead : List Char) : List Char → List Char
  | [] => []
  | c :: rest => lowerIn done c (rest ++ ahead) ++ loweredIn (c :: done) ahead rest

theorem loweredIn_cons (done ahead : List Char) (c : Char) (s : List Char) :
    loweredIn done ahead (c :: s) = lowerIn done c (s ++ ahead) ++ loweredIn (c :: done) ahead s := rfl

theorem lowered_cons (done : List Char) (c : Char) (s : List Char) :
    lowered done (c :: s) = lowerIn done c s ++ lowered (c :: done) s := rfl

/-- **A text in two pieces**, the first of which looks ahead. -/
theorem lowered_append_eq (done s t : List Char) :
    lowered done (s ++ t) = loweredIn done t s ++ lowered (s.reverse ++ done) t := by
  induction s generalizing done with
  | nil => rfl
  | cons c s ih =>
    rw [List.cons_append, lowered_cons, loweredIn_cons, ih, List.reverse_cons, List.append_assoc, List.append_assoc]
    rfl

theorem length_lowerIn (done : List Char) (c : Char) (rest : List Char) :
    (lowerIn done c rest).length = (lowerChar c).length := by
  have hforms := congrArg List.length (map_foldSigma_lowerIn done c rest)
  rwa [List.length_map, List.length_map] at hforms

theorem length_loweredIn (done ahead before s : List Char) :
    (loweredIn done ahead s).length = (lowered before s).length := by
  induction s generalizing done before with
  | nil => rfl
  | cons c s ih =>
    rw [loweredIn_cons, lowered_cons, List.length_append, List.length_append, length_lowerIn, length_lowerIn,
      ih (c :: done) (c :: before)]

theorem lowerIn_eq_iff {done done' rest rest' : List Char} :
    lowerIn done c rest = lowerIn done' c rest' ↔ (c = 'Σ' → isFinal done rest = isFinal done' rest') := by
  by_cases hc : c = 'Σ'
  · have hforms : ∀ f f' : Bool, (if f then 'ς' else 'σ') = (if f' then 'ς' else 'σ') ↔ f = f' := by decide
    rw [lowerIn, lowerIn, if_pos hc, if_pos hc, List.cons.injEq, and_iff_left rfl, forall_prop_of_true hc]
    exact hforms _ _
  · rw [lowerIn, lowerIn, if_neg hc, if_neg hc]
    exact iff_of_true rfl fun h => absurd h hc

/-- **A piece in its place** has in lower case the form that it has without what is before
and after it, exactly if its sigmas have theirs. -/
theorem loweredIn_eq_iff (done a b s : List Char) :
    loweredIn (done ++ a) b s = lowered done s ↔
      allSigmas (fun u v => isFinal (u ++ a) (v ++ b) == isFinal u v) done s = true := by
  induction s generalizing done with
  | nil => exact iff_of_true rfl rfl
  | cons c s ih =>
    have hrest := ih (c :: done)
    rw [List.cons_append] at hrest
    rw [allSigmas_cons_iff, ← hrest, beq_iff_eq, ← lowerIn_eq_iff, loweredIn_cons, lowered_cons]
    constructor
    · -- either form of sigma is one character, so the parts are equal each for itself
      exact fun heq => List.append_inj heq (by rw [length_lowerIn, length_lowerIn])
    · rintro ⟨hc, hs⟩
      rw [hc, hs]

/-- **A piece that keeps its forms is found.** -/
theorem infix_lowerChars (h : keepsForms a.reverse b p = true) : lowerChars p <:+: lowerChars (a ++ (p ++ b)) := by
  have hpiece : loweredIn a.reverse b p = lowered [] p := (loweredIn_eq_iff [] a.reverse b p).2 h
  rw [lowerChars_eq, lowerChars_eq, lowered_append_eq [] a, lowered_append_eq _ p, List.append_nil, hpiece]
  exact ⟨_, _, List.append_assoc _ _ _⟩

/-! ## Texts that are found wherever they stand -/

theorem loweredIn_nil (done s : List Char) : loweredIn done [] s = lowered done s := by
  have hcut := lowered_append_eq done s []
  rw [List.append_nil, lowered, List.append_nil] at hcut
  exact hcut.symm

/-- A sigma with another form is seen. -/
theorem loweredIn_ne {a b : List Char} (h : isFinal (u.reverse ++ a) (v ++ b) ≠ isFinal u.reverse v) :
    loweredIn a b (u ++ 'Σ' :: v) ≠ lowerChars (u ++ 'Σ' :: v) := by
  rw [lowerChars_eq, ← List.nil_append a, ne_eq, loweredIn_eq_iff]
  intro hall
  have hsame := allSigmas_iff.1 hall u v rfl
  rw [List.append_nil, beq_iff_eq] at hsame
  exact h hsame

/-- There is a letter that is its own lowercase form, other than any one character. -/
theorem exists_letter (y : Option Char) : ∃ x, meetsCased [x] = true ∧ lowerChar x = [x] ∧ y ≠ some x := by
  obtain ⟨-, -, hi, hsigma⟩ := writtenApart_spec
  by_cases hy : y = some 'i'
  · exact ⟨'σ', hsigma, lowerChar_of_mem_writtenApart (by decide), by rw [hy]; decide⟩
  · exact ⟨'i', hi, lowerChar_of_mem_writtenApart (by decide), hy⟩

/-- A text stands with one more character before it only where it stood, or with its own
first character. -/
theorem not_infix_cons {l m : List Char} (hlength : l.length = m.length) (hne : l ≠ m) (hhead : l.head? ≠ some x) :
    ¬l <:+: x :: m := by
  rw [List.infix_cons_iff, List.prefix_cons_iff]
  rintro ((rfl | ⟨t, rfl, -⟩) | h)
  · exact hne (List.length_eq_zero_iff.1 hlength.symm).symm
  · exact hhead rfl
  · exact hne (h.eq_of_length hlength)

theorem not_infix_concat {l m : List Char} (hlength : l.length = m.length) (hne : l ≠ m)
    (hlast : l.getLast? ≠ some x) : ¬l <:+: m ++ [x] := by
  rw [List.infix_concat_iff, List.suffix_concat_iff]
  rintro ((rfl | ⟨t, rfl, -⟩) | h)
  · exact hne (List.length_eq_zero_iff.1 hlength.symm).symm
  · exact hlast List.getLast?_concat
  · exact hne (h.eq_of_length hlength)

/-- **A text with a sigma that is not settled** is not found with some letter before it or
after it. -/
theorem exists_not_found (hopen : isSettled u.reverse v = false) :
    ∃ s, u ++ 'Σ' :: v <:+: s ∧ ¬lowerChars (u ++ 'Σ' :: v) <:+: lowerChars s := by
  have hlength (a b : List Char) :
      (lowerChars (u ++ 'Σ' :: v)).length = (loweredIn a b (u ++ 'Σ' :: v)).length := by
    rw [lowerChars_eq, length_loweredIn]
  rcases isFinal_ne_of_not_settled hopen with hbefore | hafter
  · -- a letter with which the lowercase form does not begin, so that there is no new place for it
    obtain ⟨x, hcased, hlower, hhead⟩ := exists_letter (lowerChars (u ++ 'Σ' :: v)).head?
    refine ⟨x :: (u ++ 'Σ' :: v), (List.suffix_cons _ _).isInfix, ?_⟩
    have hwhole : lowerChars (x :: (u ++ 'Σ' :: v)) = x :: loweredIn [x] [] (u ++ 'Σ' :: v) := by
      rw [lowerChars_eq, lowered, lowerIn_eq_self hlower, loweredIn_nil]
      rfl
    have hchanged : loweredIn [x] [] (u ++ 'Σ' :: v) ≠ lowerChars (u ++ 'Σ' :: v) :=
      loweredIn_ne (by rw [List.append_nil]; exact hbefore x hcased)
    rw [hwhole]
    exact not_infix_cons (hlength _ _) hchanged.symm hhead
  · obtain ⟨x, hcased, hlower, hlast⟩ := exists_letter (lowerChars (u ++ 'Σ' :: v)).getLast?
    refine ⟨(u ++ 'Σ' :: v) ++ [x], (List.prefix_append _ _).isInfix, ?_⟩
    have hwhole : lowerChars ((u ++ 'Σ' :: v) ++ [x]) = loweredIn [] [x] (u ++ 'Σ' :: v) ++ [x] := by
      rw [lowerChars_eq, lowered_append_eq, lowered, lowerIn_eq_self hlower]
      rfl
    have hchanged : loweredIn [] [x] (u ++ 'Σ' :: v) ≠ lowerChars (u ++ 'Σ' :: v) :=
      loweredIn_ne (by rw [List.append_nil]; exact hafter x hcased)
    rw [hwhole]
    exact not_infix_concat (hlength _ _) hchanged.symm hlast

/-- **Which texts are found in lower case wherever they stand**: those with settled sigmas
only. -/
theorem lowerChars_infix_iff : (∀ s, p <:+: s → lowerChars p <:+: lowerChars s) ↔ settlesForms p = true := by
  constructor
  · intro hfound
    refine allSigmas_iff.2 fun u v huv => ?_
    subst huv
    by_contra hopen
    rw [List.append_nil, Bool.not_eq_true] at hopen
    obtain ⟨s, hs, hnot⟩ := exists_not_found hopen
    exact hnot (hfound s hs)
  · rintro hsettled s ⟨a, b, rfl⟩
    rw [List.append_assoc]
    exact infix_lowerChars (keepsForms_of_settles hsettled _ _)

end CodeAtlas.Text
