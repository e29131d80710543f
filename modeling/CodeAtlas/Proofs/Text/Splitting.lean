import CodeAtlas.Proofs.Text.Cuts
import CodeAtlas.Proofs.Text.Places
import CodeAtlas.Proofs.Text.Removal

/-!
# Texts in pieces

A text is cut into words at its blanks, and the words are put in a row again with single
blanks between them. A text is cut at another one where that stands in it first or last, or
wherever it stands, and the pieces are trimmed.

* `splitBy_eq`, `words_eq`: the pieces of a text, and those of them that are words.
* `toList_singleBlanks`: **a text with single blanks**, character by character.
* `suffix_trimChars`, `mem_trimChars`: what trimming leaves.
* `cutFirst?_eq_some_of`, `cutLast?_eq_some_of`: cuts at a place before which, or after
  which, there is no other.
* `exists_getLast?_pieces`: the last piece of a text.
-/

namespace CodeAtlas.Text

variable {p w s t a b : List Char} {c : Char}

/-! ## Words -/

theorem splitAtEach_eq (p : Char → Bool) (word : List Char) (pieces : List (List Char)) (s : List Char) :
    splitAtEach p word pieces s = pieces.reverse ++ (s.splitOnP p).modifyHead (word.reverse ++ ·) := by
  induction s generalizing word pieces with
  | nil => simp [splitAtEach]
  | cons c s ih =>
    unfold splitAtEach
    rw [List.splitOnP_cons_eq_if_modifyHead]
    cases hc : p c with
    | true =>
      rw [if_pos rfl, if_pos rfl, ih]
      cases hs : s.splitOnP p with
      | nil => exact absurd hs (List.splitOnP_ne_nil p s)
      | cons d l => simp
    | false =>
      rw [if_neg (by simp), if_neg (by simp), ih, List.modifyHead_modifyHead]
      congr 2
      funext d
      simp

/-- **The pieces of a text** between the characters of a class. -/
theorem splitBy_eq (p : Char → Bool) (s : String) : splitBy p s = (s.toList.splitOnP p).map String.ofList := by
  rw [splitBy, splitAtEach_eq]
  cases hs : s.toList.splitOnP p with
  | nil => exact absurd hs (List.splitOnP_ne_nil p _)
  | cons d l => simp

/-- The longest pieces of a text without a blank. -/
def runs (s : List Char) : List (List Char) := (s.splitOnP isBlank).filter (· ≠ [])

theorem words_eq (s : String) : words s = (runs s.toList).map String.ofList := by
  rw [words, splitBy_eq, runs, List.filter_map]
  congr 1
  refine List.filter_congr fun d _ => ?_
  simp

theorem runs_cons_of_blank (hc : isBlank c = true) (s : List Char) : runs (c :: s) = runs s := by
  simp [runs, List.splitOnP_cons_eq_if_modifyHead, hc]

theorem runs_cons_of_first (hc : isBlank c = false) (hs : ∀ d ∈ s.head?, isBlank d = true) :
    runs (c :: s) = [c] :: runs s := by
  cases s with
  | nil => simp [runs, List.splitOnP_cons_eq_if_modifyHead, hc]
  | cons d s => simp [runs, List.splitOnP_cons_eq_if_modifyHead, hc, hs d rfl]

theorem runs_cons_of_later {d : Char} (hc : isBlank c = false) (hd : isBlank d = false) (s : List Char) :
    ∃ run l, runs (d :: s) = run :: l ∧ runs (c :: d :: s) = (c :: run) :: l := by
  cases hs : s.splitOnP isBlank with
  | nil => exact absurd hs (List.splitOnP_ne_nil isBlank s)
  | cons run l =>
    exact ⟨d :: run, l.filter (· ≠ []), by simp [runs, List.splitOnP_cons_eq_if_modifyHead, hd, hs],
      by simp [runs, List.splitOnP_cons_eq_if_modifyHead, hc, hd, hs]⟩

/-- What follows a character in a text with single blanks: a blank if there was one and more comes. -/
def afterBlank (s rest : List Char) : List Char :=
  if s.head?.any isBlank && rest ≠ [] then ' ' :: rest else rest

/-- A text with single blanks between its words and none around them. -/
def squeeze : List Char → List Char
  | [] => []
  | c :: s => if isBlank c then squeeze s else c :: afterBlank s (squeeze s)

/-- What follows a blank-free first word. -/
theorem intercalate_cons (w : List Char) (l : List (List Char)) :
    [' '].intercalate (w :: l) = w ++ if l = [] then [] else ' ' :: [' '].intercalate l := by
  cases l with
  | nil => simp
  | cons v l => simp [List.intercalate_cons_cons]

theorem ne_nil_of_mem_runs (h : w ∈ runs s) : w ≠ [] := by simpa using (List.mem_filter.1 h).2

theorem squeeze_eq (s : List Char) : squeeze s = [' '].intercalate (runs s) := by
  have hempty : ∀ s, [' '].intercalate (runs s) = [] ↔ runs s = [] := fun s => by
    cases hs : runs s with
    | nil => simp
    | cons w l =>
      have hw := ne_nil_of_mem_runs (hs ▸ List.mem_cons_self)
      simp [intercalate_cons, hw]
  induction s with
  | nil => rfl
  | cons c s ih =>
    unfold squeeze
    cases hc : isBlank c with
    | true => rw [if_pos rfl, runs_cons_of_blank hc, ih]
    | false =>
      rw [if_neg (by simp), afterBlank, ih]
      -- the character ends its word, or the word goes on
      by_cases hs : ∀ d ∈ s.head?, isBlank d = true
      · rw [runs_cons_of_first hc hs, intercalate_cons]
        cases s with
        | nil => rfl
        | cons d s =>
          by_cases hruns : runs (d :: s) = []
          · simp [hruns]
          · have := (hempty (d :: s)).not.2 hruns
            simp [hs d rfl, hruns, this]
      · cases s with
        | nil => simp at hs
        | cons d s =>
          have hd : isBlank d = false := by simpa using hs
          obtain ⟨run, l, hrest, hruns⟩ := runs_cons_of_later hc hd s
          simp [hruns, hrest, hd, intercalate_cons]

/-- **A text with single blanks**, character by character. -/
theorem toList_singleBlanks (s : String) : (" ".intercalate (words s)).toList = squeeze s.toList := by
  rw [String.toList_intercalate, words_eq, squeeze_eq, List.map_map]
  simp

/-- Blanks in front are dropped. -/
theorem squeeze_append_of_blank (ha : ∀ c ∈ a, isBlank c = true) (s : List Char) : squeeze (a ++ s) = squeeze s := by
  induction a with
  | nil => rfl
  | cons c a ih =>
    rw [List.cons_append, squeeze, if_pos (ha c List.mem_cons_self), ih fun d hd => ha d (List.mem_cons_of_mem _ hd)]

/-- A word in front is kept, and so is one of the blanks after it. -/
theorem squeeze_append_of_word (hw : ∀ c ∈ w, isBlank c = false) (hne : w ≠ []) (s : List Char) :
    squeeze (w ++ s) = w ++ afterBlank s (squeeze s) := by
  induction w with
  | nil => exact absurd rfl hne
  | cons c w ih =>
    have hc := hw c List.mem_cons_self
    rw [List.cons_append, squeeze, if_neg (by simp [hc])]
    cases w with
    | nil => rfl
    | cons d w =>
      have hd := hw d (by simp)
      rw [ih (fun e he => hw e (List.mem_cons_of_mem _ he)) (by simp), afterBlank]
      simp [hd]

/-! ## Trimming -/

/-- **Trimming keeps** every character that is not of the class. -/
theorem mem_trimChars {p : Char → Bool} (hc : p c = false) : c ∈ trimChars p s ↔ c ∈ s := by
  obtain ⟨⟨front, back, hs, hfront, hback⟩, -, -⟩ := trimChars_eq_iff.1 (rfl : trimChars p s = trimChars p s)
  have hnot : ∀ l : List Char, (∀ d ∈ l, p d = true) → c ∉ l := fun l hl hmem => by
    rw [hl c hmem] at hc
    cases hc
  constructor
  · intro h
    rw [hs]
    simp [h]
  · intro h
    rw [hs, List.append_assoc, List.mem_append, List.mem_append] at h
    exact (h.resolve_left (hnot front hfront)).resolve_right (hnot back hback)

/-- **What stands at the end of a text**, but for blanks, stands at its end when it is trimmed. -/
theorem suffix_trimChars {p : Char → Bool} (hne : w ≠ []) (hhead : ∀ c ∈ w.head?, p c = false)
    (hlast : ∀ c ∈ w.getLast?, p c = false) (hb : ∀ c ∈ b, p c = true) : w <:+ trimChars p (a ++ w ++ b) := by
  have hsuffix : w <:+ (a ++ w).dropWhile p := by
    rw [List.dropWhile_append]
    split
    · rw [dropWhile_of_head? hhead]
    · exact List.suffix_append _ _
  have htrim : trimChars p (a ++ w ++ b) = (a ++ w).dropWhile p := by
    refine trimChars_eq_iff.2 ⟨⟨(a ++ w).takeWhile p, b, ?_, fun c hc => List.mem_takeWhile_imp hc, hb⟩,
      head?_dropWhile p _, ?_⟩
    · rw [List.takeWhile_append_dropWhile]
    · obtain ⟨x, hx⟩ := hsuffix
      rw [← hx, List.getLast?_append_of_ne_nil _ hne]
      exact hlast
  rw [htrim]
  exact hsuffix

/-! ## Cuts -/

/-- **The first cut** is made at a place if there is none before it. -/
theorem cutFirst?_eq_some_of (h : ∀ x, x ≠ [] → x <:+ a → ¬p <+: x ++ (p ++ b)) :
    cutFirst? p (a ++ (p ++ b)) = some (a, b) := by
  induction a with
  | nil => exact cutFirst?_append p b
  | cons c a ih =>
    have hpass : ¬p <+: c :: (a ++ (p ++ b)) := h (c :: a) (by simp) List.suffix_rfl
    rw [List.cons_append, cutFirst?_cons hpass, ih fun x hne hx => h x hne (hx.trans (List.suffix_cons c a))]
    rfl

/-- So it is if its first character is nowhere before it. -/
theorem cutFirst?_of_notMem_head (ha : c ∉ a) : cutFirst? (c :: p) (a ++ (c :: p ++ b)) = some (a, b) := by
  refine cutFirst?_eq_some_of fun x hne hx hprefix => ?_
  cases x with
  | nil => exact hne rfl
  | cons d x =>
    obtain rfl : c = d := (List.cons_prefix_cons.1 hprefix).1
    exact ha (hx.subset List.mem_cons_self)

/-- So it is if its last character is nowhere before. -/
theorem cutFirst?_of_notMem_last (ha : c ∉ a) (hp : c ∉ p) :
    cutFirst? (p ++ [c]) (a ++ (p ++ [c] ++ b)) = some (a, b) := by
  refine cutFirst?_eq_some_of fun x hne hx hprefix => ?_
  have hlen : (p ++ [c]).length ≤ (x ++ p).length := by
    have := List.length_pos_of_ne_nil hne
    simp only [List.length_append, List.length_singleton]
    omega
  have hshort : p ++ [c] <+: x ++ p :=
    List.prefix_of_prefix_length_le hprefix ⟨[c] ++ b, by simp⟩ hlen
  rcases List.mem_append.1 (hshort.subset (by simp : c ∈ p ++ [c])) with hmem | hmem
  · exact ha (hx.subset hmem)
  · exact hp hmem

/-- **The last cut** is made at a place if its last character is nowhere after it. -/
theorem cutLast?_of_notMem (hb : c ∉ b) : cutLast? (p ++ [c]) (a ++ (p ++ [c] ++ b)) = some (a, b) := by
  have hcut := cutFirst?_of_notMem_head (p := p.reverse) (b := a.reverse) (List.mem_reverse.not.2 hb)
  have hrev : (a ++ (p ++ [c] ++ b)).reverse = b.reverse ++ (c :: p.reverse ++ a.reverse) := by simp
  rw [cutLast?, hrev, List.reverse_append, List.reverse_singleton, List.singleton_append, hcut]
  simp

theorem cutLast?_eq_none (h : ¬p <:+: s) : cutLast? p s = none := by
  rw [cutLast?, Option.map_eq_none_iff, ← Option.not_isSome_iff_eq_none, isSome_cutFirst?]
  exact fun hp => h (List.reverse_infix.1 hp)

/-- Around the last cut stand the two parts of the text. -/
theorem append_of_cutLast? (h : cutLast? p s = some (a, b)) : s = a ++ (p ++ b) := by
  obtain ⟨q, hcut, hq⟩ := Option.map_eq_some_iff.1 h
  obtain ⟨rfl, rfl⟩ := Prod.mk.inj hq
  rw [← List.reverse_inj, append_of_cutFirst? hcut]
  simp

/-! ## Pieces -/

theorem pieces_eq_singleton (h : ¬p <:+: s) : pieces p s = [s] := by
  have hnone : cutFirst? p s = none := by
    rw [← Option.not_isSome_iff_eq_none, isSome_cutFirst?]
    exact h
  unfold pieces
  cases hlen : s.length with
  | zero => rfl
  | succ n => simp [piecesWithin, hnone]

theorem pieces_of_cut (hp : p ≠ []) (h : cutFirst? p s = some (a, b)) : pieces p s = a :: pieces p b := by
  have hlen := length_lt_of_cutFirst? hp h
  unfold pieces
  obtain ⟨n, hn⟩ : ∃ n, s.length = n + 1 := ⟨s.length - 1, by omega⟩
  rw [hn, piecesWithin, h]
  dsimp only
  rw [piecesWithin_acc, piecesWithin_congr hp (by omega : b.length ≤ n) le_rfl]
  rfl

/-- **The last piece of a text** is what it ends with. -/
theorem exists_getLast?_pieces (hp : p ≠ []) (s : List Char) :
    ∃ piece, (pieces p s).getLast? = some piece ∧ (piece = s ∨ p ++ piece <:+ s) := by
  induction hn : s.length using Nat.strong_induction_on generalizing s with
  | _ n ih =>
    cases hcut : cutFirst? p s with
    | none =>
      have hnot : ¬p <:+: s := by
        rw [← isSome_cutFirst?, hcut]
        simp
      exact ⟨s, by rw [pieces_eq_singleton hnot]; rfl, Or.inl rfl⟩
    | some q =>
      -- what follows the first cut is shorter
      obtain ⟨piece, hlast, hpiece⟩ := ih q.2.length (hn ▸ length_lt_of_cutFirst? hp hcut) q.2 rfl
      have hsuffix : p ++ q.2 <:+ s := ⟨q.1, (append_of_cutFirst? hcut).symm⟩
      refine ⟨piece, ?_, Or.inr ?_⟩
      · rw [pieces_of_cut hp hcut, List.getLast?_cons, hlast]
        rfl
      · rcases hpiece with rfl | hpiece
        · exact hsuffix
        · exact hpiece.trans ((List.suffix_append p q.2).trans hsuffix)

end CodeAtlas.Text
