import CodeAtlas.Proofs.Text.Occurrences
import CodeAtlas.Text.Blank
import Mathlib.Data.List.TakeWhile

/-!
# Cuts of a text

A text is cut at a character, from the left, from the right or wherever it stands, and it is cut
off at its ends.

* `cutFirst?_eq_some_iff`, `cutLast?_eq_some_iff`: a cut at one character.
* `pieces_eq_splitOn`: the pieces between all of them.
* `mem_dropLast_splitOn`: **a piece that is not the last stands between two of these
  characters**, if one is put before the text.
* `IsTrimmed`, `trimChars_eq_iff`: a text without blanks around it.
* `dropBackAll_eq_iff`: a text without a word at its end, however often it stands there.
-/

namespace CodeAtlas.Text

variable {c : Char} {s a b : List Char}

/-! ## At a character -/

theorem stripFront?_singleton (c d : Char) (s : List Char) :
    stripFront? [c] (d :: s) = if c = d then some s else none := rfl

/-- A cut, after what has been passed. -/
theorem cutAt_eq_some_iff {before : List Char} :
    cutAt [c] before s = some (a, b) ↔ ∃ front, a = before.reverse ++ front ∧ s = front ++ c :: b ∧ c ∉ front := by
  induction s generalizing before with
  | nil => simp [cutAt, stripFront?]
  | cons d s ih =>
    unfold cutAt
    rw [stripFront?_singleton]
    by_cases hd : c = d
    · subst hd
      rw [if_pos rfl]
      constructor
      · intro h
        obtain ⟨rfl, rfl⟩ := Prod.mk.inj (Option.some.inj h)
        exact ⟨[], by simp, rfl, List.not_mem_nil⟩
      · rintro ⟨front, rfl, hs, hfront⟩
        -- the front would begin with the character itself
        cases front with
        | nil =>
          obtain ⟨-, rfl⟩ := List.cons.inj hs
          simp
        | cons x front =>
          obtain ⟨rfl, -⟩ := List.cons.inj hs
          exact absurd List.mem_cons_self hfront
    · rw [if_neg hd]
      refine ih.trans ⟨?_, ?_⟩
      · rintro ⟨front, rfl, rfl, hfront⟩
        refine ⟨d :: front, by simp, rfl, ?_⟩
        intro hmem
        rcases List.mem_cons.1 hmem with h | h
        · exact hd h
        · exact hfront h
      · rintro ⟨front, rfl, hs, hfront⟩
        cases front with
        | nil =>
          obtain ⟨h, -⟩ := List.cons.inj hs
          exact absurd h.symm hd
        | cons x front =>
          obtain ⟨rfl, rfl⟩ := List.cons.inj hs
          exact ⟨front, by simp, rfl, fun h => hfront (List.mem_cons_of_mem _ h)⟩

/-- **A cut at the first place** of a character. -/
theorem cutFirst?_eq_some_iff : cutFirst? [c] s = some (a, b) ↔ s = a ++ c :: b ∧ c ∉ a := by
  unfold cutFirst?
  rw [cutAt_eq_some_iff]
  simp

theorem cutFirst?_eq_none_iff : cutFirst? [c] s = none ↔ c ∉ s := by
  constructor
  · intro h hc
    obtain ⟨a, b, rfl, ha⟩ := List.eq_append_cons_of_mem hc
    rw [cutFirst?_eq_some_iff.2 ⟨rfl, ha⟩] at h
    cases h
  · intro hc
    cases h : cutFirst? [c] s with
    | none => rfl
    | some p =>
      obtain ⟨hs, -⟩ := cutFirst?_eq_some_iff.1 (show cutFirst? [c] s = some (p.1, p.2) from h)
      exact absurd (hs ▸ List.mem_append_right p.1 List.mem_cons_self) hc

/-- **A cut at the last place** of a character. -/
theorem cutLast?_eq_some_iff : cutLast? [c] s = some (a, b) ↔ s = a ++ c :: b ∧ c ∉ b := by
  have hcut : cutLast? [c] s = some (a, b) ↔ cutFirst? [c] s.reverse = some (b.reverse, a.reverse) := by
    show ((cutFirst? [c] s.reverse).map fun p => (p.2.reverse, p.1.reverse)) = some (a, b) ↔ _
    rw [Option.map_eq_some_iff]
    constructor
    · rintro ⟨p, hp, h⟩
      obtain ⟨rfl, rfl⟩ := Prod.mk.inj h
      simpa using hp
    · intro h
      exact ⟨_, h, by simp⟩
  rw [hcut, cutFirst?_eq_some_iff, List.mem_reverse]
  refine and_congr_left fun _ => ?_
  rw [← List.reverse_inj]
  simp

theorem cutLast?_eq_none_iff : cutLast? [c] s = none ↔ c ∉ s := by
  show (cutFirst? [c] s.reverse).map _ = none ↔ _
  rw [Option.map_eq_none_iff, cutFirst?_eq_none_iff, List.mem_reverse]

/-! ## Pieces -/

theorem splitOn_of_notMem (h : c ∉ s) : s.splitOn c = [s] := by
  rw [List.splitOn_eq_splitOnP]
  apply List.splitOnP_eq_singleton
  intro x hx
  simp only [beq_eq_false_iff_ne]
  rintro rfl
  exact h hx

theorem splitOn_append_cons (h : c ∉ a) : (a ++ c :: b).splitOn c = a :: b.splitOn c := by
  have ha := splitOn_of_notMem h
  rw [List.splitOn_eq_splitOnP] at ha ⊢
  rw [List.splitOnP_append_cons a b (by simp), ha, List.splitOn_eq_splitOnP]
  rfl

theorem piecesWithin_eq {n : ℕ} (acc : List (List Char)) (h : s.length ≤ n) :
    piecesWithin [c] n acc s = acc.reverse ++ s.splitOn c := by
  induction n generalizing s acc with
  | zero =>
    obtain rfl := List.length_eq_zero_iff.1 (Nat.le_zero.1 h)
    simp [piecesWithin]
  | succ n ih =>
    unfold piecesWithin
    cases hcut : cutFirst? [c] s with
    | none =>
      rw [splitOn_of_notMem (cutFirst?_eq_none_iff.1 hcut)]
      simp
    | some p =>
      obtain ⟨hs, hp⟩ := cutFirst?_eq_some_iff.1 (show cutFirst? [c] s = some (p.1, p.2) from hcut)
      have hlen : p.2.length ≤ n := by
        have := congrArg List.length hs
        rw [List.length_append, List.length_cons] at this
        omega
      rw [hs, splitOn_append_cons hp]
      simp only [ih _ hlen, List.reverse_cons, List.append_assoc, List.singleton_append]

/-- **The pieces between the places of a character.** -/
theorem pieces_eq_splitOn (c : Char) (s : List Char) : pieces [c] s = s.splitOn c := by
  unfold pieces
  rw [piecesWithin_eq [] le_rfl]
  rfl

/-- What begins with a character occurs where the character does. -/
theorem infix_of_infix_append {p l : List Char} (ha : c ∉ a) (h : c :: p <:+: a ++ l) : c :: p <:+: l := by
  induction a with
  | nil => exact h
  | cons x a ih =>
    rcases List.infix_cons_iff.1 h with h | h
    · obtain ⟨rfl, -⟩ := List.cons_prefix_cons.1 h
      exact absurd List.mem_cons_self ha
    · exact ih (fun hc => ha (List.mem_cons_of_mem _ hc)) h

/-- **A piece that is not the last stands between two separators**, if one is put before the text. -/
theorem mem_dropLast_splitOn {d : List Char} (hd : c ∉ d) :
    d ∈ (s.splitOn c).dropLast ↔ c :: d ++ [c] <:+: c :: s := by
  induction hn : s.length using Nat.strong_induction_on generalizing s with
  | _ n ih =>
    by_cases hc : c ∈ s
    · -- the first piece, and those of the rest
      obtain ⟨a, b, rfl, ha⟩ := List.eq_append_cons_of_mem hc
      rw [List.length_append, List.length_cons] at hn
      have hinfix : c :: (d ++ [c]) <:+: c :: (a ++ c :: b) ↔
          c :: (d ++ [c]) <+: c :: (a ++ c :: b) ∨ c :: (d ++ [c]) <:+: a ++ c :: b := List.infix_cons_iff
      rw [splitOn_append_cons ha, List.dropLast_cons_of_ne_nil (List.splitOn_ne_nil c b), List.mem_cons,
        ih b.length (by omega) rfl, List.cons_append, hinfix]
      refine or_congr ?first ?rest
      case first =>
        rw [List.cons_prefix_cons]
        constructor
        · rintro rfl
          exact ⟨rfl, b, by simp⟩
        · rintro ⟨-, r, hr⟩
          rw [List.append_assoc, List.singleton_append] at hr
          -- both are what stands before the first separator
          have hcut : cutFirst? [c] (d ++ c :: r) = some (d, r) := cutFirst?_eq_some_iff.2 ⟨rfl, hd⟩
          rw [hr, cutFirst?_eq_some_iff.2 ⟨rfl, ha⟩] at hcut
          exact (Prod.mk.inj (Option.some.inj hcut)).1.symm
      case rest =>
        constructor
        · intro h
          exact h.trans (List.suffix_append a (c :: b)).isInfix
        · exact infix_of_infix_append ha
    · rw [splitOn_of_notMem hc]
      refine iff_of_false (by simp) fun h => ?_
      -- the text would have the character once more
      have hcount := h.sublist.count_le c
      rw [List.count_cons_self, List.count_eq_zero_of_not_mem hc] at hcount
      simp at hcount

/-! ## Off the ends -/

/-- **What is left of a text** without the characters of a class around it. -/
structure IsTrimmed (p : Char → Bool) (s t : List Char) : Prop where
  around : ∃ front back, s = front ++ t ++ back ∧ (∀ c ∈ front, p c = true) ∧ ∀ c ∈ back, p c = true
  front : ∀ c ∈ t.head?, p c = false
  back : ∀ c ∈ t.getLast?, p c = false

variable {p : Char → Bool} {t : List Char}

theorem dropWhile_of_head? (h : ∀ c ∈ s.head?, p c = false) : s.dropWhile p = s := by
  cases s with
  | nil => rfl
  | cons c s => exact List.dropWhile_cons_of_neg (by simpa using h c rfl)

theorem head?_dropWhile (p : Char → Bool) (s : List Char) : ∀ c ∈ (s.dropWhile p).head?, p c = false := by
  intro c hc
  have hnot := List.head?_dropWhile_not p s
  rw [Option.mem_def] at hc
  simpa [hc] using hnot

/-- **Trimming leaves exactly this.** -/
theorem trimChars_eq_iff : trimChars p s = t ↔ IsTrimmed p s t := by
  constructor
  · rintro rfl
    have hfront := List.takeWhile_append_dropWhile (p := p) (l := s)
    have hback := List.takeWhile_append_dropWhile (p := p) (l := (s.dropWhile p).reverse)
    refine ⟨⟨s.takeWhile p, ((s.dropWhile p).reverse.takeWhile p).reverse, ?parts, ?front, ?back⟩, ?head, ?last⟩
    case parts => rw [List.append_assoc, trimChars, ← List.reverse_append, hback, List.reverse_reverse, hfront]
    case front => exact fun c hc => List.mem_takeWhile_imp hc
    case back => exact fun c hc => List.mem_takeWhile_imp (List.mem_reverse.1 hc)
    case head =>
      -- what is left begins as the text does once its front is taken off
      intro c hc
      apply head?_dropWhile p s c
      obtain ⟨r, hr⟩ : trimChars p s <+: s.dropWhile p := by
        rw [trimChars, ← List.reverse_suffix, List.reverse_reverse]
        exact List.dropWhile_suffix p
      rw [← hr, List.head?_append, Option.mem_def.1 hc]
      rfl
    case last =>
      intro c hc
      rw [trimChars, List.getLast?_reverse] at hc
      exact head?_dropWhile p _ c hc
  · rintro ⟨⟨front, back, rfl, hfront, hback⟩, hhead, hlast⟩
    unfold trimChars
    rw [List.append_assoc, List.dropWhile_append_of_pos hfront]
    cases t with
    | nil =>
      rw [List.nil_append, List.dropWhile_eq_nil_iff.2 hback]
      rfl
    | cons d t =>
      have hfirst : (d :: t ++ back).dropWhile p = d :: t ++ back := dropWhile_of_head? (by simpa using hhead)
      rw [hfirst, List.reverse_append,
        List.dropWhile_append_of_pos fun c hc => hback c (List.mem_reverse.1 hc), dropWhile_of_head?,
        List.reverse_reverse]
      rw [List.head?_reverse]
      exact hlast

theorem stripFront?_eq_some_iff {w r : List Char} : stripFront? w s = some r ↔ s = w ++ r :=
  ⟨stripFront?_eq_some, fun h => h ▸ stripFront?_append w r⟩

/-- Copies of a word before a text that does not begin with it. -/
theorem dropBackWithin_replicate {w r : List Char} (hr : ¬w <+: r) {k n : ℕ} (hk : k ≤ n) :
    dropBackWithin w n ((List.replicate k w).flatten ++ r) = r := by
  induction k generalizing n with
  | zero =>
    cases n with
    | zero => rfl
    | succ n =>
      have hnone : stripFront? w r = none := by
        rw [Option.eq_none_iff_forall_ne_some]
        intro rest h
        exact hr ⟨rest, (stripFront?_eq_some_iff.1 h).symm⟩
      simp [dropBackWithin, hnone]
  | succ k ih =>
    obtain ⟨n, rfl⟩ : ∃ m, n = m + 1 := ⟨n - 1, by omega⟩
    rw [List.replicate_succ, List.flatten_cons, List.append_assoc]
    simp only [dropBackWithin, stripFront?_append]
    exact ih (by omega)

/-- **A text begins with some copies of a word** and what does not begin with it. -/
theorem exists_replicate {w : List Char} (hw : w ≠ []) (s : List Char) :
    ∃ k r, s = (List.replicate k w).flatten ++ r ∧ ¬w <+: r := by
  induction hn : s.length using Nat.strong_induction_on generalizing s with
  | _ n ih =>
    by_cases h : w <+: s
    · obtain ⟨rest, rfl⟩ := h
      have hlen : 0 < w.length := List.length_pos_of_ne_nil hw
      rw [List.length_append] at hn
      obtain ⟨k, r, hrest, hr⟩ := ih rest.length (by omega) rest rfl
      refine ⟨k + 1, r, ?_, hr⟩
      rw [List.replicate_succ, List.flatten_cons, List.append_assoc, ← hrest]
    · exact ⟨0, s, by simp, h⟩

/-- **A text without a word at its end, however often it stands there.** -/
theorem dropBackAll_eq_iff {s w t : String} (hw : w ≠ "") :
    dropBackAll s w = t ↔
      (∃ k, s.toList = t.toList ++ (List.replicate k w.toList).flatten) ∧ ¬w.toList <:+ t.toList := by
  have hne : w.toList.reverse ≠ [] := by simpa using hw
  -- it does not matter how many copies are meant: the text without them determines their number
  have hdrop (k : ℕ) (r : List Char) (hs : s.toList = r ++ (List.replicate k w.toList).flatten)
      (hr : ¬w.toList <:+ r) : dropBackAll s w = String.ofList r := by
    have hrev : s.toList.reverse = (List.replicate k w.toList.reverse).flatten ++ r.reverse := by
      rw [hs, List.reverse_append, List.reverse_flatten]
      simp
    have hk : k ≤ s.length := by
      have hlen : s.toList.length = r.length + k * w.toList.length := by simp [hs]
      have hpos : 0 < w.toList.length := List.length_pos_of_ne_nil (by simpa using hw)
      rw [← String.length_toList, hlen]
      exact (Nat.le_mul_of_pos_right k hpos).trans (Nat.le_add_left _ _)
    unfold dropBackAll
    rw [if_neg (by simpa using hw), hrev, dropBackWithin_replicate (by simpa using hr) hk, List.reverse_reverse]
  constructor
  · rintro rfl
    obtain ⟨k, r, hrev, hr⟩ := exists_replicate hne s.toList.reverse
    have hs : s.toList = r.reverse ++ (List.replicate k w.toList).flatten := by
      rw [← List.reverse_reverse s.toList, hrev, List.reverse_append, List.reverse_flatten]
      simp
    have hnot : ¬w.toList <:+ r.reverse := by rwa [← List.reverse_prefix, List.reverse_reverse]
    rw [hdrop k r.reverse hs hnot, String.toList_ofList]
    exact ⟨⟨k, hs⟩, hnot⟩
  · rintro ⟨⟨k, hs⟩, hnot⟩
    rw [hdrop k t.toList hs hnot, String.ofList_toList]

end CodeAtlas.Text
