import CodeAtlas.Proofs.Text.Places

/-!
# Taking a text out of a text

All occurrences of a text are taken out of another one, from the left and without overlap.
Each step looks at the front only: either an occurrence begins there, or one character is kept.

* `without`: what is left.
* `without_append_self`, `without_cons`, `without_rec`: the steps, and induction over them.
* `without_append`: **a text may be cut** where no occurrence reaches over the cut.
* `exists_of_without_eq_append`: a cut of what is left is one of the text.
* `without_eq_self_iff`: nothing is taken out exactly if there is no occurrence.
-/

namespace CodeAtlas.Text

variable {p s r a b x y : List Char} {c : Char}

/-- What is left of a text without the occurrences of another one. -/
def without (p s : List Char) : List Char := (pieces p s).flatten

/-! ## Steps -/

theorem piecesWithin_acc (n : ℕ) (acc : List (List Char)) (s : List Char) :
    piecesWithin p n acc s = acc.reverse ++ piecesWithin p n [] s := by
  induction n generalizing acc s with
  | zero => simp [piecesWithin]
  | succ n ih =>
    unfold piecesWithin
    cases cutFirst? p s with
    | none => simp
    | some q =>
      simp only
      rw [ih (q.1 :: acc), ih [q.1]]
      simp

/-- What follows a cut is shorter than the text. -/
theorem length_lt_of_cutFirst? (hp : p ≠ []) (h : cutFirst? p s = some (a, b)) : b.length < s.length := by
  have hlen : 0 < p.length := List.length_pos_of_ne_nil hp
  rw [append_of_cutFirst? h]
  simp only [List.length_append]
  omega

/-- The number of cuts that are allowed does not matter if it is large enough. -/
theorem piecesWithin_congr (hp : p ≠ []) {n m : ℕ} (hn : s.length ≤ n) (hm : s.length ≤ m) :
    piecesWithin p n [] s = piecesWithin p m [] s := by
  induction n generalizing m s with
  | zero =>
    obtain rfl := List.length_eq_zero_iff.1 (Nat.le_zero.1 hn)
    cases m with
    | zero => rfl
    | succ m => simp [piecesWithin, cutFirst?_nil hp]
  | succ n ih =>
    cases m with
    | zero =>
      obtain rfl := List.length_eq_zero_iff.1 (Nat.le_zero.1 hm)
      simp [piecesWithin, cutFirst?_nil hp]
    | succ m =>
      unfold piecesWithin
      cases hcut : cutFirst? p s with
      | none => rfl
      | some q =>
        have hlen : q.2.length < s.length := length_lt_of_cutFirst? hp hcut
        simp only
        rw [piecesWithin_acc n, piecesWithin_acc m, ih (m := m) (by omega) (by omega)]

/-- The pieces of a text: what stands before the first occurrence, and the pieces of what follows it. -/
theorem without_eq (hp : p ≠ []) (s : List Char) :
    without p s = (cutFirst? p s).elim s fun q => q.1 ++ without p q.2 := by
  unfold without pieces
  cases hcut : cutFirst? p s with
  | none => cases s <;> simp [piecesWithin, hcut]
  | some q =>
    have hlen : q.2.length < s.length := length_lt_of_cutFirst? hp hcut
    obtain ⟨n, hn⟩ : ∃ n, s.length = n + 1 := ⟨s.length - 1, by omega⟩
    rw [hn, piecesWithin, hcut]
    simp only [Option.elim_some]
    rw [piecesWithin_acc, piecesWithin_congr hp (by omega) le_rfl]
    simp

theorem without_nil (hp : p ≠ []) : without p [] = [] := by
  rw [without_eq hp, cutFirst?_nil hp]
  rfl

/-- An occurrence at the front is taken out. -/
theorem without_append_self (hp : p ≠ []) (s : List Char) : without p (p ++ s) = without p s := by
  rw [without_eq hp, cutFirst?_append]
  rfl

/-- A character is kept if no occurrence begins there. -/
theorem without_cons (hp : p ≠ []) (h : ¬p <+: c :: s) : without p (c :: s) = c :: without p s := by
  rw [without_eq hp, without_eq hp s, cutFirst?_cons h]
  cases cutFirst? p s <;> rfl

/-- **Induction over the steps**: an occurrence is taken out, or a character is kept. -/
theorem without_rec {motive : List Char → Prop} (hp : p ≠ []) (nil : motive [])
    (found : ∀ r, motive r → motive (p ++ r)) (kept : ∀ c r, ¬p <+: c :: r → motive r → motive (c :: r))
    (s : List Char) : motive s := by
  induction hn : s.length using Nat.strong_induction_on generalizing s with
  | _ n ih =>
    cases s with
    | nil => exact nil
    | cons c r =>
      by_cases h : p <+: c :: r
      · obtain ⟨r', hr'⟩ := h
        have hlen : 0 < p.length := List.length_pos_of_ne_nil hp
        have hsum := congrArg List.length hr'
        rw [List.length_append, hn] at hsum
        rw [← hr']
        exact found r' (ih r'.length (by omega) r' rfl)
      · rw [List.length_cons] at hn
        exact kept c r h (ih r.length (by omega) r rfl)

/-! ## Cuts -/

/-- **A text may be cut** where no occurrence reaches over the cut. -/
theorem without_append (hp : p ≠ []) (h : ∀ x y, p = x ++ y → x ≠ [] → y ≠ [] → x <:+ a → ¬y <+: b) :
    without p (a ++ b) = without p a ++ without p b := by
  induction a using without_rec hp with
  | nil => simp [without_nil hp]
  | found r ih =>
    rw [List.append_assoc, without_append_self hp, without_append_self hp]
    exact ih fun x y hxy hx hy hxr => h x y hxy hx hy (hxr.trans (List.suffix_append p r))
  | kept c r hc ih =>
    have hrest := ih fun x y hxy hx hy hxr => h x y hxy hx hy (hxr.trans (List.suffix_cons c r))
    have hnot : ¬p <+: c :: (r ++ b) := by
      rintro ⟨t, ht⟩
      -- an occurrence there ends before the cut, or reaches over it
      rcases List.append_eq_append_iff.1 (show p ++ t = (c :: r) ++ b from ht) with ⟨z, hz, -⟩ | ⟨z, hz, hb⟩
      · exact hc ⟨z, hz.symm⟩
      · by_cases hempty : z = []
        · subst hempty
          exact hc ⟨[], by simpa using hz⟩
        · exact h (c :: r) z hz (List.cons_ne_nil c r) hempty (List.suffix_refl _) ⟨t, hb.symm⟩
    rw [List.cons_append, without_cons hp hnot, without_cons hp hc, hrest, List.cons_append]

/-- **A cut of what is left** is one of the text. -/
theorem exists_of_without_eq_append (hp : p ≠ []) (h : without p s = x ++ y) :
    ∃ a b, s = a ++ b ∧ without p a = x ∧ without p b = y := by
  induction s using without_rec hp generalizing x with
  | nil =>
    rw [without_nil hp] at h
    obtain ⟨rfl, rfl⟩ := List.append_eq_nil_iff.1 h.symm
    exact ⟨[], [], rfl, without_nil hp, without_nil hp⟩
  | found r ih =>
    rw [without_append_self hp] at h
    obtain ⟨a, b, rfl, ha, hb⟩ := ih h
    exact ⟨p ++ a, b, by simp, by rw [without_append_self hp, ha], hb⟩
  | kept c r hc ih =>
    cases x with
    | nil => exact ⟨[], c :: r, rfl, without_nil hp, h⟩
    | cons d x =>
      rw [without_cons hp hc, List.cons_append] at h
      obtain ⟨rfl, hr⟩ := List.cons.inj h
      obtain ⟨a, b, rfl, ha, hb⟩ := ih hr
      have hnot : ¬p <+: c :: a := fun hpre => hc (hpre.trans (List.prefix_append (c :: a) b))
      exact ⟨c :: a, b, rfl, by rw [without_cons hp hnot, ha], hb⟩

/-- **The first character that is left** stands behind occurrences that are taken out. -/
theorem exists_of_without_eq_cons (hp : p ≠ []) (h : without p s = c :: y) :
    ∃ a b, s = a ++ c :: b ∧ without p a = [] ∧ without p b = y := by
  induction s using without_rec hp with
  | nil =>
    rw [without_nil hp] at h
    cases h
  | found r ih =>
    rw [without_append_self hp] at h
    obtain ⟨a, b, rfl, ha, hb⟩ := ih h
    exact ⟨p ++ a, b, by simp, by rw [without_append_self hp, ha], hb⟩
  | kept d r hd ih =>
    rw [without_cons hp hd] at h
    obtain ⟨rfl, hr⟩ := List.cons.inj h
    exact ⟨[], r, rfl, without_nil hp, hr⟩

/-! ## What stays -/

/-- The text is no longer than before, and shorter if there is an occurrence. -/
theorem length_without (hp : p ≠ []) (s : List Char) :
    (without p s).length ≤ s.length ∧ (p <:+: s → (without p s).length < s.length) := by
  have hlen : 0 < p.length := List.length_pos_of_ne_nil hp
  induction s using without_rec hp with
  | nil =>
    rw [without_nil hp]
    exact ⟨le_rfl, fun h => absurd (List.infix_nil.1 h) hp⟩
  | found r ih =>
    rw [without_append_self hp, List.length_append]
    exact ⟨by omega, fun _ => by omega⟩
  | kept c r hc ih =>
    rw [without_cons hp hc]
    simp only [List.length_cons]
    refine ⟨by omega, fun h => ?_⟩
    have hr := ih.2 ((List.infix_cons_iff.1 h).resolve_left hc)
    omega

/-- **Nothing is taken out** exactly if there is no occurrence. -/
theorem without_eq_self_iff (hp : p ≠ []) : without p s = s ↔ ¬p <:+: s := by
  constructor
  · intro h hin
    have hlt := (length_without hp s).2 hin
    rw [h] at hlt
    omega
  · intro h
    have hnone : cutFirst? p s = none := by
      rw [← Option.not_isSome_iff_eq_none, isSome_cutFirst?]
      exact h
    rw [without_eq hp, hnone]
    rfl

/-! ## Texts -/

theorem intercalate_empty (l : List (List Char)) : [].intercalate l = l.flatten := by
  induction l with
  | nil => rfl
  | cons a l ih =>
    cases l with
    | nil => simp
    | cons b l =>
      rw [List.intercalate_cons_cons, ih]
      simp

/-- To write nothing for each occurrence is to take it out. -/
theorem toList_replace_empty (s p : String) : (replace s p "").toList = without p.toList s.toList := by
  have hpieces : (split s p).map String.toList = pieces p.toList s.toList := by
    unfold split
    simp
  have hempty : "".toList = [] := rfl
  unfold replace without
  rw [String.toList_intercalate, hpieces, hempty, intercalate_empty]

end CodeAtlas.Text
