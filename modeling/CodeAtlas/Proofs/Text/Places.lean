import CodeAtlas.Proofs.Text.Occurrences
import Mathlib.Data.List.Basic

/-!
# The first place of a text

A text is cut where another text stands in it for the first time. The cut is made from
character to character: either the text begins there, or one more character is passed.

* `cutFirst?_append`, `cutFirst?_cons`, `cutFirst?_nil`: the cut from character to character.
* `isSome_cutFirst?`: a cut is made if there is an occurrence.
* `suffix_of_cutFirst?`: **what follows the first occurrence has all that follows another one.**
-/

namespace CodeAtlas.Text

variable {p s a b : List Char} {c : Char}

/-- What has been passed stands before the cut. -/
theorem cutAt_eq (p before s : List Char) :
    cutAt p before s = (cutFirst? p s).map fun q => (before.reverse ++ q.1, q.2) := by
  unfold cutFirst?
  induction s generalizing before with
  | nil =>
    unfold cutAt
    cases stripFront? p [] <;> simp
  | cons c s ih =>
    unfold cutAt
    cases stripFront? p (c :: s) with
    | some r => simp
    | none =>
      simp only [ih (c :: before), ih [c], Option.map_map]
      congr 1
      funext q
      simp

theorem cutFirst?_append (p s : List Char) : cutFirst? p (p ++ s) = some ([], s) := by
  have hstrip := stripFront?_append p s
  unfold cutFirst?
  cases hs : p ++ s with
  | nil =>
    rw [hs] at hstrip
    simp [cutAt, hstrip]
  | cons c r =>
    rw [hs] at hstrip
    simp [cutAt, hstrip]

theorem stripFront?_eq_none (h : ¬p <+: s) : stripFront? p s = none := by
  rw [Option.eq_none_iff_forall_ne_some]
  intro r hr
  exact h ⟨r, (stripFront?_eq_some hr).symm⟩

/-- A character at which the text does not begin is passed. -/
theorem cutFirst?_cons (h : ¬p <+: c :: s) :
    cutFirst? p (c :: s) = (cutFirst? p s).map fun q => (c :: q.1, q.2) := by
  have hcut : cutFirst? p (c :: s) = cutAt p [c] s := by
    unfold cutFirst?
    rw [cutAt, stripFront?_eq_none h]
  rw [hcut, cutAt_eq]
  rfl

theorem cutFirst?_nil (hp : p ≠ []) : cutFirst? p [] = none := by
  have hnot : ¬p <+: [] := fun h => hp (List.prefix_nil.1 h)
  simp [cutFirst?, cutAt, stripFront?_eq_none hnot]

/-- **Around a cut** stand the two parts of the text. -/
theorem append_of_cutFirst? (h : cutFirst? p s = some (a, b)) : s = a ++ (p ++ b) := by
  induction s generalizing a with
  | nil =>
    by_cases hp : p = []
    · subst hp
      obtain ⟨rfl, rfl⟩ := Prod.mk.inj (Option.some.inj h)
      rfl
    · rw [cutFirst?_nil hp] at h
      cases h
  | cons c s ih =>
    by_cases hp : p <+: c :: s
    · obtain ⟨r, hr⟩ := hp
      rw [← hr, cutFirst?_append] at h
      obtain ⟨rfl, rfl⟩ := Prod.mk.inj (Option.some.inj h)
      exact hr.symm
    · rw [cutFirst?_cons hp, Option.map_eq_some_iff] at h
      obtain ⟨⟨a', b'⟩, hcut, hab⟩ := h
      obtain ⟨rfl, rfl⟩ := Prod.mk.inj hab
      exact congrArg (c :: ·) (ih hcut)

/-- **What follows the first occurrence** has what follows any other occurrence at its end. -/
theorem suffix_of_cutFirst? (h : cutFirst? p s = some (a, b)) {x r : List Char} (hs : s = x ++ (p ++ r)) : r <:+ b := by
  induction s generalizing a x with
  | nil =>
    obtain ⟨-, hpr⟩ := List.append_eq_nil_iff.1 hs.symm
    rw [(List.append_eq_nil_iff.1 hpr).2]
    exact List.nil_suffix
  | cons c s ih =>
    by_cases hp : p <+: c :: s
    · -- nothing is passed, so no occurrence is earlier
      obtain ⟨r', hr'⟩ := hp
      rw [← hr', cutFirst?_append] at h
      obtain ⟨-, rfl⟩ := Prod.mk.inj (Option.some.inj h)
      have hlen : r.length ≤ r'.length := by
        have := congrArg List.length (hr'.trans hs)
        simp only [List.length_append] at this
        omega
      refine List.suffix_of_suffix_length_le ?_ ⟨p, hr'⟩ hlen
      rw [hs]
      exact ⟨x ++ p, by simp⟩
    · rw [cutFirst?_cons hp, Option.map_eq_some_iff] at h
      obtain ⟨⟨a', b'⟩, hcut, hab⟩ := h
      obtain ⟨-, rfl⟩ := Prod.mk.inj hab
      cases x with
      | nil => exact absurd ⟨r, hs.symm⟩ hp
      | cons d x => exact ih hcut (List.cons.inj hs).2

theorem isSome_cutFirst? : (cutFirst? p s).isSome = true ↔ p <:+: s := by
  constructor
  · intro h
    obtain ⟨⟨a, b⟩, hcut⟩ := Option.isSome_iff_exists.1 h
    exact ⟨a, b, by rw [append_of_cutFirst? hcut, List.append_assoc]⟩
  · intro h
    induction s with
    | nil =>
      rw [List.infix_nil] at h
      subst h
      rfl
    | cons c s ih =>
      by_cases hp : p <+: c :: s
      · obtain ⟨r, hr⟩ := hp
        rw [← hr, cutFirst?_append]
        rfl
      · rw [cutFirst?_cons hp, Option.isSome_map]
        exact ih ((List.infix_cons_iff.1 h).resolve_left hp)

end CodeAtlas.Text
