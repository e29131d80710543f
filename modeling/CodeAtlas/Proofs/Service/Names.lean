import CodeAtlas.Proofs.Text.Cuts
import CodeAtlas.Service.Registration

/-!
# Names of repositories

A registration may give a name with blanks around it and with copies of `.git` at its end. What is
left without them is accepted if it is an owner and a name.

* `Tidied`, `tidy_eq_iff`: what is left of a name.
* `IsFullName`, `isFullName_iff`: an owner and a name.
* `acceptedName?_eq_some_iff`: **which registrations are accepted, and under which name.**
-/

namespace CodeAtlas.Registration

/-- **What is left of a name** without the blanks around it and then without the copies of `.git` at its end. -/
def Tidied (given name : String) : Prop :=
  ∃ trimmed k, Text.IsTrimmed Text.isBlank given.toList trimmed ∧
    trimmed = name.toList ++ (List.replicate k ".git".toList).flatten ∧ ¬".git".toList <:+ name.toList

/-- **An owner and a name**, neither of them empty, with the only slash between them and no blank anywhere. -/
structure IsFullName (s : String) : Prop where
  parts : ∃ owner name, s.toList = owner ++ '/' :: name ∧ owner ≠ [] ∧ name ≠ [] ∧ '/' ∉ owner ∧ '/' ∉ name
  noBlank : ∀ c ∈ s.toList, Text.isBlank c = false

/-- **A registration names a repository** if what is left of the name that it gives is an owner and a name. -/
def Names (q : Registration) (name : String) : Prop := Tidied q.fullName name ∧ IsFullName name

variable {q : Registration} {s given name : String}

theorem tidy_eq_iff : tidy given = name ↔ Tidied given name := by
  have htrim : (Text.trim given).toList = Text.trimChars Text.isBlank given.toList := String.toList_ofList
  unfold tidy Tidied
  rw [Text.dropBackAll_eq_iff (by decide), htrim]
  constructor
  · rintro ⟨⟨k, hk⟩, hnot⟩
    exact ⟨_, k, Text.trimChars_eq_iff.1 rfl, hk, hnot⟩
  · rintro ⟨trimmed, k, htrimmed, hk, hnot⟩
    obtain rfl := Text.trimChars_eq_iff.2 htrimmed
    exact ⟨⟨k, hk⟩, hnot⟩

theorem contains_slash_iff : Text.contains s "/" = true ↔ '/' ∈ s.toList := by
  rw [Text.contains_iff, show "/".toList = ['/'] from rfl, List.singleton_infix_iff]

theorem isFullName_iff : isFullName s = true ↔ IsFullName s := by
  unfold isFullName Text.splitFirst?
  rw [show "/".toList = ['/'] from rfl]
  cases hcut : Text.cutFirst? ['/'] s.toList with
  | none =>
    have hnone := Text.cutFirst?_eq_none_iff.1 hcut
    refine iff_of_false (by simp) fun h => ?_
    obtain ⟨owner, name, hs, -⟩ := h.parts
    exact hnone (by simp [hs])
  | some p =>
    obtain ⟨owner, name⟩ := p
    obtain ⟨hs, howner⟩ := Text.cutFirst?_eq_some_iff.1 hcut
    have hcheck : (String.ofList owner ≠ "" && String.ofList name ≠ "" && !Text.contains (String.ofList name) "/" &&
        !s.toList.any Text.isBlank) = true ↔
        (owner ≠ [] ∧ name ≠ [] ∧ '/' ∉ name) ∧ ∀ c ∈ s.toList, Text.isBlank c = false := by
      have hslash : Text.contains (String.ofList name) "/" = false ↔ '/' ∉ name := by
        rw [← Bool.not_eq_true, contains_slash_iff, String.toList_ofList]
      simp only [Bool.and_eq_true, Bool.not_eq_true', decide_eq_true_eq, hslash, List.any_eq_false, Bool.not_eq_true,
        and_assoc, ne_eq, String.ofList_eq_empty_iff]
    show (_ && _ && _ && _) = true ↔ _
    rw [hcheck]
    constructor
    · rintro ⟨⟨ho, hn, hslash⟩, hblank⟩
      exact ⟨⟨owner, name, hs, ho, hn, howner, hslash⟩, hblank⟩
    · rintro ⟨⟨owner', name', hs', ho, hn, howner', hslash⟩, hblank⟩
      -- both are cut at the first slash
      have hsame := Text.cutFirst?_eq_some_iff.2 ⟨hs', howner'⟩
      rw [hcut] at hsame
      obtain ⟨rfl, rfl⟩ := Prod.mk.inj (Option.some.inj hsame)
      exact ⟨⟨ho, hn, hslash⟩, hblank⟩

/-- **Which registrations are accepted**, and under which name. -/
theorem acceptedName?_eq_some_iff : q.acceptedName? = some name ↔ q.Names name := by
  unfold acceptedName? Names
  rw [← tidy_eq_iff, ← isFullName_iff]
  constructor
  · intro h
    split_ifs at h with hfull
    obtain rfl := Option.some.inj h
    exact ⟨rfl, hfull⟩
  · rintro ⟨rfl, hfull⟩
    rw [if_pos hfull]

theorem acceptedName?_eq_none_iff : q.acceptedName? = none ↔ ∀ name, ¬q.Names name := by
  rw [Option.eq_none_iff_forall_ne_some]
  exact forall_congr' fun name => not_congr acceptedName?_eq_some_iff

end CodeAtlas.Registration
