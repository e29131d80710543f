import CodeAtlas.Proofs.Profile.Words
import CodeAtlas.Proofs.Text.Trimming
import CodeAtlas.Summary.Basic

/-!
# Clean lists

A list is cleaned by trimming its texts and leaving out those that are blank and those that
differ from an earlier one in case only. In lower case a clean list is thus what keywords are
made of the same texts, and a text that would be left out can as well not be there.

* `IsClean`: trimmed texts, none empty, of which no two differ in case only.
* `map_lower_cleanList`: a cleaned list in lower case.
* `cleanList_eq_self_iff`: **the lists that cleaning leaves as they are.**
* `Padded`: a list with blank texts and repetitions added to it.
* `cleanList_of_padded`: **what is added so is left out again.**
-/

namespace CodeAtlas

/-- **A clean list**: trimmed texts, none of them empty and all different in lower case. -/
structure IsClean (l : List String) : Prop where
  trimmed : ∀ s ∈ l, Text.trim s = s
  nonempty : ∀ s ∈ l, s ≠ ""
  apart : (l.map Text.lower).Nodup

variable {seen l l' a : List String} {s t : String}

theorem isClean_nil : IsClean [] := ⟨List.forall_mem_nil _, List.forall_mem_nil _, List.nodup_nil⟩

theorem IsClean.sublist (h : IsClean l) (hsub : l'.Sublist l) : IsClean l' where
  trimmed := fun s hs => h.trimmed s (hsub.subset hs)
  nonempty := fun s hs => h.nonempty s (hsub.subset hs)
  apart := h.apart.sublist (hsub.map Text.lower)

theorem trim_eq_empty_iff_normalized : Text.trim s = "" ↔ normalized s = "" := Text.lower_eq_empty_iff.symm

/-! ## What is kept -/

/-- A text that is blank or not new is left out. -/
theorem cleanFrom_cons_of_old (h : normalized s = "" ∨ normalized s ∈ seen) (l : List String) :
    cleanFrom seen (s :: l) = cleanFrom seen l := by
  have hold : (Text.trim s = "" || seen.contains (Text.lower (Text.trim s))) = true := by
    rw [Bool.or_eq_true, decide_eq_true_eq, trim_eq_empty_iff_normalized]
    exact h.imp_right List.contains_iff_mem.2
  rw [cleanFrom]
  exact if_pos hold

/-- A text that is not blank and new is kept as it is once trimmed. -/
theorem cleanFrom_cons_of_new (hblank : normalized s ≠ "") (hnew : normalized s ∉ seen) (l : List String) :
    cleanFrom seen (s :: l) = Text.trim s :: cleanFrom (normalized s :: seen) l := by
  have hkept : ¬(Text.trim s = "" || seen.contains (Text.lower (Text.trim s))) = true := by
    rw [Bool.or_eq_true, decide_eq_true_eq, trim_eq_empty_iff_normalized]
    exact fun h => h.elim hblank fun hseen => hnew (List.contains_iff_mem.1 hseen)
  rw [cleanFrom]
  exact if_neg hkept

/-- **A cleaned list in lower case** is what keywords are made of the same texts. -/
theorem map_lower_cleanFrom (seen l : List String) :
    (cleanFrom seen l).map Text.lower = firstWordsFrom seen (l.map normalized) := by
  induction l generalizing seen with
  | nil => rfl
  | cons s l ih =>
    rw [List.map_cons, firstWordsFrom]
    by_cases hold : normalized s = "" ∨ normalized s ∈ seen
    · rw [cleanFrom_cons_of_old hold, ih, if_pos (by simpa using hold)]
    · obtain ⟨hblank, hnew⟩ := not_or.1 hold
      rw [cleanFrom_cons_of_new hblank hnew, List.map_cons, ih, if_neg (by simpa using hold)]
      rfl

theorem map_lower_cleanList (l : List String) :
    (cleanList l).map Text.lower = ((l.filter fun s => !Text.isAllBlank s).map normalized).eraseDups :=
  (map_lower_cleanFrom [] l).trans (firstWords_eq l)

/-- What is kept is a trimmed text of the list, and not empty. -/
theorem mem_cleanFrom (h : t ∈ cleanFrom seen l) : (∃ s ∈ l, Text.trim s = t) ∧ t ≠ "" := by
  induction l generalizing seen with
  | nil => cases h
  | cons s l ih =>
    by_cases hold : normalized s = "" ∨ normalized s ∈ seen
    · rw [cleanFrom_cons_of_old hold] at h
      obtain ⟨⟨r, hr, hrt⟩, hne⟩ := ih h
      exact ⟨⟨r, List.mem_cons_of_mem s hr, hrt⟩, hne⟩
    · obtain ⟨hblank, hnew⟩ := not_or.1 hold
      rw [cleanFrom_cons_of_new hblank hnew] at h
      rcases List.mem_cons.1 h with rfl | h
      · exact ⟨⟨s, List.mem_cons_self, rfl⟩, fun he => hblank (trim_eq_empty_iff_normalized.1 he)⟩
      · obtain ⟨⟨r, hr, hrt⟩, hne⟩ := ih h
        exact ⟨⟨r, List.mem_cons_of_mem s hr, hrt⟩, hne⟩

/-- **What is cleaned is clean.** -/
theorem isClean_cleanList (l : List String) : IsClean (cleanList l) where
  trimmed := by
    intro t ht
    obtain ⟨⟨s, -, rfl⟩, -⟩ := mem_cleanFrom ht
    exact Text.trim_trim s
  nonempty := fun t ht => (mem_cleanFrom ht).2
  apart := by
    rw [map_lower_cleanList]
    exact nodup_eraseDups _

/-- A clean list of new texts is kept whole. -/
theorem cleanFrom_eq_self (h : IsClean l) (hnew : ∀ s ∈ l, Text.lower s ∉ seen) : cleanFrom seen l = l := by
  induction l generalizing seen with
  | nil => rfl
  | cons s l ih =>
    obtain ⟨htrim, htrims⟩ := List.forall_mem_cons.1 h.trimmed
    obtain ⟨hne, hnes⟩ := List.forall_mem_cons.1 h.nonempty
    obtain ⟨hfirst, hrest⟩ := List.nodup_cons.1 h.apart
    have hs : normalized s = Text.lower s := congrArg Text.lower htrim
    have hblank : normalized s ≠ "" := fun he => hne (Text.lower_eq_empty_iff.1 (hs ▸ he))
    rw [cleanFrom_cons_of_new hblank (hs ▸ hnew s List.mem_cons_self), htrim, ih ⟨htrims, hnes, hrest⟩]
    -- the others are new after this one as well
    intro t ht hseen
    rcases List.mem_cons.1 hseen with he | hseen
    · exact hfirst (List.mem_map.2 ⟨t, ht, he.trans hs⟩)
    · exact hnew t (List.mem_cons_of_mem s ht) hseen

/-- **Cleaning leaves a list as it is** if it is clean, and only then. -/
theorem cleanList_eq_self_iff : cleanList l = l ↔ IsClean l :=
  ⟨fun h => h ▸ isClean_cleanList l, fun h => cleanFrom_eq_self h fun _ _ => List.not_mem_nil⟩

/-! ## What is left out -/

/-- **A list with texts added to it** that are blank, or the same in lower case as an earlier one. -/
inductive Padded (l : List String) : List String → Prop where
  | refl : Padded l l
  | blank (a b : List String) (s : String) : Padded l (a ++ b) → Text.isAllBlank s = true → Padded l (a ++ s :: b)
  | again (a b : List String) (s t : String) : Padded l (a ++ b) → t ∈ a → normalized s = normalized t →
      Padded l (a ++ s :: b)

/-- A text that is blank or not new by the time it comes is left out. -/
theorem cleanFrom_insert (h : normalized s = "" ∨ normalized s ∈ seen ++ a.map normalized) (b : List String) :
    cleanFrom seen (a ++ s :: b) = cleanFrom seen (a ++ b) := by
  induction a generalizing seen with
  | nil => exact cleanFrom_cons_of_old (by simpa using h) b
  | cons t a ih =>
    rw [List.cons_append, List.cons_append]
    by_cases hold : normalized t = "" ∨ normalized t ∈ seen
    · rw [cleanFrom_cons_of_old hold, cleanFrom_cons_of_old hold]
      refine ih ?_
      simp only [List.map_cons, List.mem_append, List.mem_cons] at h ⊢
      -- a text that repeats one that is left out is blank or has been seen as well
      rcases h with h | h | h | h
      · exact Or.inl h
      · exact Or.inr (Or.inl h)
      · rw [h]
        exact hold.imp_right Or.inl
      · exact Or.inr (Or.inr h)
    · obtain ⟨hblank, hnew⟩ := not_or.1 hold
      rw [cleanFrom_cons_of_new hblank hnew, cleanFrom_cons_of_new hblank hnew]
      refine congrArg (Text.trim t :: ·) (ih ?_)
      simp only [List.map_cons, List.mem_append, List.mem_cons] at h ⊢
      exact h.imp_right fun h => or_assoc.2 (or_left_comm.1 h)

/-- **What is added is left out again**, wherever it stands. -/
theorem cleanList_of_padded (h : Padded l l') : cleanList l' = cleanList l := by
  induction h with
  | refl => rfl
  | blank a b s _ hblank ih => exact (cleanFrom_insert (Or.inl (normalized_eq_empty_iff.2 hblank)) b).trans ih
  | again a b s t _ ht hsame ih =>
    refine (cleanFrom_insert (Or.inr ?_) b).trans ih
    rw [hsame, List.nil_append]
    exact List.mem_map_of_mem ht

end CodeAtlas
