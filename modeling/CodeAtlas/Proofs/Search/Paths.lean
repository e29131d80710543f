import CodeAtlas.Profile.Index
import CodeAtlas.Proofs.Text.Cuts
import CodeAtlas.Proofs.Text.Places
import CodeAtlas.Search.Score

/-!
# Paths and file patterns

The asterisks of a file pattern stand for any texts. A path fits a pattern if what stands
between the asterisks can be placed in the path in order. The search puts each of these
fragments at the first place where it can. That leaves the most room for the others, so no
placement is missed.

* `Placed`: fragments in a text one after the other.
* `Placed.of_suffix`: **the exchange**: more room before the fragments does no harm.
* `inOrder_iff`: the search from the left finds every placement.
* `fitsPath_iff`: **which paths fit.**
-/

namespace CodeAtlas.Search

/-- **Fragments stand in a text one after the other**: it is made of them and of texts before, between and
after them. -/
def Placed (fragments : List (List Char)) (s : List Char) : Prop :=
  ∃ front gaps, gaps.length = fragments.length ∧ s = front ++ (List.zipWith (· ++ ·) fragments gaps).flatten

variable {f s r : List Char} {fs : List (List Char)}

theorem placed_nil (s : List Char) : Placed [] s := ⟨s, [], rfl, by simp⟩

/-- The first fragment, and the others in what follows it. -/
theorem placed_cons_iff : Placed (f :: fs) s ↔ ∃ front rest, s = front ++ (f ++ rest) ∧ Placed fs rest := by
  constructor
  · rintro ⟨front, gaps, hlength, hs⟩
    cases gaps with
    | nil => simp at hlength
    | cons gap gaps =>
      refine ⟨front, gap ++ (List.zipWith (· ++ ·) fs gaps).flatten, ?_, gap, gaps, by simpa using hlength, rfl⟩
      simpa using hs
  · rintro ⟨front, rest, rfl, gap, gaps, hlength, rfl⟩
    exact ⟨front, gap :: gaps, by simp [hlength], by simp⟩

/-- **More room before the fragments** does no harm. -/
theorem Placed.of_suffix (h : Placed fs r) (hr : r <:+ s) : Placed fs s := by
  obtain ⟨front, gaps, hlength, rfl⟩ := h
  obtain ⟨more, rfl⟩ := hr
  exact ⟨more ++ front, gaps, hlength, by simp⟩

/-- Empty fragments stand everywhere. -/
theorem placed_filter_iff : Placed (fs.filter (· ≠ [])) s ↔ Placed fs s := by
  induction fs generalizing s with
  | nil => rfl
  | cons f fs ih =>
    by_cases hf : f = []
    · subst hf
      rw [List.filter_cons_of_neg (by simp), ih, placed_cons_iff]
      constructor
      · intro h
        exact ⟨[], s, rfl, h⟩
      · rintro ⟨front, rest, rfl, h⟩
        exact h.of_suffix (List.suffix_append front rest)
    · rw [List.filter_cons_of_pos (by simpa using hf), placed_cons_iff, placed_cons_iff]
      simp only [ih]

/-- **The search from the left finds every placement.** If the first fragment stands anywhere, what follows its
first occurrence has room for all that follows the other one. -/
theorem inOrder_iff (parts : List String) (s : List Char) :
    Needles.inOrder parts s = true ↔ Placed (parts.map String.toList) s := by
  induction parts generalizing s with
  | nil => exact iff_of_true rfl (placed_nil s)
  | cons p parts ih =>
    rw [List.map_cons, placed_cons_iff]
    unfold Needles.inOrder
    constructor
    · intro h
      cases hcut : Text.cutFirst? p.toList s with
      | none => simp [hcut] at h
      | some q =>
        simp only [hcut] at h
        exact ⟨q.1, q.2, Text.append_of_cutFirst? hcut, (ih q.2).1 h⟩
    · rintro ⟨front, rest, hs, hrest⟩
      have hfound : (Text.cutFirst? p.toList s).isSome = true :=
        Text.isSome_cutFirst?.2 ⟨front, rest, by rw [hs, List.append_assoc]⟩
      obtain ⟨q, hcut⟩ := Option.isSome_iff_exists.1 hfound
      have hroom : rest <:+ q.2 := Text.suffix_of_cutFirst? hcut hs
      simp only [hcut]
      exact (ih q.2).2 (hrest.of_suffix hroom)

/-! ## The fragments of a pattern -/

theorem toList_fragments (p : String) :
    (fragments p).map String.toList = (p.toList.splitOn '*').filter (· ≠ []) := by
  have hstar : "*".toList = ['*'] := rfl
  unfold fragments Text.split
  rw [hstar, Text.pieces_eq_splitOn]
  induction p.toList.splitOn '*' with
  | nil => rfl
  | cons l ls ih =>
    by_cases hl : l = []
    · subst hl
      simpa using ih
    · simpa [hl] using ih

/-- A pattern has a fragment that is not empty if it has more than asterisks. -/
theorem exists_fragment_iff (s : List Char) : (∃ l ∈ s.splitOn '*', l ≠ []) ↔ ∃ c ∈ s, c ≠ '*' := by
  induction s with
  | nil => simp
  | cons c s ih =>
    by_cases hc : c = '*'
    · subst hc
      have hsplit : ('*' :: s).splitOn '*' = [] :: s.splitOn '*' := Text.splitOn_append_cons (a := []) List.not_mem_nil
      simp [hsplit, ih]
    · obtain ⟨l, ls, hls⟩ := List.exists_cons_of_ne_nil (List.splitOn_ne_nil '*' s)
      have hsplit : (c :: s).splitOn '*' = (c :: l) :: ls := by
        rw [List.splitOn_eq_splitOnP] at hls ⊢
        rw [List.splitOnP_cons_eq_if_modifyHead, if_neg (by simpa using hc), hls]
        rfl
      simp [hsplit, hc]

/-- **Which paths fit.** A path fits the file patterns of a search exactly if one of them, trimmed and in lower
case, has more than asterisks, and the fragments between its asterisks stand in the path, in lower case,
one after the other. -/
theorem fitsPath_iff (query : String) (patterns : PatternSet) (path : String) :
    (Needles.prepare query patterns).fitsPath path = true ↔
      ∃ p ∈ patterns.filePatterns, (∃ c ∈ (normalized p).toList, c ≠ '*') ∧
        Placed ((normalized p).toList.splitOn '*') (Text.lower path).toList := by
  unfold Needles.fitsPath Needles.prepare
  rw [List.any_eq_true]
  constructor
  · rintro ⟨parts, hparts, hin⟩
    obtain ⟨hmem, hne⟩ := List.mem_filter.1 hparts
    obtain ⟨q, hq, rfl⟩ := List.mem_map.1 hmem
    obtain ⟨p, hp, rfl⟩ := List.mem_map.1 (List.mem_filter.1 hq).1
    have hplaced : Placed ((normalized p).toList.splitOn '*') (Text.lower path).toList := by
      rw [← placed_filter_iff, ← toList_fragments]
      exact (inOrder_iff _ _).1 hin
    refine ⟨p, hp, (exists_fragment_iff _).1 ?_, hplaced⟩
    have hpiece : (fragments (normalized p)).map String.toList ≠ [] := by
      unfold normalized
      simpa using hne
    rw [toList_fragments] at hpiece
    obtain ⟨l, hl⟩ := List.exists_mem_of_ne_nil _ hpiece
    exact ⟨l, (List.mem_filter.1 hl).1, by simpa using (List.mem_filter.1 hl).2⟩
  · rintro ⟨p, hp, hchar, hplaced⟩
    obtain ⟨l, hl, hne⟩ := (exists_fragment_iff _).2 hchar
    have hpiece : l ∈ (fragments (normalized p)).map String.toList := by
      rw [toList_fragments]
      exact List.mem_filter.2 ⟨hl, by simpa using hne⟩
    have hword : normalized p ≠ "" := by
      rintro hempty
      rw [hempty] at hchar
      simp at hchar
    refine ⟨fragments (normalized p), List.mem_filter.2 ⟨List.mem_map_of_mem ?_, ?_⟩, ?_⟩
    · exact List.mem_filter.2 ⟨List.mem_map_of_mem hp, by simpa using hword⟩
    · obtain ⟨w, hw, -⟩ := List.mem_map.1 hpiece
      simpa using List.ne_nil_of_mem hw
    · rw [inOrder_iff, toList_fragments, placed_filter_iff]
      exact hplaced

/-- Two fragments do not overlap. -/
example : (Needles.prepare "" { filePatterns := [" AB*Ba "] }).fitsPath "x/aba" = false ∧
    (Needles.prepare "" { filePatterns := [" AB*Ba "] }).fitsPath "x/ab/ABA" = true := by
  decide +kernel

end CodeAtlas.Search
