import CodeAtlas.Proofs.Search.Completeness
import CodeAtlas.Proofs.Search.Paths
import CodeAtlas.Proofs.Text.Sigma

/-!
# What stands in a text as it is written

A query, a term or a file pattern that stands in a text letter by letter stands there in
lower case too, and is found, if its capital sigmas are lowercased in the text as they are
lowercased in it. Texts are lowercased whole, and a sigma at the end of a query may stand
within a word of a text.

* `Stands`: a text in a text, with its forms of sigma.
* `patternAwards_of_forall`: terms that stand in a text earn their points, each as often as
  it is listed.
* `fitsPath_of_contains`: a file pattern without an asterisk.
* `verbatim_found`: **what stands in a text as it is written is found.**
-/

namespace CodeAtlas.Search

/-- **A text stands in a text**: it is a piece of it, and each of its capital sigmas has the
form in this place that it has by itself. -/
def Stands (p s : String) : Prop :=
  ∃ a b, s = a ++ (p ++ b) ∧ Text.keepsForms a.toList.reverse b.toList p.toList = true

theorem contains_lower_of_stands {p s : String} (h : Stands p s) :
    Text.contains (Text.lower s) (Text.lower p) = true := by
  obtain ⟨a, b, rfl, hforms⟩ := h
  rw [Text.contains_iff, Text.toList_lower, Text.toList_lower, String.toList_append, String.toList_append]
  exact Text.infix_lowerChars hforms

/-- A text with settled sigmas stands wherever it is a piece. -/
theorem stands_of_settles {p s : String} (hsettled : Text.settlesForms p.toList = true)
    (h : Text.contains s p = true) : Stands p s := by
  rw [Text.contains_iff] at h
  obtain ⟨a, b, hab⟩ := h
  refine ⟨String.ofList a, String.ofList b, ?_, Text.keepsForms_of_settles hsettled _ _⟩
  rw [← String.toList_inj]
  simp [← hab]

theorem settles_iff {p : String} : Text.settlesForms p.toList = true ↔
    ∀ s, Text.contains s p = true → Text.contains (Text.lower s) (Text.lower p) = true := by
  rw [← Text.lowerChars_infix_iff]
  simp only [Text.contains_iff, Text.toList_lower]
  constructor
  · exact fun h s => h s.toList
  · intro h s hs
    have hword := h (String.ofList s)
    rw [String.toList_ofList] at hword
    exact hword hs

/-! ## Queries and terms -/

theorem mem_queryAward {query text reason : String} (hquery : Text.trim query ≠ "")
    (h : Stands (Text.trim query) text) (points : ℕ) :
    ⟨points, reason⟩ ∈ queryAward (Text.lower (Text.trim query))
      (Text.contains (Text.lower text) (Text.lower (Text.trim query))) points reason := by
  have hlower : Text.lower (Text.trim query) ≠ "" := fun he => hquery (Text.lower_eq_empty_iff.1 he)
  simp [queryAward, hlower, contains_lower_of_stands h]

/-- **Terms that stand in a text earn their points**, each as often as it is listed. -/
theorem patternAwards_of_forall {l terms : List String} {text : String} (hl : l.Sublist terms)
    (h : ∀ t ∈ l, Text.trim t ≠ "" ∧ Stands (Text.trim t) text) (points : ℕ) (word : String) :
    (l.map fun t => (⟨points, word ++ " \"" ++ needle t ++ "\""⟩ : Award)).Sublist
      (patternAwards points word (Text.lower text) (prepared terms)) := by
  have hlisted : ∀ w ∈ l.map needle, w ≠ "" ∧ Text.contains (Text.lower text) w = true := by
    intro w hw
    obtain ⟨t, ht, rfl⟩ := List.mem_map.1 hw
    exact ⟨fun he => (h t ht).1 (Text.lower_eq_empty_iff.1 he), contains_lower_of_stands (h t ht).2⟩
  have hkept : (l.map needle).Sublist ((prepared terms).filter (Text.contains (Text.lower text) ·)) := by
    have hsome : (l.map needle).filter (· ≠ "") = l.map needle :=
      List.filter_eq_self.2 fun w hw => by simpa using (hlisted w hw).1
    have hfound : (l.map needle).filter (Text.contains (Text.lower text) ·) = l.map needle :=
      List.filter_eq_self.2 fun w hw => (hlisted w hw).2
    have hsub := ((hl.map needle).filter (· ≠ "")).filter (Text.contains (Text.lower text) ·)
    rwa [hsome, hfound] at hsub
  have haward := hkept.map fun w => (⟨points, word ++ " \"" ++ w ++ "\""⟩ : Award)
  rwa [List.map_map] at haward

/-! ## File patterns -/

/-- **A file pattern without an asterisk** fits each path that it stands in. -/
theorem fitsPath_of_contains {query p path : String} {patterns : PatternSet} (hp : p ∈ patterns.filePatterns)
    (hblank : Text.trim p ≠ "") (hplain : '*' ∉ (Text.trim p).toList)
    (h : Text.contains (Text.lower path) (needle p) = true) :
    (Needles.prepare query patterns).fitsPath path = true := by
  have hword : needle p ≠ "" := fun he => hblank (Text.lower_eq_empty_iff.1 he)
  have hnone : '*' ∉ (needle p).toList := by
    rw [needle, Text.toList_lower, Text.lowerChars_eq]
    exact fun hmem => hplain (Text.mem_of_mem_lowered (by decide +kernel) hmem)
  have hsplit : (needle p).toList.splitOn '*' = [(needle p).toList] := by
    rw [List.splitOn_eq_splitOnP]
    exact List.splitOnP_eq_singleton fun c hc => by simpa using fun he : c = '*' => hnone (he ▸ hc)
  -- one fragment, and that is the pattern
  have hparts : (fragments (needle p)).map String.toList = [(needle p).toList] := by
    rw [toList_fragments, hsplit]
    simpa using hword
  have hsome : fragments (needle p) ≠ [] := fun he => by simp [he] at hparts
  unfold Needles.fitsPath
  refine List.any_eq_true.2 ⟨fragments (needle p), List.mem_filter.2 ⟨List.mem_map_of_mem ?_, by simpa using hsome⟩, ?_⟩
  · exact List.mem_filter.2 ⟨List.mem_map_of_mem hp, by simpa using hword⟩
  · obtain ⟨front, rest, hpath⟩ := Text.contains_iff.1 h
    rw [inOrder_iff, hparts, placed_cons_iff]
    exact ⟨front, rest, by rw [← hpath, List.append_assoc], placed_nil rest⟩

/-! ## What is found -/

/-- **What stands in a text as it is written is found.** A query that is not blank earns its
points from each name, import source and comment in which it stands, and so does each term
that is not blank, as often as it is listed; and a file pattern without an asterisk fits
each path in which it stands. Texts with settled sigmas, as are those without any, stand
wherever they are a piece, and these are the texts that are found in lower case in all texts
of which they are a piece. -/
theorem verbatim_found (query : String) (patterns : PatternSet) :
    let n := Needles.prepare query patterns
    (Text.trim query ≠ "" →
      (∀ name written, Stands (Text.trim query) name → ⟨50, "name contains query"⟩ ∈ elementAwards name written n) ∧
      (∀ source, Stands (Text.trim query) source → ⟨60, "source contains query"⟩ ∈ importAwards source n) ∧
      ∀ text isDoc, Stands (Text.trim query) text → ⟨40, "comment mentions query"⟩ ∈ commentAwards text isDoc n) ∧
    (∀ l : List String, l.Sublist patterns.terms →
      ∀ text, (∀ t ∈ l, Text.trim t ≠ "" ∧ Stands (Text.trim t) text) →
        (l.map fun t => (⟨35, "term" ++ " \"" ++ needle t ++ "\""⟩ : Award)).Sublist (importAwards text n) ∧
        ∀ isDoc, (l.map fun t => (⟨20, "term" ++ " \"" ++ needle t ++ "\""⟩ : Award)).Sublist
          (commentAwards text isDoc n)) ∧
    (∀ p ∈ patterns.filePatterns, Text.trim p ≠ "" → '*' ∉ (Text.trim p).toList →
      ∀ path, Stands (Text.trim p) path → n.fitsPath path = true) ∧
    ∀ p : String, ('Σ' ∉ p.toList → Text.settlesForms p.toList = true) ∧
      (Text.settlesForms p.toList = true → ∀ s, Text.contains s p = true → Stands p s) ∧
      (Text.settlesForms p.toList = true ↔
        ∀ s, Text.contains s p = true → Text.contains (Text.lower s) (Text.lower p) = true) := by
  refine ⟨fun hquery => ⟨fun name written h => ?name, fun source h => ?source, fun text isDoc h => ?comment⟩,
    fun l hl text h => ⟨?terms, fun isDoc => ?mentioned⟩, fun p hp hblank hplain path h => ?path,
    fun p => ⟨Text.settlesForms_of_notMem, fun hsettled s => stands_of_settles hsettled, settles_iff⟩⟩
  case name =>
    unfold elementAwards
    exact List.mem_append_left _ (List.mem_append_left _ (List.mem_append_left _ (mem_queryAward hquery h 50)))
  case source => exact List.mem_append_left _ (List.mem_append_left _ (mem_queryAward hquery h 60))
  case comment => exact List.mem_append_left _ (List.mem_append_left _ (mem_queryAward hquery h 40))
  case terms => exact (patternAwards_of_forall hl h 35 "term").trans (List.sublist_append_right _ _)
  case mentioned =>
    have hterms := patternAwards_of_forall hl h 20 "term"
    exact (hterms.trans (List.sublist_append_right _ _)).trans (List.sublist_append_left _ _)
  case path => exact fitsPath_of_contains hp hblank hplain (contains_lower_of_stands h)

/-- A street in a path: the slash after its last sigma settles it there. -/
theorem verbatim_found_street :
    let patterns : PatternSet := { terms := [" ΟΔΟΣ"], filePatterns := ["ΟΔΟΣ/"] }
    Text.trim " ΟΔΟΣ" ≠ "" ∧ Stands (Text.trim " ΟΔΟΣ") "src/ΟΔΟΣ/map" ∧
      ⟨60, "source contains query"⟩ ∈ importAwards "src/ΟΔΟΣ/map" (Needles.prepare " ΟΔΟΣ" patterns) ∧
      [⟨35, "term" ++ " \"" ++ needle " ΟΔΟΣ" ++ "\""⟩].Sublist
        (importAwards "src/ΟΔΟΣ/map" (Needles.prepare " ΟΔΟΣ" patterns)) ∧
      Text.settlesForms (Text.trim "ΟΔΟΣ/").toList = true ∧
      (Needles.prepare " ΟΔΟΣ" patterns).fitsPath "src/ΟΔΟΣ/map" = true := by
  obtain ⟨hquery, hterms, hfile, hpieces⟩ :=
    verbatim_found " ΟΔΟΣ" { terms := [" ΟΔΟΣ"], filePatterns := ["ΟΔΟΣ/"] }
  have htrim : Text.trim " ΟΔΟΣ" ≠ "" := by decide +kernel
  have hstands : Stands (Text.trim " ΟΔΟΣ") "src/ΟΔΟΣ/map" := ⟨"src/", "/map", by decide +kernel, by decide +kernel⟩
  have hsettled : Text.settlesForms (Text.trim "ΟΔΟΣ/").toList = true := by decide +kernel
  refine ⟨htrim, hstands, (hquery htrim).2.1 _ hstands, ?_, hsettled, ?_⟩
  · exact (hterms [" ΟΔΟΣ"] (List.Sublist.refl _) "src/ΟΔΟΣ/map" (by simpa using ⟨htrim, hstands⟩)).1
  · have hpath : Stands (Text.trim "ΟΔΟΣ/") "src/ΟΔΟΣ/map" := (hpieces _).2.1 hsettled _ (by decide +kernel)
    exact hfile "ΟΔΟΣ/" List.mem_cons_self (by decide +kernel) (by decide +kernel) _ hpath

/-- Within a word the sigma has another form, and the same street is not found. -/
example : Text.contains "ΟΔΟΣΗΜΑ" "ΟΔΟΣ" = true ∧ Text.settlesForms "ΟΔΟΣ".toList = false ∧
    elementAwards "ΟΔΟΣΗΜΑ" "" (Needles.prepare "ΟΔΟΣ" {}) = [] := by
  decide +kernel

end CodeAtlas.Search
