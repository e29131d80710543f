import CodeAtlas.Proofs.Search.Elements

/-!
# What a search finds

A pattern that stands in the name or the text of an element, in lower case, earns its
points, although it is looked for in the written form: escaping leaves it as it is if it
has no quotation mark, no backslash and no control character in it.

* `Element.contains_written`: such a pattern stands in the written form.
* `Element.countP_shows_le`: such patterns count as often as they are listed.
* `Element.awards_complete`: **the points that patterns earn, and the score.**
-/

namespace CodeAtlas.Search

open Json

/-- A text of a pattern set as it is looked for. -/
def needle (t : String) : String := Text.lower (Text.trim t)

/-- Whether escaping a text leaves a pattern as it is where it stands in the text. The
last condition is about a capital sigma after a control character, which is another
lowercase letter after its escape. -/
def keeps (v p : String) : Bool :=
  p.toList.all isPlain && (sigmasApart v.toList || !p.toList.contains 'σ' && !p.toList.contains 'ς')

namespace Element

/-- Whether a pattern is looked for and stands in the name or the text of an element, in
lower case, where escaping leaves it as it is. -/
def shows (e : Element) (p : String) : Bool :=
  p ≠ "" && [e.name, e.snippet].any fun v => Text.contains (Text.lower v) p && keeps v p

variable {e : Element}

/-- **A value that shows a pattern** shows it in the written form. -/
theorem contains_written {v p : String} (hv : v ∈ e.values) (hkeeps : keeps v p = true)
    (hp : Text.contains (Text.lower v) p = true) : Text.contains e.written p = true := by
  simp only [keeps, Bool.and_eq_true, List.all_eq_true, Bool.or_eq_true, Bool.not_eq_true', List.contains_eq_mem,
    decide_eq_false_iff_not] at hkeeps
  rw [Text.contains_iff, Text.toList_lower] at hp
  have hvalue : p.toList <:+: asWritten v.toList := infix_lowerChars_escape hkeeps.1 hkeeps.2 hp
  rw [Text.contains_iff]
  exact hvalue.trans (infix_written_of_mem_values hv)

theorem contains_written_of_shows {p : String} (h : e.shows p = true) : Text.contains e.written p = true := by
  simp only [shows, Bool.and_eq_true, List.any_eq_true] at h
  obtain ⟨-, v, hv, hp, hkeeps⟩ := h
  have hvalue : v ∈ e.values := by
    rcases List.mem_cons.1 hv with rfl | hv
    · exact e.name_mem_values
    · rw [List.mem_singleton.1 hv]
      exact e.snippet_mem_values
  exact contains_written hvalue hkeeps hp

/-- A shown pattern is looked for. -/
theorem mem_prepared {t : String} {l : List String} (ht : t ∈ l) (h : e.shows (needle t) = true) :
    needle t ∈ prepared l := by
  simp only [shows, Bool.and_eq_true] at h
  exact List.mem_filter.2 ⟨List.mem_map_of_mem ht, h.1⟩

/-- **A shown pattern earns its points.** -/
theorem mem_patternAwards {t : String} {l : List String} (ht : t ∈ l) (h : e.shows (needle t) = true) (points : ℕ)
    (word : String) :
    ⟨points, word ++ " \"" ++ needle t ++ "\""⟩ ∈ patternAwards points word e.written (prepared l) := by
  unfold patternAwards
  exact List.mem_map.2 ⟨needle t, List.mem_filter.2 ⟨mem_prepared ht h, contains_written_of_shows h⟩, rfl⟩

/-- **Every shown pattern counts**, as often as it is listed. -/
theorem countP_shows_le (e : Element) (l : List String) :
    l.countP (fun t => e.shows (needle t)) ≤ (prepared l).countP (Text.contains e.written ·) := by
  unfold prepared
  rw [List.countP_filter, List.countP_map]
  refine List.countP_mono_left fun t _ h => ?_
  have hlisted : needle t ≠ "" := by
    simp only [shows, Bool.and_eq_true, decide_eq_true_eq] at h
    exact h.1
  have hfound : Text.contains e.written (needle t) = true := contains_written_of_shows h
  simpa using ⟨hfound, hlisted⟩

/-- **What a search finds.** Each term, code pattern and framework hint that an element
shows earns its points, and the score of the element is at least the sum of these points,
or the greatest score, unless the patterns are so many that the sum does not fit 32 bits. -/
theorem awards_complete (e : Element) (query : String) (patterns : PatternSet) :
    let n := Needles.prepare query patterns
    (∀ t ∈ patterns.terms, e.shows (needle t) = true → ⟨30, "term" ++ " \"" ++ needle t ++ "\""⟩ ∈ e.awards n) ∧
    (∀ t ∈ patterns.codePatterns, e.shows (needle t) = true →
      ⟨25, "code pattern" ++ " \"" ++ needle t ++ "\""⟩ ∈ e.awards n) ∧
    (∀ t ∈ patterns.frameworkHints, e.shows (needle t) = true →
      ⟨20, "framework" ++ " \"" ++ needle t ++ "\""⟩ ∈ e.awards n) ∧
    (patterns.Few →
      min (30 * patterns.terms.countP (fun t => e.shows (needle t)) +
        25 * patterns.codePatterns.countP (fun t => e.shows (needle t)) +
        20 * patterns.frameworkHints.countP (fun t => e.shows (needle t))) maxScore ≤ scoreOf (e.awards n)) := by
  intro n
  refine ⟨?_, ?_, ?_, fun hfew => ?_⟩
  · intro t ht h
    exact List.mem_append_left _ (List.mem_append_left _ (List.mem_append_right _ (mem_patternAwards ht h 30 "term")))
  · intro t ht h
    exact List.mem_append_left _ (List.mem_append_right _ (mem_patternAwards ht h 25 "code pattern"))
  · intro t ht h
    exact List.mem_append_right _ (mem_patternAwards ht h 20 "framework")
  · have hterms : _ ≤ n.terms.countP _ := countP_shows_le e patterns.terms
    have hcode : _ ≤ n.codePatterns.countP _ := countP_shows_le e patterns.codePatterns
    have hhints : _ ≤ n.frameworkHints.countP _ := countP_shows_le e patterns.frameworkHints
    have hfits : ((e.awards n).map (·.points)).sum < UInt32.size := e.sum_awards_lt (hfew.prepare query)
    rw [scoreOf_eq_min hfits, sum_awards]
    unfold maxScore
    omega

/-- A function that handles a route. -/
def route : Element := .function
  { name := "login", snippet := "@app.route(\"/\")\ndef login()", location := ⟨1, 2⟩, complexity := 1 }

/-- A pattern up to the quotation mark. -/
theorem awards_complete_route :
    let patterns : PatternSet := { codePatterns := [" App.Route("] }
    route.shows (needle " App.Route(") = true ∧
      ⟨25, "code pattern" ++ " \"" ++ needle " App.Route(" ++ "\""⟩ ∈ route.awards (Needles.prepare "" patterns) ∧
      patterns.Few ∧ 25 ≤ scoreOf (route.awards (Needles.prepare "" patterns)) := by
  intro patterns
  have hshows : route.shows (needle " App.Route(") = true := by decide +kernel
  have hfew : patterns.Few := by decide
  obtain ⟨-, hcode, -, hscore⟩ := awards_complete route "" patterns
  have hcount : patterns.codePatterns.countP (fun t => route.shows (needle t)) = 1 :=
    List.countP_cons_of_pos (p := fun t => route.shows (needle t)) hshows
  refine ⟨hshows, hcode _ List.mem_cons_self hshows, hfew, ?_⟩
  simpa [hcount, patterns, maxScore] using hscore hfew

/-- With the quotation mark it stands in the text, and not in the text as it is written. -/
example : Text.contains (Text.lower route.snippet) (needle "app.route(\"") = true ∧
    Text.occursIn (needle "app.route(\"").toList (asWritten route.snippet.toList) = false := by
  decide +kernel

end Element

end CodeAtlas.Search
