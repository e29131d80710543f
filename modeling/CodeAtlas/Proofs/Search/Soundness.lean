import CodeAtlas.Proofs.Search.Elements
import Mathlib.Data.List.Infix

/-!
# Why something is found

What is found has earned points, so its name has the query or its written form has a
pattern. A pattern that stands in the written form stands in a value, or it takes in a part
of the frame: it lies within a piece of the frame, or around one, or over one end of it
(`Meets`). Without punctuation it is a part of the name of a field then.

* `infix_thread`: a pattern in a value, a piece of the frame and what follows it.
* `Element.contains_written_cases`: where a pattern stands in the written form.
* `Element.found_of_frame`: **a term within the frame finds every element that has the
  frame.**
* `matches_justified`: **every function, class and variable that is found is found for a
  reason.**
-/

namespace CodeAtlas.Search

open Json Outline

variable {p s t F : List Char}

/-- **A pattern has a part in common with a piece of the frame.** -/
def Meets (p F : List Char) : Prop :=
  p <:+: F ∨ F <:+: p ∨ (∃ m, m ≠ [] ∧ m <:+ F ∧ m <+: p) ∨ ∃ m, m ≠ [] ∧ m <+: F ∧ m <:+ p

/-- A pattern in a piece of the frame and what follows it. -/
theorem infix_frame (h : p <:+: F ++ t) : Meets p F ∨ p <:+: t := by
  rcases List.infix_append_iff_ne_nil.1 h with h | h | ⟨l, r, hl, -, rfl, hlF, -⟩
  · exact Or.inl (Or.inl h)
  · exact Or.inr h
  · exact Or.inl (Or.inr (Or.inr (Or.inl ⟨l, hl, hlF, List.prefix_append l r⟩)))

/-- **A pattern in a value, a piece of the frame and what follows it.** -/
theorem infix_thread (h : p <:+: s ++ (F ++ t)) : p <:+: s ∨ Meets p F ∨ p <:+: t := by
  rcases List.infix_append_iff_ne_nil.1 h with h | h | ⟨l, r, -, hr, rfl, -, hrF⟩
  · exact Or.inl h
  · exact Or.inr (infix_frame h)
  · -- it reaches from the value into the frame, and ends within it or goes on after it
    rcases List.prefix_or_prefix_of_prefix hrF (List.prefix_append F t) with hrF | hFr
    · exact Or.inr (Or.inl (Or.inr (Or.inr (Or.inr ⟨r, hr, hrF, List.suffix_append l r⟩))))
    · exact Or.inr (Or.inl (Or.inr (Or.inl (hFr.isInfix.trans List.infix_append_right))))

/-- **A pattern without separators** that meets a piece between separators lies within
it. -/
theorem Meets.within {sep : Char → Bool} (hp : ∀ c ∈ p, sep c = false) (hhead : F.head?.any sep = true)
    (hlast : F.getLast?.any sep = true) (h : Meets p F) : p <:+: F := by
  have hfirst : ∃ c l, F = c :: l ∧ c ∉ p := by
    cases F with
    | nil => cases hhead
    | cons c l => exact ⟨c, l, rfl, fun hc => by simp [hp c hc] at hhead⟩
  have hend : ∃ l d, F = l ++ [d] ∧ d ∉ p := by
    rcases List.eq_nil_or_concat F with rfl | ⟨l, d, rfl⟩
    · cases hlast
    · refine ⟨l, d, List.concat_eq_append, fun hd => ?_⟩
      simp [hp d hd] at hlast
  rcases h with h | h | ⟨m, hm, hmF, hmp⟩ | ⟨m, hm, hmF, hmp⟩
  · exact h
  · -- the whole piece is in the pattern
    obtain ⟨c, l, rfl, hc⟩ := hfirst
    exact absurd (h.subset List.mem_cons_self) hc
  · -- the end of the piece is in the pattern
    obtain ⟨l, d, rfl, hd⟩ := hend
    rcases List.suffix_concat_iff.1 hmF with rfl | ⟨r, rfl, -⟩
    · exact absurd rfl hm
    · exact absurd (hmp.subset (List.mem_append_right r List.mem_cons_self)) hd
  · -- the beginning of the piece is in the pattern
    obtain ⟨c, l, rfl, hc⟩ := hfirst
    rcases List.prefix_cons_iff.1 hmF with rfl | ⟨r, rfl, -⟩
    · exact absurd rfl hm
    · exact absurd (hmp.subset List.mem_cons_self) hc

namespace Element

theorem infix_weave_cases (hp : p ≠ []) {f : List Char → List Char} {l : List (String × String)}
    (h : p <:+: weave f l) : ∃ q ∈ l, p <:+: f q.1.toList ∨ Meets p q.2.toList := by
  induction l with
  | nil => exact absurd (List.infix_nil.1 h) hp
  | cons q l ih =>
    have hq : p <:+: f q.1.toList ++ (q.2.toList ++ weave f l) := by
      rw [← List.append_assoc]
      exact h
    rcases infix_thread hq with h | h | h
    · exact ⟨q, List.mem_cons_self, Or.inl h⟩
    · exact ⟨q, List.mem_cons_self, Or.inr h⟩
    · obtain ⟨r, hr, hcases⟩ := ih h
      exact ⟨r, List.mem_cons_of_mem q hr, hcases⟩

variable {e : Element} {n : Needles}

/-- A pattern stands in a value in lower case, or in what is written for a value of which a
character is escaped. -/
def Holds (v p : String) : Prop :=
  Text.contains (Text.lower v) p = true ∨
    (∃ c ∈ v.toList, isPlain c = false) ∧ p.toList <:+: asWritten v.toList

/-- The punctuation of the written form. -/
def isPunctuation (c : Char) : Bool := ['\x7b', '\x7d', '[', ']', '"', ':', ','].contains c

/-- The names of the fields of elements. -/
def fieldNames : List String :=
  ["name", "kind", "snippet", "location", "start_line", "end_line", "parameters", "methods", "is_async", "complexity"]

/-- **A pattern takes in a part of the frame** where it stands in the written form. Without
punctuation it is a part of the name of a field. -/
def Framed (e : Element) (p : String) : Prop :=
  Text.contains e.written p = true ∧ (∃ F ∈ e.frame, Meets p.toList F.toList) ∧
    ((∀ c ∈ p.toList, isPunctuation c = false) → ∃ field ∈ fieldNames, p.toList <:+: field.toList)

/-- **The reason why an element is found**: its name has the query, or a pattern stands in
one of its values or takes in a part of the frame. -/
def Justified (e : Element) (n : Needles) : Prop :=
  (n.query ≠ "" ∧ Text.contains (Text.lower e.name) n.query = true) ∨
    ∃ p ∈ n.terms ++ n.codePatterns ++ n.frameworkHints, (∃ v ∈ e.values, Holds v p) ∨ e.Framed p

theorem holds_of_asWritten {v p : String} (h : p.toList <:+: asWritten v.toList) : Holds v p := by
  by_cases hplain : ∀ c ∈ v.toList, isPlain c = true
  · left
    unfold asWritten at h
    rw [flatMap_escape hplain] at h
    rwa [Text.contains_iff, Text.toList_lower]
  · right
    push Not at hplain
    obtain ⟨c, hc, hescaped⟩ := hplain
    exact ⟨⟨c, hc, by simpa using hescaped⟩, h⟩

/-- **The words of the frame** are the names of the fields, and there is punctuation at both
ends of each piece. -/
theorem pieces_spec : ∀ F ∈ pieces, F.toList.head?.any isPunctuation = true ∧
    F.toList.getLast?.any isPunctuation = true ∧
    ∀ run ∈ F.toList.splitOnP isPunctuation, run ∈ [] :: fieldNames.map String.toList := by
  decide +kernel

theorem infix_fieldName {F : String} (hF : F ∈ pieces) (hp : ∀ c ∈ p, isPunctuation c = false)
    (h : Meets p F.toList) : ∃ field ∈ fieldNames, p <:+: field.toList := by
  obtain ⟨hhead, hlast, hruns⟩ := pieces_spec F hF
  obtain ⟨run, hrun, hin⟩ := Text.infix_splitOnP hp (h.within hp hhead hlast)
  rcases List.mem_cons.1 (hruns run hrun) with rfl | hfield
  · refine ⟨"name", List.mem_cons_self, ?_⟩
    rw [List.infix_nil.1 hin]
    exact List.nil_infix
  · obtain ⟨field, hmem, rfl⟩ := List.mem_map.1 hfield
    exact ⟨field, hmem, hin⟩

/-- **Where a pattern stands that stands in the written form.** -/
theorem contains_written_cases {p : String} (h : Text.contains e.written p = true) :
    (∃ v ∈ e.values, Holds v p) ∨ e.Framed p := by
  have hframed : (∃ F ∈ e.frame, Meets p.toList F.toList) → e.Framed p := by
    rintro ⟨F, hF, hmeets⟩
    exact ⟨h, ⟨F, hF, hmeets⟩, fun hp => infix_fieldName (e.frame_subset_pieces F hF) hp hmeets⟩
  have hwritten := h
  rw [Text.contains_iff, toList_written] at hwritten
  by_cases hp : p.toList = []
  · have hname : Text.contains (Text.lower e.name) p = true := by
      rw [Text.contains_iff, hp]
      exact List.nil_infix
    exact Or.inl ⟨e.name, e.name_mem_values, Or.inl hname⟩
  rcases infix_frame hwritten with hmeets | hthreads
  · exact Or.inr (hframed ⟨opening, List.mem_cons_self, hmeets⟩)
  · obtain ⟨q, hq, hvalue | hmeets⟩ := infix_weave_cases hp hthreads
    · refine Or.inl ⟨q.1, ?_, holds_of_asWritten hvalue⟩
      rw [← e.threads_values]
      exact List.mem_map_of_mem hq
    · exact Or.inr (hframed ⟨q.2, List.mem_cons_of_mem _ (List.mem_map_of_mem hq), hmeets⟩)

theorem of_mem_queryAward {query reason : String} {holds : Bool} {points : ℕ} {x : Award}
    (h : x ∈ queryAward query holds points reason) : query ≠ "" ∧ holds = true := by
  unfold queryAward at h
  split at h
  · rename_i hq
    simpa using hq
  · cases h

theorem of_mem_patternAwards {points : ℕ} {word text : String} {l : List String} {x : Award}
    (h : x ∈ patternAwards points word text l) : ∃ p ∈ l, Text.contains text p = true := by
  unfold patternAwards at h
  obtain ⟨p, hp, -⟩ := List.mem_map.1 h
  exact ⟨p, (List.mem_filter.1 hp).1, (List.mem_filter.1 hp).2⟩

/-- **Every award has a reason.** -/
theorem justified_of_award {x : Award} (h : x ∈ e.awards n) : e.Justified n := by
  have hpattern : ∀ {points : ℕ} {word : String} {l : List String},
      (∀ p ∈ l, p ∈ n.terms ++ n.codePatterns ++ n.frameworkHints) →
      x ∈ patternAwards points word e.written l → e.Justified n := by
    intro points word l hl hx
    obtain ⟨p, hp, hcontains⟩ := of_mem_patternAwards hx
    exact Or.inr ⟨p, hl p hp, contains_written_cases hcontains⟩
  simp only [awards, elementAwards, List.mem_append] at h
  rcases h with ((h | h) | h) | h
  · exact Or.inl (of_mem_queryAward h)
  · exact hpattern (fun p hp => by simp [hp]) h
  · exact hpattern (fun p hp => by simp [hp]) h
  · exact hpattern (fun p hp => by simp [hp]) h

/-- **What is found has a reason.** -/
theorem justified_of_found {m : Match} (h : e.found? n = some m) : e.Justified n := by
  rcases e.found?_cases n with ⟨-, -, hscore⟩ | ⟨hnone, -⟩
  · cases hawards : e.awards n with
    | nil =>
      rw [hawards] at hscore
      exact absurd hscore (Nat.not_lt_zero _)
    | cons x l => exact justified_of_award (hawards ▸ List.mem_cons_self)
  · rw [h] at hnone
    cases hnone

/-- **A term within the frame** finds every element that has the frame, if the terms are few. -/
theorem found_of_frame (hfew : n.Few) {p : String} (hp : p ∈ n.terms) {F : String} (hF : F ∈ e.frame)
    (h : p.toList <:+: F.toList) : e.found? n ≠ none := by
  have hcontains : Text.contains e.written p = true := Text.contains_iff.2 (h.trans (infix_written_of_mem_frame hF))
  have hcount : 0 < n.terms.countP (Text.contains e.written ·) := List.countP_pos_iff.2 ⟨p, hp, hcontains⟩
  have hthreshold : e.threshold ≤ 25 := by cases e <;> simp [threshold]
  rcases e.found?_cases n with ⟨m, hm, -⟩ | ⟨-, hscore⟩
  · rw [hm]
    exact Option.some_ne_none m
  · rw [scoreOf_eq_min (e.sum_awards_lt hfew), sum_awards] at hscore
    omega

end Element

theorem kind_of_match? {c : Candidate} {m : Match} (h : c.match? = some m) : m.kind = c.kind := by
  obtain ⟨-, rfl⟩ := Candidate.match?_eq_some_iff.1 h
  rfl

/-- **The functions, classes and variables that are found** are the elements that are. -/
theorem mem_matchArtifact_iff {a : Artifact} {n : Needles} {m : Match}
    (hkind : m.kind ∈ [.function, .classType, .interface, .variable]) :
    m ∈ matchArtifact a n ↔ ∃ e ∈ Element.ofArtifact a, e.found? n = some m := by
  unfold matchArtifact bestFirst
  rw [List.mem_mergeSort, List.mem_filterMap, Element.candidates_eq]
  constructor
  · rintro ⟨c, hc, hmatch⟩
    rw [kind_of_match? hmatch] at hkind
    simp only [List.mem_append, List.mem_map] at hc
    rcases hc with (⟨e, he, rfl⟩ | ⟨i, -, rfl⟩) | ⟨c, -, rfl⟩
    · exact ⟨e, he, hmatch⟩
    · exact absurd hkind (by simp)
    · exact absurd hkind (by simp)
  · rintro ⟨e, he, hmatch⟩
    exact ⟨e.candidate n, List.mem_append_left _ (List.mem_append_left _ (List.mem_map_of_mem he)), hmatch⟩

/-- A function that has no word of the frame in it. -/
def shortFunction : FunctionInfo where
  name := "f"
  snippet := "f()"
  location := ⟨1, 1⟩
  complexity := 1

/-- **A function is found that has the pattern in none of its values.** -/
theorem shortFunction_found :
    let n := Needles.prepare "" { terms := ["name"] }
    (∃ m ∈ matchArtifact { functions := [shortFunction] } n, m.kind = .function) ∧ n.query = "" ∧
      ∀ p ∈ n.terms ++ n.codePatterns ++ n.frameworkHints, ∀ v ∈ (Element.function shortFunction).values,
        Text.contains (Text.lower v) p = false := by
  intro n
  refine ⟨?_, by decide +kernel, by decide +kernel⟩
  have hfound : (Element.function shortFunction).found? n ≠ none :=
    Element.found_of_frame (by decide +kernel) (p := "name") (by decide +kernel) (F := Element.opening)
      List.mem_cons_self (by decide +kernel)
  obtain ⟨m, hm⟩ := Option.ne_none_iff_exists'.1 hfound
  have hkind : m.kind = .function := kind_of_match? hm
  exact ⟨m, (mem_matchArtifact_iff (by simp [hkind])).2 ⟨_, List.mem_cons_self, hm⟩, hkind⟩

/-- **Every function, class and variable that is found is found for a reason**, and one
without a reason is not found. -/
theorem matches_justified (a : Artifact) (n : Needles) :
    (∀ m ∈ matchArtifact a n, m.kind ∈ [.function, .classType, .interface, .variable] →
      ∃ e ∈ Element.ofArtifact a, e.found? n = some m ∧ e.Justified n) ∧
    ∀ e ∈ Element.ofArtifact a, ¬e.Justified n → e.found? n = none := by
  constructor
  · intro m hm hkind
    obtain ⟨e, he, hfound⟩ := (mem_matchArtifact_iff hkind).1 hm
    exact ⟨e, he, hfound, Element.justified_of_found hfound⟩
  · intro e _ hreason
    by_contra hfound
    obtain ⟨m, hm⟩ := Option.ne_none_iff_exists'.1 hfound
    exact hreason (Element.justified_of_found hm)

/-- A function is found by its name, and not without a query and a pattern. -/
theorem matches_justified_shortFunction :
    (∃ m ∈ matchArtifact { functions := [shortFunction] } (Needles.prepare "F" {}),
      ∃ e ∈ Element.ofArtifact { functions := [shortFunction] }, e.found? (Needles.prepare "F" {}) = some m ∧
        e.Justified (Needles.prepare "F" {})) ∧
      (Element.function shortFunction).found? (Needles.prepare "" {}) = none := by
  constructor
  · have hfound : matchArtifact { functions := [shortFunction] } (Needles.prepare "F" {}) =
        [⟨.function, "f", "f()", 1, 1, 50, "name contains query"⟩] := by decide +kernel
    have hmem : ⟨.function, "f", "f()", 1, 1, 50, "name contains query"⟩ ∈
        matchArtifact { functions := [shortFunction] } (Needles.prepare "F" {}) := hfound ▸ List.mem_cons_self
    exact ⟨_, hmem, (matches_justified _ _).1 _ hmem (by decide)⟩
  · refine (matches_justified { functions := [shortFunction] } (Needles.prepare "" {})).2 _ List.mem_cons_self ?_
    rintro (⟨hquery, -⟩ | ⟨p, hp, -⟩)
    · exact hquery (by decide +kernel)
    · exact absurd hp (by simp [Needles.prepare, prepared])

end CodeAtlas.Search
