import CodeAtlas.Proofs.Summary.Answers
import CodeAtlas.Proofs.Summary.CleanLists
import CodeAtlas.Search.Patterns
import CodeAtlas.Search.Score

/-!
# Repetitions among patterns

Patterns are cleaned when a generator gives them, and prepared when they are looked for. Both go by the same
form of a text, trimmed and in lower case. So to prepare clean patterns is to put them in lower case, which
leaves one of each, and it does not matter how often a generator says the same.

* `OneEach`: what is looked for, one text for each pattern.
* `oneEach_of_isClean`: **clean patterns are prepared one by one.**
* `prepared_cleanList`: what is looked for, in terms of what a generator gives.
* `PatternSet.tidy_of_isPadded`: **blank texts and repetitions add nothing to patterns.**
* `patterns_count_once`: the patterns for a query, and **no pattern counts twice.**
-/

namespace CodeAtlas.Search

variable {σ τ : Type} {l : List String}

/-! ## Prepared patterns -/

/-- **What is looked for, one text for each pattern** and in their order: all different, none empty and all in lower
case. -/
structure OneEach (patterns needles : List String) : Prop where
  eq_map : needles = patterns.map Text.lower
  nodup : needles.Nodup
  nonempty : ∀ t ∈ needles, t ≠ ""
  lower : ∀ t ∈ needles, Text.lower t = t

/-- Clean patterns are put in lower case, and nothing else is done to them. -/
theorem prepared_of_isClean (h : IsClean l) : prepared l = l.map Text.lower := by
  have hmap : (l.map fun s => Text.lower (Text.trim s)) = l.map Text.lower :=
    List.map_congr_left fun s hs => congrArg Text.lower (h.trimmed s hs)
  rw [prepared, hmap, List.filter_eq_self]
  intro t ht
  obtain ⟨s, hs, rfl⟩ := List.mem_map.1 ht
  exact decide_eq_true fun he => h.nonempty s hs (Text.lower_eq_empty_iff.1 he)

/-- **Clean patterns are prepared one by one.** -/
theorem oneEach_of_isClean (h : IsClean l) : OneEach l (prepared l) := by
  rw [prepared_of_isClean h]
  refine ⟨rfl, h.apart, fun t ht => ?_, fun t ht => ?_⟩
  · obtain ⟨s, hs, rfl⟩ := List.mem_map.1 ht
    exact fun he => h.nonempty s hs (Text.lower_eq_empty_iff.1 he)
  · obtain ⟨s, -, rfl⟩ := List.mem_map.1 ht
    exact Text.lower_lower s

theorem prepared_eq (l : List String) : prepared l = (l.filter fun s => !Text.isAllBlank s).map normalized := by
  have hkept : ((· ≠ "") : String → Bool) ∘ normalized = fun s => !Text.isAllBlank s := by
    funext s
    rw [Function.comp_apply, decide_not, decide_normalized_eq_empty]
  rw [← hkept, ← List.filter_map]
  rfl

/-- **What is looked for after cleaning** are the first occurrences of what would be looked for without. -/
theorem prepared_cleanList (l : List String) : prepared (cleanList l) = (prepared l).eraseDups := by
  rw [prepared_of_isClean (isClean_cleanList l), map_lower_cleanList, prepared_eq]

theorem isClean_take_cleanList (k : ℕ) (l : List String) : IsClean ((cleanList l).take k) :=
  (isClean_cleanList l).sublist (List.take_sublist k _)

/-- If only some of the clean patterns are looked for, it is the first occurrences of as many. -/
theorem prepared_take_cleanList (k : ℕ) (l : List String) :
    prepared ((cleanList l).take k) = (prepared l).eraseDups.take k := by
  rw [prepared_of_isClean (isClean_take_cleanList k l), List.map_take, map_lower_cleanList, prepared_eq]

/-! ## The patterns for a query -/

namespace PatternSet

variable {p p' set : PatternSet}

/-- Patterns are refused just if no term is left. -/
theorem tidy_eq_ok_iff :
    p.tidy = .ok set ↔ cleanList p.terms ≠ [] ∧
      set =
        { terms := (cleanList p.terms).take 10, filePatterns := cleanList p.filePatterns
          codePatterns := cleanList p.codePatterns, frameworkHints := cleanList p.frameworkHints } := by
  unfold tidy
  by_cases hnone : cleanList p.terms = []
  · simp only [hnone, List.isEmpty_nil, if_true]
    exact iff_of_false nofun fun h => h.1 rfl
  · simp only [List.isEmpty_iff, if_neg hnone]
    exact ⟨fun h => ⟨hnone, (Except.ok.inj h).symm⟩, fun h => congrArg Except.ok h.2.symm⟩

/-- **The same terms, pieces of code and frameworks, with blank texts and repetitions** added to them. The file patterns
may be others. -/
structure IsPadded (p p' : PatternSet) : Prop where
  terms : Padded p.terms p'.terms
  codePatterns : Padded p.codePatterns p'.codePatterns
  frameworkHints : Padded p.frameworkHints p'.frameworkHints

/-- **Blank texts and repetitions add nothing**, be the patterns taken or refused. -/
theorem tidy_of_isPadded (h : p.IsPadded p') :
    p'.tidy = p.tidy.map fun set => { set with filePatterns := cleanList p'.filePatterns } := by
  unfold tidy
  simp only [cleanList_of_padded h.terms, cleanList_of_padded h.codePatterns, cleanList_of_padded h.frameworkHints]
  cases (cleanList p.terms).isEmpty <;> rfl

/-- Patterns come from a reply that is read as patterns. -/
theorem generate_eq_ok_iff {generator : Generator σ} {query : String} {hints : Hints} {filters : Filters} {state : σ} :
    (generate generator query hints filters state).1 = .ok set ↔
      ∃ text p, (generator (request query hints filters) state).1 = .ok text ∧
        parseStructured PatternSet.decode text = .ok p ∧ p.tidy = .ok set := by
  unfold generate
  rcases hgen : generateStructured generator PatternSet.decode (request query hints filters) state with ⟨e | p, last⟩
  · refine iff_of_false nofun ?_
    rintro ⟨text, p, htext, hparse, -⟩
    have hok := generateStructured_eq_ok_iff.2 ⟨text, htext, hparse⟩
    rw [hgen] at hok
    cases hok
  · obtain ⟨text, htext, hparse⟩ := generateStructured_eq_ok_iff.1 (congrArg Prod.fst hgen)
    refine ⟨fun h => ⟨text, p, htext, hparse, h⟩, ?_⟩
    rintro ⟨text', p', htext', hparse', htidy⟩
    obtain rfl := Except.ok.inj (htext.symm.trans htext')
    obtain rfl := Except.ok.inj (hparse.symm.trans hparse')
    exact htidy

end PatternSet

/-- **File patterns earn no points**; they are for the order of files. -/
theorem candidates_filePatterns (a : Outline.Artifact) (query : String) (set : PatternSet) (l : List String) :
    candidates a (Needles.prepare query { set with filePatterns := l }) = candidates a (Needles.prepare query set) :=
  rfl

/-- **No pattern counts twice.** The patterns for a query come from a reply, and there are one to ten terms. Of the
terms, the pieces of code and the frameworks each is looked for once, and they are the different ones of the reply,
of the terms the first ten.

A reply that only adds blank texts and repetitions to these lists is taken as well and gives the same of them, so
every element of every outline has the same score. -/
theorem patterns_count_once (generator : Generator σ) (query : String) (hints : Hints) (filters : Filters) (state : σ)
    {set : PatternSet} (h : (PatternSet.generate generator query hints filters state).1 = .ok set) :
    let request := PatternSet.request query hints filters
    let needles := Needles.prepare query set
    ∃ text p, (generator request state).1 = .ok text ∧ parseStructured PatternSet.decode text = .ok p ∧
      (1 ≤ set.terms.length ∧ set.terms.length ≤ 10) ∧
      (OneEach set.terms needles.terms ∧ needles.terms = (prepared p.terms).eraseDups.take 10) ∧
      (OneEach set.codePatterns needles.codePatterns ∧ needles.codePatterns = (prepared p.codePatterns).eraseDups) ∧
      (OneEach set.frameworkHints needles.frameworkHints ∧
        needles.frameworkHints = (prepared p.frameworkHints).eraseDups) ∧
      ∀ (other : Generator τ) (state' : τ) (text' : String) (p' : PatternSet),
        (other request state').1 = .ok text' → parseStructured PatternSet.decode text' = .ok p' → p.IsPadded p' →
          ∃ set', (PatternSet.generate other query hints filters state').1 = .ok set' ∧
            set' = { set with filePatterns := cleanList p'.filePatterns } ∧
            ∀ a, (candidates a (Needles.prepare query set')).map (fun c => scoreOf c.awards) =
              (candidates a needles).map fun c => scoreOf c.awards := by
  intro request needles
  obtain ⟨text, p, htext, hparse, htidy⟩ := PatternSet.generate_eq_ok_iff.1 h
  refine ⟨text, p, htext, hparse, ?length, ?terms, ?code, ?frameworks, ?padded⟩
  case padded =>
    intro other state' text' p' htext' hparse' hpadded
    have htidy' : p'.tidy = .ok { set with filePatterns := cleanList p'.filePatterns } := by
      rw [PatternSet.tidy_of_isPadded hpadded, htidy]
      rfl
    refine ⟨_, PatternSet.generate_eq_ok_iff.2 ⟨text', p', htext', hparse', htidy'⟩, rfl, fun a => ?_⟩
    rw [candidates_filePatterns]
  all_goals obtain ⟨hsome, rfl⟩ := PatternSet.tidy_eq_ok_iff.1 htidy
  case length =>
    have hpos : 0 < (cleanList p.terms).length := List.length_pos_iff.2 hsome
    simp only [List.length_take]
    omega
  case terms => exact ⟨oneEach_of_isClean (isClean_take_cleanList 10 _), prepared_take_cleanList 10 _⟩
  case code => exact ⟨oneEach_of_isClean (isClean_cleanList _), prepared_cleanList _⟩
  case frameworks => exact ⟨oneEach_of_isClean (isClean_cleanList _), prepared_cleanList _⟩

/-- A reply with one term. -/
def plainReply : String := "\x7b\"search_terms\": [\"Auth\"]\x7d"

/-- The same reply with a blank term and a repetition. -/
def repeatedReply : String := "\x7b\"search_terms\": [\"Auth\", \"\", \" AUTH\"]\x7d"

/-- A term that is repeated is looked for once. -/
theorem patterns_count_once_repeated :
    (PatternSet.generate (fun _ state => (.ok plainReply, state)) "auth" {} {} ()).1 = .ok { terms := ["Auth"] } ∧
      (PatternSet.generate (fun _ state => (.ok repeatedReply, state)) "auth" {} {} ()).1 =
        .ok { terms := ["Auth"] } := by
  have h : (PatternSet.generate (fun _ state => (.ok plainReply, state)) "auth" {} {} ()).1 =
      .ok { terms := ["Auth"] } := rfl
  obtain ⟨text, p, htext, hparse, -, -, -, -, hpadded⟩ := patterns_count_once (τ := Unit) _ _ _ _ _ h
  obtain rfl := Except.ok.inj htext
  obtain rfl : PatternSet.mk ["Auth"] [] [] [] = p := Except.ok.inj hparse
  obtain ⟨set', hset', rfl, -⟩ := hpadded (fun _ state => (.ok repeatedReply, state)) () repeatedReply
    ⟨["Auth", "", " AUTH"], [], [], []⟩ rfl rfl
    ⟨.again ["Auth", ""] [] " AUTH" "Auth" (.blank ["Auth"] [] "" .refl rfl) List.mem_cons_self (by decide +kernel),
      .refl, .refl⟩
  exact ⟨h, hset'⟩

end CodeAtlas.Search
