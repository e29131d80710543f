import CodeAtlas.Proofs.Search.Ranking
import CodeAtlas.Proofs.Store.Misreading

/-!
# Results of a search

The results of a search are ranked files of the repositories that are searched, and there are
none unless it gets as far as a ranking.

* `results_cases`: where results come from.
* `search_results`: **what the results of every search have in common.**
-/

namespace CodeAtlas.Search

variable {σ : Type}

/-- **Results are a ranking of the files that fit patterns**, or there are none. -/
theorem results_cases {generator : Generator σ} {settings : SearchSettings} {s : Store} {context : QueryContext}
    {state : σ} {intent : Intent} {results : List SearchResult} {summary : String}
    (h : .complete intent results summary ∈ (search generator settings (.ok s) context state).1) :
    results = [] ∨ ∃ set last, results = (rank generator settings (Text.trim context.query)
      (matchAll (Needles.prepare (Text.trim context.query) set) (eligible s context)) last).1 := by
  by_cases hquery : IsQuery context.query
  case neg =>
    obtain ⟨m, hsearch⟩ := search_of_not_isQuery settings generator state hquery
    simp [hsearch] at h
  by_cases hcode : AboutCode generator (Text.trim context.query) state
  case neg =>
    simp only [AboutCode, Classical.not_forall] at hcode
    obtain ⟨raw, hraw, hnot⟩ := hcode
    obtain ⟨text, -, hsearch⟩ := search_of_raw settings hquery hraw hnot
    simp only [hsearch, List.mem_cons, reduceCtorEq, Event.complete.injEq, List.not_mem_nil, or_false, false_or] at h
    exact Or.inl h.2.1
  by_cases hsome : eligible s context = []
  · obtain ⟨text, hsearch⟩ := search_of_eligible_nil settings hquery hcode hsome
    simp only [hsearch, front, List.cons_append, List.nil_append, List.mem_cons, reduceCtorEq, Event.complete.injEq,
      List.not_mem_nil, or_false, false_or] at h
    exact Or.inl h.2.1
  obtain ⟨_, -, hsearch⟩ := search_of_eligible settings hquery hcode hsome
  rw [hsearch] at h
  unfold searchAmong at h
  rcases hset : PatternSet.generate generator _ _ context.filters _ with ⟨_ | set, last⟩ <;> rw [hset] at h
  · simp [front, lastEvent] at h
  · refine Or.inr ⟨set, last, ?_⟩
    simp only [front, lastEvent, List.cons_append, List.nil_append, List.mem_cons, reduceCtorEq, Event.complete.injEq,
      List.not_mem_nil, or_false, false_or] at h
    exact h.2.1

theorem Tells.comesFrom {s : Store} {context : QueryContext} {n : Needles} {f : FileMatches} {r : SearchResult}
    {source : Ident × Option ℕ} (h : Tells f r) (hf : ComesFrom s context n f source) :
    ComesFrom s context n r.filed source := by
  rw [h.filed]
  exact hf

theorem ComesFrom.relevant {s : Store} {context : QueryContext} {n : Needles} {f : FileMatches}
    {source : Ident × Option ℕ} (h : ComesFrom s context n f source) : Relevant f.matched := by
  obtain ⟨_, _, _, -, -, -, hne, hstands⟩ := h
  exact hstands.relevant hne

/-- **The results of a search** in a store that operations lead to, from a new one and with any
results of analyses. They are no more than was asked for, and the best stand first.

Each has its own source: a repository that is searched, with the place of an artifact that has
been parsed among those of the analysis, or, without such an artifact, with the index. The
matches of a result are sorted too, and score more than 15 and at most 100. The score of a
result is the mean of these, or is blended from it and a score between 0 and 100 that the
generator gave; in exact arithmetic it is positive and at most 100, and so is the float, unless
there are so many matches that the sum of their scores leaves 32 bits. -/
theorem search_results {a : Archive} (h : a.Attained) (generator : Generator σ) (settings : SearchSettings)
    (context : QueryContext) (state : σ) {intent : Intent} {results : List SearchResult} {summary : String}
    (hdone : .complete intent results summary ∈ (search generator settings (.ok a.data) context state).1) :
    results.length ≤ settings.maxResults ∧ results.Pairwise (fun r r' => r'.score ≤ r.score) ∧
      (∃ set, Distinctly (fun r => ComesFrom a.data context (Needles.prepare (Text.trim context.query) set) r.filed)
        results) ∧
      ∀ r ∈ results, Relevant r.matched ∧
        (∃ given, r.HasScore given ∧ 0 < exactScore r.matched given ∧ exactScore r.matched given ≤ 100) ∧
        ((r.matched.map (·.score)).sum < 2 ^ 32 → 0.0 < r.score ∧ r.score ≤ 100.0) := by
  rcases results_cases hdone with rfl | ⟨set, last, rfl⟩
  · simpa using ⟨{}, Distinctly.nil⟩
  obtain ⟨hlen, hsorted, hdistinct⟩ := rank_spec generator settings (Text.trim context.query)
    (distinctly_matchAll h.distinctIds context (Needles.prepare (Text.trim context.query) set)) last
  generalize (rank generator settings (Text.trim context.query) _ last).1 = results at hlen hsorted hdistinct
  obtain ⟨sources, hsources, hnd⟩ := hdistinct
  refine ⟨hlen, hsorted, ⟨set, sources, hsources.imp fun r source ⟨f, ht, hf⟩ => ht.comesFrom hf, hnd⟩, fun r hr => ?_⟩
  obtain ⟨_, -, f, ht, hf⟩ := exists_of_mem_right hsources.flip hr
  have hrelevant : Relevant r.matched := (ht.comesFrom hf).relevant
  obtain ⟨given, hscore⟩ := ht.score
  exact ⟨hrelevant, ⟨given, hscore, hrelevant.exactScore_bounds hscore.given_bounds⟩, hscore.bounds hrelevant⟩

/-- A repository and an analysis of it that completes with one function. -/
def oneFunction : List Archive.Operation :=
  [.save .done (.register ⟨1⟩ default "a/b"), .begin .done ⟨2⟩ default ⟨1⟩,
    .finish .done default ((Analysis.begun ⟨2⟩ ⟨1⟩ default).completed default
      { artifacts := [{ path := "f.py", language := "python", parseSuccess := true,
                        functions := [{ name := "f", snippet := "f()", location := ⟨1, 1⟩, complexity := 1 }] }] })]

/-- A generator that looks for `f` and gives 80 to every file. -/
def terse : Generator Unit := fun request state =>
  (match request.label with
    | "patterns" => .ok "\x7b\"search_terms\":[\"f\"]\x7d"
    | "rescore" => .ok "\x7b\"score\":80\x7d"
    | _ => .error (.transport "none"), state)

/-- The number of results that an event brings. -/
def Event.count? : Event → Option ℕ
  | complete _ results _ => some results.length
  | _ => none

/-- The function is found. -/
theorem search_results_oneFunction :
    ((⟨{}, .memory⟩ : Archive).after oneFunction).Attained ∧
      ∃ intent results summary, .complete intent results summary ∈
          (search terse {} (.ok ((⟨{}, .memory⟩ : Archive).after oneFunction).data) { query := "f" } ()).1 ∧
        results.length = 1 ∧ ∀ r ∈ results, Relevant r.matched ∧ ∃ given, r.HasScore given := by
  have hattained : ((⟨{}, .memory⟩ : Archive).after oneFunction).Attained := by
    refine ⟨_, oneFunction, ⟨rfl, Or.inl rfl⟩, ?_, rfl⟩
    simp [oneFunction, Archive.Operation.Counts, Repository.Counts, Repository.register]
  have hcount : (search terse {} (.ok ((⟨{}, .memory⟩ : Archive).after oneFunction).data)
      { query := "f" } ()).1.findSome? Event.count? = some 1 := by
    decide +kernel
  refine ⟨hattained, ?_⟩
  obtain ⟨e, he, hone⟩ := List.exists_of_findSome?_eq_some hcount
  cases e with
  | complete intent results summary =>
    have hresults := (search_results hattained terse {} { query := "f" } () he).2.2.2
    refine ⟨intent, results, summary, he, Option.some.inj hone, fun r hr => ?_⟩
    obtain ⟨hrelevant, ⟨given, hscore, -⟩, -⟩ := hresults r hr
    exact ⟨hrelevant, given, hscore⟩
  | progress | failed => cases hone

end CodeAtlas.Search
