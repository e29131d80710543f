import CodeAtlas.Search.Engine
import Mathlib.Data.Nat.Notation

/-!
# The events of a search

A search announces its stages in order, as far as it gets, and then one last event.
How far it gets depends on the query, on the classification, on the store and on the
patterns, and on nothing after them.

* `logged`: a generator that notes what it is asked.
* `Follows`: a generator that answers like another one, with more in its state.
* `search_of_follows`: a search does not see what else is in the state.
* `search_stream`: **the events of every search, and what is asked for them.**
-/

namespace CodeAtlas.Search

variable {α σ τ : Type}

/-! ## Stages -/

/-- The stages of a search in order. -/
def stages : List String := ["intent", "candidates", "patterns", "matching", "ranking", "summary"]

namespace Event

/-- The stage that an event announces. -/
def stage? : Event → Option String
  | progress stage _ => some stage
  | _ => none

/-- An event says how a search ended. -/
def isLast : Event → Bool
  | progress .. => false
  | _ => true

theorem isLast_iff (e : Event) : e.isLast = true ↔ e.stage? = none := by
  cases e <;> simp [isLast, stage?]

end Event

/-- **The events announce the first `k` stages and then end** with `e`. -/
def Ends (k : ℕ) (e : Event) (events : List Event) : Prop :=
  e.isLast = true ∧ ∃ announced, events = announced ++ [e] ∧ announced.map Event.stage? = (stages.take k).map some

theorem Ends.countP_isLast {k : ℕ} {e : Event} {events : List Event} (h : Ends k e events) :
    events.countP (·.isLast) = 1 := by
  obtain ⟨he, announced, rfl, hstages⟩ := h
  have hnone : announced.countP (·.isLast) = 0 := by
    rw [List.countP_eq_zero]
    intro x hx hlast
    have hmem : x.stage? ∈ (stages.take k).map some := hstages ▸ List.mem_map_of_mem hx
    rw [(Event.isLast_iff x).1 hlast] at hmem
    obtain ⟨_, -, h⟩ := List.mem_map.1 hmem
    cases h
  rw [List.countP_append, hnone]
  simp [he]

/-! ## What is asked -/

/-- A generator that notes what it is asked. -/
def logged (generator : Generator σ) : Generator (List Request × σ) := fun request state =>
  ((generator request state.2).1, state.1 ++ [request], (generator request state.2).2)

/-- A generator answers like another one does from a part of its state. -/
def Follows (generator : Generator τ) (other : Generator σ) (part : τ → σ) : Prop :=
  ∀ request state, Prod.map id part (generator request state) = other request (part state)

theorem follows_logged (generator : Generator σ) : Follows (logged generator) generator Prod.snd := fun _ _ => rfl

section Follows

variable {generator : Generator τ} {other : Generator σ} {part : τ → σ} (h : Follows generator other part)
include h

theorem generateStructured_of_follows (decode : Json.Decoder α) (request : Request) (state : τ) :
    Prod.map id part (generateStructured generator decode request state) =
      generateStructured other decode request (part state) := by
  unfold generateStructured
  rw [← h request state]
  rcases generator request state with ⟨_ | _, after⟩ <;> rfl

theorem classify_of_follows (query : String) (state : τ) :
    Prod.map id part (Intent.classify generator query state) = Intent.classify other query (part state) := by
  unfold Intent.classify
  rw [← generateStructured_of_follows h]
  rcases generateStructured generator _ _ state with ⟨_ | _, after⟩ <;> rfl

theorem generate_of_follows (query : String) (hints : Hints) (filters : Filters) (state : τ) :
    Prod.map id part (PatternSet.generate generator query hints filters state) =
      PatternSet.generate other query hints filters (part state) := by
  unfold PatternSet.generate
  rw [← generateStructured_of_follows h]
  rcases generateStructured generator _ _ state with ⟨_ | _, after⟩ <;> rfl

theorem scoreFile_of_follows (settings : SearchSettings) (query : String) (f : FileMatches) (state : τ) :
    Prod.map id part (scoreFile generator settings query f state) =
      scoreFile other settings query f (part state) := by
  unfold scoreFile Rescore.ask
  rw [← generateStructured_of_follows h]
  rcases generateStructured generator _ _ state with ⟨_ | _, after⟩ <;> cases settings.rescoring <;> rfl

theorem scoreBatch_of_follows (settings : SearchSettings) (query : String) (fs : List FileMatches) (state : τ) :
    Prod.map id part (scoreBatch generator settings query fs state) =
      scoreBatch other settings query fs (part state) := by
  induction fs generalizing state with
  | nil => rfl
  | cons f fs ih =>
    simp only [scoreBatch]
    rw [← scoreFile_of_follows h]
    simp only [Prod.map_snd, Prod.map_fst, ← ih]
    rfl

theorem scoreBatches_of_follows (settings : SearchSettings) (query : String) (bs : List (List FileMatches))
    (state : τ) :
    Prod.map id part (scoreBatches generator settings query bs state) =
      scoreBatches other settings query bs (part state) := by
  induction bs generalizing state with
  | nil => rfl
  | cons b bs ih =>
    simp only [scoreBatches]
    rw [← scoreBatch_of_follows h]
    simp only [Prod.map_snd, Prod.map_fst, ← ih]
    rfl

theorem rank_of_follows (settings : SearchSettings) (query : String) (files : List FileMatches) (state : τ) :
    Prod.map id part (rank generator settings query files state) = rank other settings query files (part state) := by
  unfold rank
  rw [← scoreBatches_of_follows h]
  rfl

theorem summarizeResults_of_follows (query : String) (rs : List SearchResult) (state : τ) :
    Prod.map id part (summarizeResults generator query rs state) =
      summarizeResults other query rs (part state) := by
  unfold summarizeResults
  rw [← h]
  cases rs.isEmpty
  · rcases generator _ state with ⟨_ | _, after⟩ <;> rfl
  · rfl

/-- **A search does not see what else is in the state** of its generator. -/
theorem search_of_follows (settings : SearchSettings) (store : Except StoreError Store) (context : QueryContext)
    (state : τ) :
    Prod.map id part (search generator settings store context state) =
      search other settings store context (part state) := by
  unfold search execute
  cases checkQuery context.query with
  | error e => rfl
  | ok query =>
    dsimp only
    rw [← classify_of_follows h]
    rcases Intent.classify generator query state with ⟨intent, after⟩
    by_cases hcode : intent.intent ≠ .codeSearch
    · simp [hcode]
    cases store with
    | error e => simp [hcode]
    | ok s =>
      simp only [Prod.map_fst, Prod.map_snd, id_eq, hcode, if_false]
      split
      · simp only [summarizeResults, List.isEmpty_nil, if_true]
        rfl
      · simp only [searchAmong]
        rw [← generate_of_follows h]
        rcases PatternSet.generate generator query _ context.filters after with ⟨_ | set, last⟩
        · rfl
        · simp only [Prod.map_apply, id_eq]
          rw [← rank_of_follows h]
          simp only [Prod.map_fst, Prod.map_snd, id_eq]
          rw [← summarizeResults_of_follows h]
          rfl

end Follows

/-- What is asked for a value is one request. -/
theorem generateStructured_logged (generator : Generator σ) (decode : Json.Decoder α) (request : Request)
    (state : List Request × σ) :
    generateStructured (logged generator) decode request state =
      ((generateStructured generator decode request state.2).1, state.1 ++ [request],
        (generateStructured generator decode request state.2).2) := by
  unfold generateStructured logged
  rcases generator request state.2 with ⟨_ | _, after⟩ <;> rfl

/-! ## The classification -/

/-- A query that can be searched for. -/
def IsQuery (text : String) : Prop := Text.trim text ≠ "" ∧ (Text.trim text).length ≤ maxQueryChars

theorem checkQuery_of_isQuery {text : String} (h : IsQuery text) : checkQuery text = .ok (Text.trim text) := by
  simp [checkQuery, h.1, h.2]

theorem checkQuery_of_not_isQuery {text : String} (h : ¬IsQuery text) : ∃ e, checkQuery text = .error e := by
  unfold checkQuery
  by_cases hempty : Text.trim text = ""
  · exact ⟨_, if_pos hempty⟩
  · have hlong : maxQueryChars < (Text.trim text).length := Nat.lt_of_not_le fun hle => h ⟨hempty, hle⟩
    exact ⟨.tooLong, by simp [hempty, hlong]⟩

/-- What the classifier answers, and the state after it. -/
def classification (generator : Generator σ) (query : String) (state : σ) : Except Failure Intent.Raw × σ :=
  generateStructured generator Intent.Raw.decode (Intent.request query) state

/-- **A query is about code** unless the classifier says otherwise. -/
def AboutCode (generator : Generator σ) (query : String) (state : σ) : Prop :=
  ∀ raw, (classification generator query state).1 = .ok raw → raw.intent = .codeSearch

theorem classify_snd (generator : Generator σ) (query : String) (state : σ) :
    (Intent.classify generator query state).2 = (classification generator query state).2 := by
  unfold Intent.classify classification
  rcases generateStructured generator _ _ state with ⟨_ | _, after⟩ <;> rfl

theorem classify_of_aboutCode {generator : Generator σ} {query : String} {state : σ}
    (h : AboutCode generator query state) : (Intent.classify generator query state).1.intent = .codeSearch := by
  unfold AboutCode classification at h
  unfold Intent.classify
  rcases hraw : generateStructured generator _ _ state with ⟨_ | raw, after⟩
  · rfl
  · exact h raw (by rw [hraw])

theorem cannedReply_ne_empty {intent : Intent} (h : intent ≠ .codeSearch) : Intent.cannedReply intent ≠ "" := by
  cases intent with
  | codeSearch => exact absurd rfl h
  | casualConversation => decide
  | helpRequest => decide

/-- A query that is not about code is answered with a text. -/
theorem classify_of_raw {generator : Generator σ} {query : String} {state : σ} {raw : Intent.Raw}
    (hraw : (classification generator query state).1 = .ok raw) (hnot : raw.intent ≠ .codeSearch) :
    let intent := (Intent.classify generator query state).1
    intent.intent = raw.intent ∧ intent.suggestedResponse.getD (Intent.cannedReply intent.intent) ≠ "" := by
  unfold classification at hraw
  unfold Intent.classify
  rcases h : generateStructured generator _ _ state with ⟨_ | raw', after⟩
  · rw [h] at hraw
    cases hraw
  · rw [h] at hraw
    cases hraw
    refine ⟨rfl, ?_⟩
    simp only [Intent.Raw.tidy]
    cases hsuggested : (raw.suggestedResponse.map Text.trim).filter (· ≠ "") with
    | some text =>
      obtain ⟨-, hne⟩ := Option.filter_eq_some_iff.1 hsuggested
      simpa using hne
    | none => exact cannedReply_ne_empty hnot

/-! ## Where a search ends -/

/-- The repositories that are searched. -/
def eligible (s : Store) (context : QueryContext) : List (Repository × Analysis) :=
  (s.latestCompleted context.repositories).filter fun p => passesFilters p.1 p.2 context.filters

/-- What is asked for patterns, and what comes of it. -/
def patternsFor (generator : Generator σ) (s : Store) (context : QueryContext) (state : σ) :
    Except Failure PatternSet × σ :=
  PatternSet.generate generator (Text.trim context.query) (hintsOf (eligible s context)) context.filters
    (classification generator (Text.trim context.query) state).2

/-- The events up to the selection of the repositories. -/
def front : List Event :=
  [.progress "intent" "Classifying query", .progress "candidates" "Selecting analyzed repositories"]

section Exits

variable {generator : Generator σ} (settings : SearchSettings) {store : Except StoreError Store}
  {context : QueryContext} {state : σ}

theorem search_of_not_isQuery (generator : Generator σ) (state : σ) (h : ¬IsQuery context.query) :
    ∃ m, ∀ store, search generator settings store context state = ([.failed m context.query], state) := by
  obtain ⟨e, hcheck⟩ := checkQuery_of_not_isQuery h
  refine ⟨(AppError.invalidInput e.message).message, fun store => ?_⟩
  simp only [search, execute, hcheck]
  rfl

variable (hquery : IsQuery context.query)
include hquery

/-- The text that answers a query depends on the classifier alone. -/
theorem search_of_raw {raw : Intent.Raw}
    (hraw : (classification generator (Text.trim context.query) state).1 = .ok raw)
    (hnot : raw.intent ≠ .codeSearch) :
    ∃ text ≠ "", ∀ store, search generator settings store context state =
      ([.progress "intent" "Classifying query", .complete raw.intent [] text],
        (classification generator (Text.trim context.query) state).2) := by
  obtain ⟨hintent, htext⟩ := classify_of_raw hraw hnot
  refine ⟨_, htext, fun store => ?_⟩
  simp only [search, execute, checkQuery_of_isQuery hquery, ← classify_snd]
  rw [if_pos (hintent ▸ hnot), hintent]
  simp only [lastEvent, hintent]
  rfl

variable (hcode : AboutCode generator (Text.trim context.query) state)
include hcode

theorem search_of_error (e : StoreError) :
    ∃ m, search generator settings (.error e) context state =
      (front ++ [.failed m context.query], (classification generator (Text.trim context.query) state).2) := by
  refine ⟨(AppError.store e).message, ?_⟩
  simp only [search, execute, checkQuery_of_isQuery hquery, classify_of_aboutCode hcode, ← classify_snd, ne_eq,
    not_true_eq_false, if_false]
  rfl

variable {s : Store}

theorem search_of_eligible_nil (hnone : eligible s context = []) :
    ∃ text, search generator settings (.ok s) context state =
      (front ++ [.complete .codeSearch [] text],
        (classification generator (Text.trim context.query) state).2) := by
  unfold eligible at hnone
  refine ⟨plainSummary (Text.trim context.query) [], ?_⟩
  simp only [search, execute, checkQuery_of_isQuery hquery, classify_of_aboutCode hcode, ← classify_snd, ne_eq,
    not_true_eq_false, if_false, hnone, List.isEmpty_nil, if_true, summarizeResults, lastEvent]
  rfl

variable (hsome : eligible s context ≠ [])
include hsome

/-- From the selection on, only the patterns decide how the search ends. -/
theorem search_of_eligible :
    ∃ intent : IntentResult, intent.intent = .codeSearch ∧
      let o := searchAmong generator settings (Text.trim context.query) context.filters intent (eligible s context)
        (classification generator (Text.trim context.query) state).2
      search generator settings (.ok s) context state =
        (front ++ o.events ++ [lastEvent context.query o.response], o.state) := by
  have hne : (eligible s context).isEmpty = false := by simpa using hsome
  unfold eligible at hne
  refine ⟨_, classify_of_aboutCode hcode, ?_⟩
  simp only [search, execute, checkQuery_of_isQuery hquery, classify_of_aboutCode hcode, ← classify_snd, ne_eq,
    not_true_eq_false, if_false, hne, Bool.false_eq_true]
  rfl

theorem search_of_no_patterns {e : Failure} (h : (patternsFor generator s context state).1 = .error e) :
    ∃ m, (search generator settings (.ok s) context state).1 =
      front ++ [.progress "patterns" "Generating search patterns", .failed m context.query] := by
  obtain ⟨intent, -, hsearch⟩ := search_of_eligible settings hquery hcode hsome
  refine ⟨(AppError.patterns e).message, ?_⟩
  unfold patternsFor at h
  rcases hgen : PatternSet.generate generator _ _ context.filters _ with ⟨_ | set, after⟩ <;> rw [hgen] at h
  · cases h
    simp only [hsearch, searchAmong, hgen]
    rfl
  · cases h

/-- **Nothing after the patterns ends a search early.** -/
theorem search_of_patterns {set : PatternSet} (h : (patternsFor generator s context state).1 = .ok set) :
    ∃ announced results text, (search generator settings (.ok s) context state).1 =
      announced ++ [.complete .codeSearch results text] ∧ announced.map Event.stage? = stages.map some := by
  obtain ⟨intent, hintent, hsearch⟩ := search_of_eligible settings hquery hcode hsome
  unfold patternsFor at h
  rcases hgen : PatternSet.generate generator _ _ context.filters _ with ⟨_ | set', after⟩ <;> rw [hgen] at h
  · cases h
  · rw [hsearch]
    simp only [searchAmong, hgen, lastEvent, hintent]
    exact ⟨_, _, _, rfl, rfl⟩

end Exits

/-! ## The events of every search -/

/-- What has been asked when the classification is the last request. -/
theorem classification_logged (generator : Generator σ) (query : String) (state : σ) :
    classification (logged generator) query ([], state) =
      ((classification generator query state).1, [Intent.request query], (classification generator query state).2) :=
  generateStructured_logged generator Intent.Raw.decode (Intent.request query) ([], state)

/-- **Every search ends**, and a failure carries the query as it was given. -/
theorem search_ends (generator : Generator σ) (settings : SearchSettings) (store : Except StoreError Store)
    (context : QueryContext) (state : σ) :
    ∃ k e, Ends k e (search generator settings store context state).1 ∧
      ∀ m text, e = .failed m text → text = context.query := by
  by_cases hquery : IsQuery context.query
  case neg =>
    obtain ⟨m, h⟩ := search_of_not_isQuery settings generator state hquery
    exact ⟨0, _, ⟨rfl, [], by rw [h]; rfl, rfl⟩, by rintro _ _ ⟨⟩; rfl⟩
  by_cases hcode : AboutCode generator (Text.trim context.query) state
  case neg =>
    simp only [AboutCode, Classical.not_forall] at hcode
    obtain ⟨raw, hraw, hnot⟩ := hcode
    obtain ⟨text, -, h⟩ := search_of_raw settings hquery hraw hnot
    exact ⟨1, _, ⟨rfl, [_], by rw [h]; rfl, rfl⟩, by rintro _ _ ⟨⟩⟩
  cases store with
  | error e =>
    obtain ⟨m, h⟩ := search_of_error settings hquery hcode e
    exact ⟨2, _, ⟨rfl, front, by rw [h], rfl⟩, by rintro _ _ ⟨⟩; rfl⟩
  | ok s =>
    by_cases hsome : eligible s context = []
    · obtain ⟨text, h⟩ := search_of_eligible_nil settings hquery hcode hsome
      exact ⟨2, _, ⟨rfl, front, by rw [h], rfl⟩, by rintro _ _ ⟨⟩⟩
    cases hpatterns : (patternsFor generator s context state).1 with
    | error e =>
      obtain ⟨m, h⟩ := search_of_no_patterns settings hquery hcode hsome hpatterns
      exact ⟨3, _, ⟨rfl, front ++ [_], h, rfl⟩, by rintro _ _ ⟨⟩; rfl⟩
    | ok set =>
      obtain ⟨announced, results, text, h, hstages⟩ := search_of_patterns settings hquery hcode hsome
        hpatterns
      exact ⟨6, _, ⟨rfl, announced, h, hstages⟩, by rintro _ _ ⟨⟩⟩

/-- **The events of a search.** Whatever the generator answers and whether or not the
store can be read, a search announces stages from the first on, in order, and ends with
one last event; a failure carries the query as it was given.

* If the query is empty or too long, it fails at once. Nothing is asked, and the store
  does not matter.
* If the classifier says that the query is not about code, it completes after the first
  stage, with a text and without results. That was the one request, and the store does
  not matter.
* Otherwise, also if the classifier is not reached or not understood, it is about code.
  It fails after the second stage if the store cannot be read, and completes after it if
  no repository is left; the classification is then all that has been asked. It fails
  after the third stage if no patterns are given. Else it announces all stages and
  completes, whatever is answered later.

What is asked is noted by a generator that answers alike. -/
theorem search_stream (generator : Generator σ) (settings : SearchSettings) (store : Except StoreError Store)
    (context : QueryContext) (state : σ) :
    let events := (search generator settings store context state).1
    let noted := search (logged generator) settings store context ([], state)
    let intent := Intent.request (Text.trim context.query)
    let unread := ∀ other,
      search generator settings other context state = search generator settings store context state
    noted.1 = events ∧ events.countP (·.isLast) = 1 ∧
    (∃ k e, Ends k e events ∧ ∀ m text, e = .failed m text → text = context.query) ∧
    (¬IsQuery context.query → (∃ m, Ends 0 (.failed m context.query) events) ∧ noted.2.1 = [] ∧ unread) ∧
    (IsQuery context.query →
      (∀ raw, (classification generator (Text.trim context.query) state).1 = .ok raw → raw.intent ≠ .codeSearch →
        (∃ text ≠ "", Ends 1 (.complete raw.intent [] text) events) ∧ noted.2.1 = [intent] ∧ unread) ∧
      (AboutCode generator (Text.trim context.query) state →
        (∀ e, store = .error e → (∃ m, Ends 2 (.failed m context.query) events) ∧ noted.2.1 = [intent]) ∧
        ∀ s, store = .ok s →
          (eligible s context = [] →
            (∃ text, Ends 2 (.complete .codeSearch [] text) events) ∧ noted.2.1 = [intent]) ∧
          (eligible s context ≠ [] →
            (∀ e, (patternsFor generator s context state).1 = .error e →
              ∃ m, Ends 3 (.failed m context.query) events) ∧
            ∀ set, (patternsFor generator s context state).1 = .ok set →
              ∃ results text, Ends 6 (.complete .codeSearch results text) events))) := by
  intro events noted intent unread
  have hsame : noted.1 = events :=
    congrArg Prod.fst (search_of_follows (follows_logged generator) settings store context ([], state))
  have hends := search_ends generator settings store context state
  have hlogged : AboutCode generator (Text.trim context.query) state →
      AboutCode (logged generator) (Text.trim context.query) ([], state) := by
    intro hcode raw hraw
    rw [classification_logged] at hraw
    exact hcode raw hraw
  refine ⟨hsame, ?_, hends, fun hquery => ?_, fun hquery => ⟨fun raw hraw hnot => ?_, fun hcode => ⟨?_, ?_⟩⟩⟩
  · obtain ⟨k, e, h, -⟩ := hends
    exact h.countP_isLast
  · obtain ⟨m, h⟩ := search_of_not_isQuery settings generator state hquery
    obtain ⟨_, hnoted⟩ := search_of_not_isQuery settings (logged generator) ([], state) hquery
    exact ⟨⟨m, rfl, [], congrArg Prod.fst (h store), rfl⟩, congrArg (fun x => x.2.1) (hnoted store),
      fun other => (h other).trans (h store).symm⟩
  · have hraw' : (classification (logged generator) (Text.trim context.query) ([], state)).1 = .ok raw := by
      rwa [classification_logged]
    obtain ⟨text, htext, h⟩ := search_of_raw settings hquery hraw hnot
    obtain ⟨_, -, hnoted⟩ := search_of_raw settings hquery hraw' hnot
    refine ⟨⟨text, htext, rfl, [_], congrArg Prod.fst (h store), rfl⟩, ?_,
      fun other => (h other).trans (h store).symm⟩
    simpa only [classification_logged] using congrArg (fun x => x.2.1) (hnoted store)
  · rintro e rfl
    obtain ⟨m, h⟩ := search_of_error settings hquery hcode e
    obtain ⟨_, hnoted⟩ := search_of_error settings hquery (hlogged hcode) e
    refine ⟨⟨m, rfl, front, congrArg Prod.fst h, rfl⟩, ?_⟩
    simpa only [classification_logged] using congrArg (fun x => x.2.1) hnoted
  · rintro s rfl
    refine ⟨fun hnone => ?_, fun hsome => ⟨fun e hpatterns => ?_, fun set hpatterns => ?_⟩⟩
    · obtain ⟨text, h⟩ := search_of_eligible_nil settings hquery hcode hnone
      obtain ⟨_, hnoted⟩ := search_of_eligible_nil settings hquery (hlogged hcode) hnone
      refine ⟨⟨text, rfl, front, congrArg Prod.fst h, rfl⟩, ?_⟩
      simpa only [classification_logged] using congrArg (fun x => x.2.1) hnoted
    · obtain ⟨m, h⟩ := search_of_no_patterns settings hquery hcode hsome hpatterns
      exact ⟨m, rfl, front ++ [_], h, rfl⟩
    · obtain ⟨announced, results, text, h, hstages⟩ := search_of_patterns settings hquery hcode hsome
        hpatterns
      exact ⟨results, text, rfl, announced, h, hstages⟩

end CodeAtlas.Search
