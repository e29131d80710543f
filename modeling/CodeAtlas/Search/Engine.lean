import CodeAtlas.AppError
import CodeAtlas.Search.Intent
import CodeAtlas.Search.Patterns
import CodeAtlas.Search.Rank
import CodeAtlas.Search.Score

/-!
# Searches

A query is classified; if it is about code, the repositories that pass its filters are searched for patterns, and
the files that match are ranked and summed up. Each stage is announced, and one last event ends the search.

* `execute`: a search with what it announces.
* `search`: the events of a search.
* `passesFilters`: the filters of a query.
-/

namespace CodeAtlas.Search

inductive Event where
  | progress (stage message : String)
  | complete (intent : Intent) (results : List SearchResult) (summary : String)
  | failed (error query : String)
deriving Repr

def Event.name : Event → String
  | .progress .. => "progress"
  | .complete .. => "complete"
  | .failed .. => "failed"

def Event.encode : Event → Json
  | .progress stage message =>
    .obj [("type", .str "progress"), ("stage", .str stage), ("message", .str message)]
  | .complete intent results summary =>
    .obj [("type", .str "complete"), ("intent", .str intent.label),
      ("results", .arr (results.map SearchResult.encode)), ("summary", .str summary)]
  | .failed error query => .obj [("type", .str "failed"), ("error", .str error), ("query", .str query)]

/-- The answer of a search. -/
structure Response where
  intent : IntentResult
  results : List SearchResult
  summary : String
deriving Repr

/-! ## Candidates -/

def mentions (l : List String) (word : String) : Bool := l.any (Text.equalIgnoringAsciiCase · word)

/-- Every filter that is not empty has to hold; one of its values is enough. -/
def passesFilters (r : Repository) (a : Analysis) (f : Filters) : Bool :=
  match a.result with
  | none => false
  | some result =>
    (f.languages.isEmpty || f.languages.any fun l =>
      r.primaryLanguage.any (Text.equalIgnoringAsciiCase · l) || mentions result.techStack.languages l) &&
    (f.frameworks.isEmpty || f.frameworks.any (mentions result.techStack.frameworks ·)) &&
    (match f.complexity with
      | some c => result.complexity = c
      | none => true)

/-- The languages and frameworks of some repositories, in order. -/
def hintsOf (pairs : List (Repository × Analysis)) : Hints :=
  { languages := Sorted.ofList (pairs.flatMap fun p =>
      p.1.primaryLanguage.toList ++ (p.2.result.map (·.techStack.languages)).getD [])
    frameworks := Sorted.ofList (pairs.flatMap fun p => (p.2.result.map (·.techStack.frameworks)).getD []) }

/-! ## Stages -/

/-- What a search announces, what it comes to, and the generator's state after it. -/
structure Outcome (σ : Type) where
  events : List Event
  response : Except AppError Response
  state : σ

variable {σ : Type}

/-- The stages from the patterns on. -/
def searchAmong (generator : Generator σ) (settings : SearchSettings) (query : String) (filters : Filters)
    (intent : IntentResult) (pairs : List (Repository × Analysis)) (state : σ) : Outcome σ :=
  let patterns : Event := .progress "patterns" "Generating search patterns"
  match PatternSet.generate generator query (hintsOf pairs) filters state with
  | (.error e, state) => ⟨[patterns], .error (.patterns e), state⟩
  | (.ok set, state) =>
    let files := matchAll (Needles.prepare query set) pairs
    let (results, state) := rank generator settings query files state
    let (summary, state) := summarizeResults generator query results state
    ⟨[patterns,
      .progress "matching" ("Scanning " ++ toString pairs.length ++ " repositories"),
      .progress "ranking" ("Ranking " ++ toString files.length ++ " files"),
      .progress "summary" "Summarizing results"],
     .ok ⟨intent, results, summary⟩, state⟩

/-- A search in a store, or without one that can be read. -/
def execute (generator : Generator σ) (settings : SearchSettings) (store : Except StoreError Store)
    (context : QueryContext) (state : σ) : Outcome σ :=
  match checkQuery context.query with
  | .error e => ⟨[], .error (.invalidInput e.message), state⟩
  | .ok query =>
    let first : Event := .progress "intent" "Classifying query"
    let (intent, state) := Intent.classify generator query state
    if intent.intent ≠ .codeSearch then
      -- answered without a look at the store
      ⟨[first], .ok ⟨intent, [], intent.suggestedResponse.getD (Intent.cannedReply intent.intent)⟩, state⟩
    else
      let second : Event := .progress "candidates" "Selecting analyzed repositories"
      match store with
      | .error e => ⟨[first, second], .error (.store e), state⟩
      | .ok s =>
        let pairs := (s.latestCompleted context.repositories).filter fun p => passesFilters p.1 p.2 context.filters
        if pairs.isEmpty then
          -- nothing to look in, so no patterns are asked for
          let (summary, state) := summarizeResults generator query [] state
          ⟨[first, second], .ok ⟨intent, [], summary⟩, state⟩
        else
          let o := searchAmong generator settings query context.filters intent pairs state
          { o with events := first :: second :: o.events }

/-- The event that ends a search. -/
def lastEvent (query : String) : Except AppError Response → Event
  | .ok r => .complete r.intent.intent r.results r.summary
  | .error e => .failed e.message query

/-- The events of a search. -/
def search (generator : Generator σ) (settings : SearchSettings) (store : Except StoreError Store)
    (context : QueryContext) (state : σ) : List Event × σ :=
  let o := execute generator settings store context state
  (o.events ++ [lastEvent context.query o.response], o.state)

end CodeAtlas.Search
