import CodeAtlas.Analysis.Stages
import CodeAtlas.Search.Engine

/-!
# Answers of the service

An answer has a status and a body: a JSON value, a plain text, or a stream of named events.

* `Answer.ofAnalysis`, `Answer.ofSearch`: streams.
-/

namespace CodeAtlas

inductive Body where
  | value (j : Json)
  | text (s : String)
  /-- Names of events with the compact text of what they carry. -/
  | stream (events : List (String × String))
deriving Inhabited

structure Answer where
  status : Nat
  body : Body
deriving Inhabited

namespace Answer

def found (j : Json) : Answer := ⟨200, .value j⟩

def created (j : Json) : Answer := ⟨201, .value j⟩

def badRequest (message : String) : Answer := ⟨400, .text message⟩

def notFound (message : String) : Answer := ⟨404, .text message⟩

def internalError (message : String) : Answer := ⟨500, .text message⟩

def ofAnalysis (events : List AnalysisEvent) : Answer :=
  ⟨200, .stream (events.map fun e => (e.name, e.encode.compact))⟩

def ofSearch (events : List Search.Event) : Answer :=
  ⟨200, .stream (events.map fun e => (e.name, e.encode.compact))⟩

/-- An answer as a JSON value. -/
def encode (a : Answer) : Json :=
  let status := ("status", Json.nat a.status)
  match a.body with
  | .value j => .obj [status, ("body", j)]
  | .text s => .obj [status, ("body", .str s)]
  | .stream events =>
    .obj [status, ("content_type", .str "text/event-stream"),
      ("events", .arr (events.map fun e => .arr [.str e.1, .str e.2]))]

end Answer

end CodeAtlas
