import CodeAtlas.Analysis.Run
import CodeAtlas.Service.Answer
import CodeAtlas.Service.Registration

/-!
# The service

What can be asked of the service from outside: to register, list and show repositories, to show and run analyses,
and to search. Whatever is wrong before an analysis or a search begins is answered with a status of its own; after
that, every outcome is an event.

* `Service.list`, `Service.repository`, `Service.latest`: questions to the store.
* `Service.register`, `Service.analyze`, `Service.search`: what changes or asks more than the store.
-/

namespace CodeAtlas.Service

/-- What is said of an identifier that no repository has. -/
def unknownRepository (id : Ident) : String := "repository not found: " ++ id.text

/-- What is said of a repository without analyses. -/
def unanalyzed (id : Ident) : String := "no analysis for repository " ++ id.text

/-- What is said of a name that is no full name. -/
def malformedName : String := "full_name must look like owner/name"

/-- All repositories, in order of their full names. -/
def list (s : Store) : Answer :=
  .found (.arr ((s.repositories.mergeSort fun a b => a.fullName ≤ b.fullName).map Repository.encode))

def repository (s : Store) (id : Ident) : Answer :=
  match s.repository? id with
  | some r => .found r.encode
  | none => .notFound (unknownRepository id)

/-- The latest analysis of a repository, whatever its status. -/
def latest (s : Store) (id : Ident) : Answer :=
  match s.latest? id with
  | some a => .found a.encode
  | none => .notFound (unanalyzed id)

def register (archive : Archive) (fate : Fate) (fresh : Ident) (now : Instant) (q : Registration) :
    Answer × Archive :=
  match q.register archive fate fresh now with
  | (.refused, archive) => (.badRequest malformedName, archive)
  | (.failed e, archive) => (.internalError e.message, archive)
  | (.saved isNew r, archive) => (if isNew then .created r.encode else .found r.encode, archive)

variable {σ : Type}

/-- Runs an analysis of a repository that is known. -/
def analyze (host : Host σ) (generator : Generator σ) (settings : AnalysisSettings) (fates : Fates) (stamps : Stamps)
    (id : Ident) (archive : Archive) (state : σ) : Answer × Archive × σ :=
  match archive.data.repository? id with
  | none => (.notFound (unknownRepository id), archive, state)
  | some r =>
    let run := CodeAtlas.analyze host generator settings fates stamps r.id archive state
    (.ofAnalysis run.events, run.archive, run.state)

/-- Searches for a query that can be searched for. -/
def search (generator : Generator σ) (settings : SearchSettings) (s : Store) (context : Search.QueryContext)
    (state : σ) : Answer × σ :=
  if Text.isAllBlank context.query then (.badRequest "Query is required", state)
  else
    match Search.checkQuery context.query with
    | .error e => (.badRequest (AppError.invalidInput e.message).message, state)
    | .ok _ =>
      let (events, state) := Search.search generator settings (.ok s) context state
      (.ofSearch events, state)

end CodeAtlas.Service
