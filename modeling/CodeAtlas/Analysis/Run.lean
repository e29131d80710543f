import CodeAtlas.Analysis.Stages
import CodeAtlas.Store.Archive

/-!
# Runs of an analysis

A run begins an analysis in the store, conducts it, and stores how it ended. If one is in progress already,
nothing is done. Every run ends with one last event.

* `beginRun`, `conclude`: the steps of a run that touch the store.
* `analyze`: a run as a whole.
-/

namespace CodeAtlas

/-- The new identifier and the times of a run. -/
structure Stamps where
  fresh : Ident
  begun : Instant
  ended : Instant
  failed : Instant
deriving Repr, DecidableEq, Inhabited

/-- What becomes of the writings of a run. -/
structure Fates where
  begin : Fate := .done
  finish : Fate := .done
  /-- The writing that records a failure. -/
  record : Fate := .done
deriving Repr, DecidableEq

/-- Whether a run goes on after its first step. -/
inductive Admission where
  | admitted (repository : Repository) (analysis : Analysis)
  /-- The run is over; this is its one event. -/
  | refused (event : AnalysisEvent)
deriving Repr

/-- Looks up a repository and begins an analysis of it. -/
def beginRun (archive : Archive) (fate : Fate) (stamps : Stamps) (id : Ident) : Admission × Archive :=
  match archive.data.repository? id with
  | none => (.refused (.failed none (AppError.notFound .repository id).message), archive)
  | some repository =>
    match archive.begin fate stamps.fresh stamps.begun id with
    | (.error e, archive) => (.refused (.failed none (AppError.store e).message), archive)
    | (.ok (.alreadyRunning a), archive) => (.refused (.inProgress a.id), archive)
    | (.ok (.started a), archive) => (.admitted repository a, archive)

/-- Stores a failure if it can be stored. -/
def recordFailure (archive : Archive) (fate : Fate) (now : Instant) (a : Analysis) (e : AppError) :
    List AnalysisEvent × Archive :=
  ([.failed (some a.id) e.message], (archive.finish fate now (a.failed now e.message)).2)

/-- Stores how an analysis ended; a result that cannot be stored is a failure. -/
def conclude (archive : Archive) (fates : Fates) (stamps : Stamps) (a : Analysis) (result : Except AppError Result) :
    List AnalysisEvent × Archive :=
  match result with
  | .error e => recordFailure archive fates.record stamps.failed a e
  | .ok r =>
    match archive.finish fates.finish stamps.ended (a.completed stamps.ended r) with
    -- the refused change has left the analysis in progress, so its failure can still be stored
    | (.error e, archive) => recordFailure archive fates.record stamps.failed a (.store e)
    | (.ok stored, archive) => ([.progress 9 "Analysis saved" false, .complete stored.id stored.status], archive)

variable {σ : Type}

/-- What a run announces, and the store and the state after it. -/
structure Run (σ : Type) where
  events : List AnalysisEvent
  archive : Archive
  state : σ

/-- A run of an analysis of a repository. -/
def analyze (host : Host σ) (generator : Generator σ) (settings : AnalysisSettings) (fates : Fates) (stamps : Stamps)
    (id : Ident) (archive : Archive) (state : σ) : Run σ :=
  match beginRun archive fates.begin stamps id with
  | (.refused event, archive) => ⟨[event], archive, state⟩
  | (.admitted repository a, archive) =>
    let c := conduct host generator settings repository.fullName state
    let (events, archive) := conclude archive fates stamps a c.result
    ⟨c.events ++ events, archive, c.state⟩

end CodeAtlas
