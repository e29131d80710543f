import CodeAtlas.Ident
import CodeAtlas.Instant
import CodeAtlas.Outline.Artifact
import CodeAtlas.Profile.Basic
import CodeAtlas.Text.Find

/-!
# Records

A repository is registered under its full name. Each analysis of it is a record of its own that begins in
progress and ends completed, with a result, or failed, with a message.

* `Analysis.begun`, `Analysis.completed`, `Analysis.failed`: the life of an analysis.
* `Repository.register`: a new repository.
-/

namespace CodeAtlas

structure Repository where
  id : Ident
  /-- Owner and name, with a slash between them. -/
  fullName : String
  owner : String
  description : Option String := none
  primaryLanguage : Option String := none
  stars : Nat := 0
  forks : Nat := 0
  createdAt : Instant
  lastAnalyzedAt : Option Instant := none
deriving Repr, DecidableEq, Inhabited

namespace Repository

/-- What stands before the first slash of a full name. -/
def ownerOf (fullName : String) : String := (Text.split fullName "/").headD ""

/-- A repository that nothing but its name is known of. -/
def register (id : Ident) (now : Instant) (fullName : String) : Repository :=
  { id, fullName, owner := ownerOf fullName, createdAt := now }

/-- What follows the first slash of the full name, or the whole of it. -/
def name (r : Repository) : String := ((Text.splitFirst? r.fullName "/").map (·.2)).getD r.fullName

end Repository

inductive Status where
  | inProgress
  | completed
  | failed
deriving Repr, DecidableEq, Inhabited

/-- What an analysis that completes has found. -/
structure Result where
  features : FeatureSet := {}
  layout : Structure := {}
  techStack : TechStack := {}
  artifacts : List Outline.Artifact := []
  metrics : Metrics := {}
  index : Index := {}
  summary : String := ""
  complexity : Complexity := .low
  /-- The stages whose own answer failed. -/
  degradedStages : List String := []
deriving Repr, Inhabited

structure Analysis where
  id : Ident
  repository : Ident
  status : Status
  startedAt : Instant
  completedAt : Option Instant := none
  errorMessage : Option String := none
  result : Option Result := none
deriving Repr, Inhabited

namespace Analysis

/-- An analysis that has just begun. -/
def begun (id repository : Ident) (now : Instant) : Analysis :=
  { id, repository, status := .inProgress, startedAt := now }

def isTerminal (a : Analysis) : Bool := a.status ≠ .inProgress

def completed (a : Analysis) (now : Instant) (result : Result) : Analysis :=
  { a with status := .completed, completedAt := some now, result := some result }

def failed (a : Analysis) (now : Instant) (message : String) : Analysis :=
  { a with status := .failed, completedAt := some now, errorMessage := some message }

end Analysis

end CodeAtlas
