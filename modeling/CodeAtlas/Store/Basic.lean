import CodeAtlas.Record.Codec
import CodeAtlas.Text.Lower

/-!
# The store of records

Repositories and analyses in the order in which they came. A repository has at most one analysis in progress:
whether there is one is looked up and a new one begun in a single step. An analysis that has ended stays as it is.

* `Store.saveRepository`, `Store.begin`, `Store.finish`: the changes.
* `Store.latest?`, `Store.latestCompleted`: the questions about the latest analyses.
* `StoreError.message`: why a change is refused.
-/

namespace CodeAtlas

structure Store where
  repositories : List Repository := []
  analyses : List Analysis := []
deriving Repr, Inhabited

/-- What a store may not find. -/
inductive Entity where
  | repository
  | analysis
deriving Repr, DecidableEq

def Entity.text : Entity → String
  | .repository => "repository"
  | .analysis => "analysis"

/-- Why a store refuses. -/
inductive StoreError where
  | io (message : String)
  | serialization (message : String)
  /-- The stored analysis has ended. -/
  | terminal (id : Ident)
  /-- The analysis to be stored has not ended. -/
  | notTerminal (id : Ident)
  | missing (entity : Entity) (id : Ident)
deriving Repr, DecidableEq

def StoreError.message : StoreError → String
  | .io m => "io error: " ++ m
  | .serialization m => "serialization error: " ++ m
  | .terminal id => "analysis " ++ id.text ++ " is already terminal"
  | .notTerminal id => "analysis " ++ id.text ++ " is still in progress"
  | .missing e id => e.text ++ " not found: " ++ id.text

/-- What became of the wish to begin an analysis. -/
inductive Start where
  | started (analysis : Analysis)
  | alreadyRunning (analysis : Analysis)
deriving Repr

def Start.encode : Start → Json
  | .started a => .obj [("started", a.encode)]
  | .alreadyRunning a => .obj [("already_running", a.encode)]

variable {α : Type}

/-- Changes the first member for which something holds. -/
def updateFirst (p : α → Bool) (f : α → α) : List α → List α
  | [] => []
  | a :: l => if p a then f a :: l else a :: updateFirst p f l

/-- The last of the members that no other one comes after. -/
def lastMax? (le : α → α → Bool) : List α → Option α
  | [] => none
  | a :: l => some (l.foldl (fun best b => if le best b then b else best) a)

namespace Store

/-! ## Questions -/

def repository? (s : Store) (id : Ident) : Option Repository := s.repositories.find? (·.id == id)

/-- The first repository of a name, whatever the case of the letters `A` to `Z`. -/
def named? (s : Store) (fullName : String) : Option Repository :=
  s.repositories.find? fun r => Text.equalIgnoringAsciiCase r.fullName fullName

def analysis? (s : Store) (id : Ident) : Option Analysis := s.analyses.find? (·.id == id)

/-- The analysis of a repository that is in progress. -/
def running? (s : Store) (repository : Ident) : Option Analysis :=
  s.analyses.find? fun a => a.repository == repository && !a.isTerminal

/-- The analysis of a repository that was started last, whatever became of it. -/
def latest? (s : Store) (repository : Ident) : Option Analysis :=
  lastMax? (fun a b => a.startedAt.le b.startedAt) (s.analyses.filter (·.repository == repository))

/-- Whether an analysis ended at or before another; one without a time comes first. -/
def endsBefore (a b : Analysis) : Bool :=
  match a.completedAt, b.completedAt with
  | none, _ => true
  | some _, none => false
  | some x, some y => x.le y

/-- The analysis of a repository that was completed last. -/
def latestCompletedOf? (s : Store) (repository : Ident) : Option Analysis :=
  lastMax? endsBefore (s.analyses.filter fun a => a.repository == repository && a.status = .completed)

/-- Repositories with their latest completed analyses; without a list of repositories, of all of them. -/
def latestCompleted (s : Store) (ids : Option (List Ident)) : List (Repository × Analysis) :=
  (s.repositories.filter fun r => (ids.map (·.contains r.id)).getD true).filterMap fun r =>
    (s.latestCompletedOf? r.id).map (r, ·)

/-! ## Changes -/

/-- Puts a repository in the place of the one with its identifier, or at the end. -/
def saveRepository (s : Store) (r : Repository) : Store :=
  if s.repositories.any (·.id == r.id) then
    { s with repositories := updateFirst (·.id == r.id) (fun _ => r) s.repositories }
  else { s with repositories := s.repositories ++ [r] }

/-- Begins an analysis under a new identifier unless one is in progress. -/
def begin (s : Store) (fresh : Ident) (now : Instant) (repository : Ident) : Except StoreError (Start × Store) :=
  if s.repositories.any (·.id == repository) then
    match s.running? repository with
    | some a => .ok (.alreadyRunning a, s)
    | none =>
      let a := Analysis.begun fresh repository now
      .ok (.started a, { s with analyses := s.analyses ++ [a] })
  else .error (.missing .repository repository)

/-- Notes the time of an analysis with its repository. -/
def stamp (s : Store) (repository : Ident) (time : Instant) : Store :=
  { s with repositories :=
      updateFirst (·.id == repository) (fun r => { r with lastAnalyzedAt := some time }) s.repositories }

/-- Ends an analysis: the record takes the place of the stored one, which must not have ended. -/
def finish (s : Store) (now : Instant) (a : Analysis) : Except StoreError (Analysis × Store) :=
  if a.isTerminal then
    match s.analysis? a.id with
    | none => .error (.missing .analysis a.id)
    | some stored =>
      if stored.isTerminal then .error (.terminal a.id)
      else
        let s := { s with analyses := updateFirst (·.id == a.id) (fun _ => a) s.analyses }
        .ok (a, if a.status = .completed then s.stamp a.repository (a.completedAt.getD now) else s)
  else .error (.notTerminal a.id)

/-- What is said of an analysis that nobody is working on any more. -/
def interruption : String := "interrupted: the server stopped before the analysis finished"

/-- Ends every analysis in progress as failed. -/
def recover (s : Store) (now : Instant) : Store :=
  { s with analyses := s.analyses.map fun a => if a.isTerminal then a else a.failed now interruption }

/-! ## Written form -/

def encode (s : Store) : Json :=
  .obj [("repositories", .arr (s.repositories.map Repository.encode)),
    ("analyses", .arr (s.analyses.map Analysis.encode))]

def decode : Json.Decoder Store :=
  (Json.Form.start Store.mk |>.req "repositories" (Decode.list Repository.decode)
    |>.req "analyses" (Decode.list Analysis.decode)).decode "StoreData"

end Store

end CodeAtlas
