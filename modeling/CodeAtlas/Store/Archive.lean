import CodeAtlas.Store.Basic

/-!
# Stores in files

A store may be kept in a file. A change is made to a copy of the store, the copy is written, and only then does
it take the place of the store. A file is written by way of a draft that takes its place in one step, so the file
holds either the old text or the new one.

* `Archive.mutate`: a change, with what becomes of the writing.
* `Archive.load`: the store of a file.
-/

namespace CodeAtlas

/-- What becomes of a writing. -/
inductive Fate where
  | done
  /-- The draft cannot be written. -/
  | draftRefused (message : String)
  /-- The draft cannot take the place of the file. -/
  | moveRefused (message : String)
deriving Repr, DecidableEq

/-- Where a store is kept: nowhere else, or in a file, which may not exist yet. -/
inductive Keeping where
  | memory
  | file (text : Option String)
deriving Repr, DecidableEq

/-- A store and where it is kept. -/
structure Archive where
  data : Store := {}
  keeping : Keeping := .memory
deriving Repr

namespace Archive

/-- The text of the file of a store. -/
def textOf (s : Store) : String := s.encode.pretty

/-- Writes a store to where it is kept. -/
def persist (fate : Fate) (keeping : Keeping) (s : Store) : Except StoreError Keeping :=
  match keeping, fate with
  | .memory, _ => .ok .memory
  | .file _, .done => .ok (.file (some (textOf s)))
  | .file _, .draftRefused m => .error (.io m)
  | .file _, .moveRefused m => .error (.io m)

variable {α : Type}

/-- Makes a change. If it is refused or cannot be written, nothing is changed. -/
def mutate (a : Archive) (fate : Fate) (change : Store → Except StoreError (α × Store)) :
    Except StoreError α × Archive :=
  match change a.data with
  | .error e => (.error e, a)
  | .ok (out, next) =>
    match persist fate a.keeping next with
    | .error e => (.error e, a)
    | .ok keeping => (.ok out, ⟨next, keeping⟩)

def saveRepository (a : Archive) (fate : Fate) (r : Repository) : Except StoreError Repository × Archive :=
  a.mutate fate fun s => .ok (r, s.saveRepository r)

def begin (a : Archive) (fate : Fate) (fresh : Ident) (now : Instant) (repository : Ident) :
    Except StoreError Start × Archive :=
  a.mutate fate fun s => s.begin fresh now repository

def finish (a : Archive) (fate : Fate) (now : Instant) (analysis : Analysis) :
    Except StoreError Analysis × Archive :=
  a.mutate fate fun s => s.finish now analysis

/-- The store of a file with some text, or of a file that does not exist. Analyses in progress are ended, and the
file is written if there were any. -/
def load (now : Instant) (fate : Fate) (text : Option String) : Except StoreError Archive :=
  match text with
  | none => .ok ⟨{}, .file none⟩
  | some t =>
    match Json.decodeText Store.decode t with
    | .error p => .error (.serialization p.message)
    | .ok s =>
      if s.analyses.all (·.isTerminal) then .ok ⟨s, .file (some t)⟩
      else
        let s := s.recover now
        (persist fate (.file (some t)) s).map fun keeping => ⟨s, keeping⟩

end Archive

end CodeAtlas
