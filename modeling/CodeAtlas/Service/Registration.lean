import CodeAtlas.Record.Codec
import CodeAtlas.Store.Archive
import CodeAtlas.Text.Blank

/-!
# Registrations

A registration says under which full name a repository is to be known and what else is known of it. It makes a new
record, or updates the record that has the name already.

* `Registration.acceptedName?`: the full name of a registration, if it is one.
* `Registration.draft`: the record that a registration asks to be saved.
* `Registration.register`: a registration as a whole.
-/

namespace CodeAtlas

/-- What is said of a repository. -/
structure Registration where
  fullName : String
  description : Option String := none
  primaryLanguage : Option String := none
  stars : Nat := 0
  forks : Nat := 0
deriving Repr, DecidableEq, Inhabited

namespace Registration

def decode : Json.Decoder Registration :=
  (Json.Form.start Registration.mk |>.req "full_name" Decode.str |>.opt "description" Decode.str
    |>.opt "primary_language" Decode.str |>.dflt "stars" Decode.count 0
    |>.dflt "forks" Decode.count 0).decode "SaveRepositoryRequest"

/-- A name without the blanks around it and without `.git` at its end, however often. -/
def tidy (name : String) : String := Text.dropBackAll (Text.trim name) ".git"

/-- An owner and a name with the only slash between them, and no blank anywhere. -/
def isFullName (s : String) : Bool :=
  match Text.splitFirst? s "/" with
  | some (owner, name) => owner ≠ "" && name ≠ "" && !Text.contains name "/" && !s.toList.any Text.isBlank
  | none => false

/-- The full name, if the tidied name is one. -/
def acceptedName? (q : Registration) : Option String :=
  if isFullName (tidy q.fullName) then some (tidy q.fullName) else none

/-- A record with what is said of it. Description and language stay where nothing is said; the counts do not. -/
def update (q : Registration) (r : Repository) : Repository :=
  { r with
    description := q.description.or r.description
    primaryLanguage := q.primaryLanguage.or r.primaryLanguage
    stars := q.stars
    forks := q.forks }

/-- Whether a name is new to a store, and the record to be saved. -/
def draft (q : Registration) (s : Store) (fresh : Ident) (now : Instant) (fullName : String) : Bool × Repository :=
  match s.named? fullName with
  | some r => (false, q.update r)
  | none => (true, q.update (Repository.register fresh now fullName))

/-- What a registration came to. -/
inductive Outcome where
  | refused
  | failed (error : StoreError)
  | saved (isNew : Bool) (repository : Repository)
deriving Repr, DecidableEq

/-- Looks up the name and saves the record. -/
def register (q : Registration) (archive : Archive) (fate : Fate) (fresh : Ident) (now : Instant) :
    Outcome × Archive :=
  match q.acceptedName? with
  | none => (.refused, archive)
  | some fullName =>
    let (isNew, r) := q.draft archive.data fresh now fullName
    match archive.saveRepository fate r with
    | (.error e, archive) => (.failed e, archive)
    | (.ok r, archive) => (.saved isNew r, archive)

end Registration

end CodeAtlas
