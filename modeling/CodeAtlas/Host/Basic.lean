import CodeAtlas.Json.Decode

/-!
# Hosts of repositories

A host answers four questions about a repository: which files it has, what they contain, what its readme says,
and how much of each language there is. An answer may be an error, and a host has a state of its own.

* `Host`: the questions.
* `HostError.message`: the wording of the errors.
* `Snapshot`: what has been fetched of a repository.
-/

namespace CodeAtlas

inductive EntryKind where
  | blob
  | tree
  | commit
deriving Repr, DecidableEq, Inhabited

/-- An entry of the file tree of a repository. -/
structure Entry where
  path : String
  kind : EntryKind
  size : Option Nat := none
deriving Repr, DecidableEq, Inhabited

/-- A file with its text. -/
structure SourceFile where
  path : String
  content : String
deriving Repr, DecidableEq, Inhabited

/-- What has been fetched of a repository. -/
structure Snapshot where
  fullName : String := ""
  files : List SourceFile := []
  readme : Option String := none
  /-- Bytes of code by language, in order of the names. -/
  languageStats : List (String × Nat) := []
deriving Repr, DecidableEq, Inhabited

/-- Why a host does not answer. -/
inductive HostError where
  | request (url message : String)
  | status (url : String) (code : Nat)
  | decode (url message : String)
deriving Repr, DecidableEq

def HostError.message : HostError → String
  | .request url m => "request to " ++ url ++ " failed: " ++ m
  | .status url code => url ++ " returned " ++ toString code
  | .decode url m => "malformed response from " ++ url ++ ": " ++ m

/-- A host with states in `σ`. Questions are about a full name; contents may be missing path by path. A question
and its answer are one step. -/
structure Host (σ : Type) where
  tree : String → σ → Except HostError (List Entry) × σ
  contents : String → List String → σ → Except HostError (List (String × Option String)) × σ
  readme : String → σ → Except HostError (Option String) × σ
  languages : String → σ → Except HostError (List (String × Nat)) × σ
  /-- Waits for a number of milliseconds. -/
  pause : Nat → σ → σ
  /-- Whether the languages are answered before the readme, where both are awaited together. -/
  languagesFirst : String → σ → Bool := fun _ _ => false

/-! ## Written form -/

def EntryKind.label : EntryKind → String
  | .blob => "blob"
  | .tree => "tree"
  | .commit => "commit"

def EntryKind.all : List EntryKind := [.blob, .tree, .commit]

def EntryKind.decode : Json.Decoder EntryKind := Decode.label (EntryKind.all.map fun k => (k.label, k))

def Entry.encode (e : Entry) : Json :=
  .obj [("path", .str e.path), ("type", .str e.kind.label), ("size", .ofOption .nat e.size)]

def Entry.decode : Json.Decoder Entry :=
  (Json.Form.start Entry.mk |>.req "path" Decode.str |>.req "type" EntryKind.decode
    |>.opt "size" (Decode.natOfBits 64 "u64")).decode "TreeEntry"

end CodeAtlas
