import CodeAtlas.Outline.Artifact
import CodeAtlas.Record.Basic

/-!
# Matches

What is found in files, and what it is worth.

* `Match`: an element of a file that fits a query.
* `FileMatches`: the matches of one file.
-/

namespace CodeAtlas.Search

inductive MatchKind where
  | function
  | classType
  | interface
  | variable
  | imported
  | comment
  | general
deriving Repr, DecidableEq, Inhabited

structure Match where
  kind : MatchKind
  name : String
  snippet : String
  lineStart : Nat
  lineEnd : Nat
  /-- At most 100. -/
  score : Nat
  explanation : String
deriving Repr, DecidableEq, Inhabited

structure RepositoryRef where
  id : Ident
  fullName : String
deriving Repr, DecidableEq, Inhabited

structure FileRef where
  path : String
  language : String
deriving Repr, DecidableEq, Inhabited

/-- The matches of one file, the best first. -/
structure FileMatches where
  repository : RepositoryRef
  file : FileRef
  matched : List Match
  /-- One line about the repository. -/
  context : String
deriving Repr, DecidableEq, Inhabited

/-- A file with its place in the ranking. -/
structure SearchResult where
  repository : RepositoryRef
  file : FileRef
  matched : List Match
  score : Float
  explanation : Option String
deriving Repr, Inhabited

/-! ## Written form -/

open Json

def MatchKind.label : MatchKind → String
  | .function => "function"
  | .classType => "class"
  | .interface => "interface"
  | .variable => "variable"
  | .imported => "import"
  | .comment => "comment"
  | .general => "general"

/-- The name of a kind in a sentence. -/
def MatchKind.title : MatchKind → String
  | .function => "Function"
  | .classType => "Class"
  | .interface => "Interface"
  | .variable => "Variable"
  | .imported => "Import"
  | .comment => "Comment"
  | .general => "General"

def MatchKind.all : List MatchKind := [.function, .classType, .interface, .variable, .imported, .comment, .general]

def MatchKind.decode : Decoder MatchKind := Decode.label (MatchKind.all.map fun k => (k.label, k))

def Match.encode (m : Match) : Json :=
  .obj [("type", .str m.kind.label), ("name", .str m.name), ("snippet", .str m.snippet),
    ("line_start", .nat m.lineStart), ("line_end", .nat m.lineEnd), ("score", .nat m.score),
    ("explanation", .str m.explanation)]

def Match.decode : Decoder Match :=
  (Form.start Match.mk |>.req "type" MatchKind.decode |>.req "name" Decode.str |>.req "snippet" Decode.str
    |>.req "line_start" Decode.size |>.req "line_end" Decode.size |>.req "score" (Decode.natOfBits 32 "u32")
    |>.req "explanation" Decode.str).decode "Match"

def RepositoryRef.encode (r : RepositoryRef) : Json := .obj [("id", r.id.encode), ("full_name", .str r.fullName)]

def RepositoryRef.decode : Decoder RepositoryRef :=
  (Form.start RepositoryRef.mk |>.req "id" Ident.decode |>.req "full_name" Decode.str).decode "RepositoryRef"

def FileRef.encode (f : FileRef) : Json := .obj [("path", .str f.path), ("language", .str f.language)]

def FileRef.decode : Decoder FileRef :=
  (Form.start FileRef.mk |>.req "path" Decode.str |>.req "language" Decode.str).decode "FileRef"

def FileMatches.encode (f : FileMatches) : Json :=
  .obj [("repository", f.repository.encode), ("file", f.file.encode), ("matches", .arr (f.matched.map Match.encode)),
    ("context", .str f.context)]

def FileMatches.decode : Decoder FileMatches :=
  (Form.start FileMatches.mk |>.req "repository" RepositoryRef.decode |>.req "file" FileRef.decode
    |>.dflt "matches" (Decode.list Match.decode) [] |>.dflt "context" Decode.str "").decode "FileMatches"

def SearchResult.encode (r : SearchResult) : Json :=
  .obj [("repository", r.repository.encode), ("file", r.file.encode), ("matches", .arr (r.matched.map Match.encode)),
    ("overall_score", .float r.score), ("explanation", .ofOption .str r.explanation)]

end CodeAtlas.Search
