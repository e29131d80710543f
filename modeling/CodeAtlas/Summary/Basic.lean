import CodeAtlas.Generation.Reply
import CodeAtlas.Host.Basic
import CodeAtlas.Text.Blank
import CodeAtlas.Text.Lower

/-!
# Summaries made by a generator

A summary is a value with the reason why it is only a default, if it is one. What a generator is told about a
repository is made of the same sections for all of them.

* `Summary`: a value and the failure that it stands in for.
* `structuredOr`: a value asked for, or its default.
* `Snapshot.fileDigest` and its siblings: sections of prompts.
* `cleanList`: trimmed texts, each at its first place.
-/

namespace CodeAtlas

/-- A value, and why it is a default if it is one. -/
structure Summary (α : Type) where
  value : α
  error : Option String := none
deriving Repr

def Summary.isDegraded {α : Type} (s : Summary α) : Bool := s.error.isSome

def Summary.encode {α : Type} (f : α → Json) (s : Summary α) : Json :=
  .obj [("value", f s.value), ("error", .ofOption .str s.error), ("degraded", .bool s.isDegraded)]

variable {α σ : Type}

/-- Asks for a value and checks it; the default stands in for every failure. -/
def structuredOr (generator : Generator σ) (decode : Json.Decoder α) (validate : α → Except String α)
    (fallback : α) (request : Request) (state : σ) : Summary α × σ :=
  match generateStructured generator decode request state with
  | (.error e, state) => ({ value := fallback, error := some e.message }, state)
  | (.ok a, state) =>
    match validate a with
    | .ok a => ({ value := a }, state)
    | .error reason => ({ value := fallback, error := some (Failure.invalidResponse reason).message }, state)

/-- Trimmed texts that are not empty and differ from the earlier ones in more than case; `seen` holds those in
lower case. -/
def cleanFrom (seen : List String) : List String → List String
  | [] => []
  | s :: rest =>
    let t := Text.trim s
    if t = "" || seen.contains (Text.lower t) then cleanFrom seen rest
    else t :: cleanFrom (Text.lower t :: seen) rest

/-- Trimmed texts without empty ones, each at its first place and in its first spelling. -/
def cleanList (l : List String) : List String := cleanFrom [] l

namespace Snapshot

/-- Languages by bytes of code, most first; the names decide between equal numbers. -/
def rankedLanguages (s : Snapshot) : List String :=
  (s.languageStats.mergeSort fun a b => b.2 < a.2 || (a.2 = b.2 && a.1 ≤ b.1)).map (·.1)

/-- The number of files whose text is shown. -/
def shownFiles : Nat := 25

/-- The number of characters shown of a file. -/
def shownFileChars : Nat := 1500

/-- The number of characters shown of a readme. -/
def shownReadmeChars : Nat := 4000

/-- A file with the front of its text between fences. -/
def fileSection (f : SourceFile) : String :=
  "### " ++ f.path ++ "\n\x60\x60\x60\n" ++ sanitize (Text.truncate shownFileChars f.content) ++ "\n\x60\x60\x60\n\n"

/-- The first files with their texts, and the paths of the others. -/
def fileDigest (s : Snapshot) : String :=
  let others := s.files.drop shownFiles
  String.join ((s.files.take shownFiles).map fileSection) ++
    (if others.isEmpty then ""
     else "Other files:\n" ++ String.join (others.map fun f => "- " ++ f.path ++ "\n"))

/-- The readme, if it is not blank. -/
def readmeSection (s : Snapshot) : String :=
  match s.readme with
  | some readme =>
    if Text.isAllBlank readme then ""
    else "README:\n" ++ sanitize (Text.truncate shownReadmeChars readme) ++ "\n\n"
  | none => ""

def languageSection (s : Snapshot) : String :=
  if s.languageStats.isEmpty then ""
  else
    let listed := s.rankedLanguages.map fun l =>
      l ++ " (" ++ toString (((s.languageStats.find? (·.1 == l)).map (·.2)).getD 0) ++ " bytes)"
    "Language statistics: " ++ ", ".intercalate listed ++ "\n\n"

end Snapshot

namespace Schema

/-- The schema of a text. -/
def text : Json := .obj [("type", .str "string")]

/-- The schema of a list. -/
def list (item : Json) : Json := .obj [("type", .str "array"), ("items", item)]

/-- The schema of an object. -/
def object (properties : List (String × Json)) (required : List String) : Json :=
  .obj [("type", .str "object"), ("properties", .obj properties), ("required", .strings required)]

/-- A number from 0 to 100. -/
def percentage : Json := .obj [("type", .str "number"), ("minimum", .nat 0), ("maximum", .nat 100)]

end Schema

/-- What a generator is told before it analyzes a repository. -/
def analystInstruction : Message :=
  .system "You analyze source code repositories. Respond with ONLY a JSON object matching the requested schema."

end CodeAtlas
