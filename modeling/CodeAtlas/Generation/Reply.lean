import CodeAtlas.Generation.Basic
import CodeAtlas.Text.Find
import CodeAtlas.Text.Lines

/-!
# Replies and prompts

JSON in a reply may stand in prose or between code fences. Text from repositories may hold marks that separate
the turns of a conversation; they are taken out before it goes into a prompt.

* `extractJson`: the JSON in a text.
* `parseStructured`, `generateStructured`: replies as typed values.
* `sanitize`: text without control tokens.
-/

namespace CodeAtlas

/-- The text up to the last occurrence of a character, that character included. -/
def upToLast? (close : Char) (s : List Char) : Option (List Char) :=
  match s.reverse.dropWhile (· ≠ close) with
  | [] => none
  | r => some r.reverse

/-- From the first opening brace or bracket to the last closing one of its kind. -/
def jsonPart? (s : List Char) : Option (List Char) :=
  match s.dropWhile fun c => c ≠ '{' && c ≠ '[' with
  | [] => none
  | c :: r => upToLast? (if c = '{' then '}' else ']') (c :: r)

/-- From the first opening brace or bracket to the last closing one of its kind. -/
def extractJson (text : String) : Option String := (jsonPart? text.toList).map String.ofList

variable {α σ : Type}

/-- The number of characters of a reply that an error shows. -/
def shownChars : Nat := 200

/-- Reads a reply as a value of a type. -/
def parseStructured (decode : Json.Decoder α) (text : String) : Except Failure α :=
  match extractJson text with
  | none => .error (.invalidResponse ("no JSON value in response: " ++ Text.truncate shownChars text))
  | some json =>
    match Json.decodeText decode json with
    | .ok a => .ok a
    | .error p => .error (.invalidResponse ("schema mismatch: " ++ p.message))

/-- Asks for a value of a type. -/
def generateStructured (generator : Generator σ) (decode : Json.Decoder α) (request : Request) (state : σ) :
    Except Failure α × σ :=
  match generator request state with
  | (.error e, state) => (.error e, state)
  | (.ok text, state) => (parseStructured decode text, state)

/-- Marks that separate the turns of a conversation. -/
def controlTokens : List String := ["<|im_start|>", "<|im_end|>", "<|endoftext|>"]

/-- Takes out the control tokens, one kind after the other. -/
def sanitize (text : String) : String := controlTokens.foldl (fun s token => Text.replace s token "") text

end CodeAtlas
