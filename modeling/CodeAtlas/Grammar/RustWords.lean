import CodeAtlas.Grammar.Reader
import CodeAtlas.Text.Blank
import CodeAtlas.Text.Find
import CodeAtlas.Text.Name

/-!
# Words and marks of Rust

Comments, names, numbers and text literals, and the readers for fixed words and marks. Line comments that
document something run to the start of the next line; other line comments end before it.
-/

namespace CodeAtlas.Grammar.Rust

open SyntaxTree Reader

/-- Passes the inside of a block comment, which may hold block comments. -/
def blockCommentRest : Nat → Nat → Reader Unit
  | 0, _ => fail
  | n + 1, depth => do
    match (← get).rest with
    | '*' :: '/' :: _ =>
      skip 2
      match depth with
      | 0 => pure ()
      | d + 1 => blockCommentRest n d
    | '/' :: '*' :: _ => skip 2; blockCommentRest n (depth + 1)
    | _ :: _ => next; blockCommentRest n depth
    | [] => fail

/-- The marker that makes a comment a documenting one, after its two opening characters. -/
def docMarker (twice : Char) : List Char → Option String
  | '!' :: _ => some "inner_doc_comment_marker"
  | c :: d :: _ => if c = twice && d ≠ twice && !(twice == '*' && d == '/') then
      some "outer_doc_comment_marker" else none
  | [c] => if c = twice then some "outer_doc_comment_marker" else none
  | [] => none

def lineComment : Reader Node := do
  let s ← get
  skip 2
  let slashes ← leaf "//" false s
  match docMarker '/' (← get).rest with
  | some marker =>
    let m ← get
    next
    let mark ← leaf marker true m
    let d ← get
    skipWhile (· ≠ '\n')
    next
    leaf "line_comment" true s [slashes, mark, ← leaf "doc_comment" true d]
  | none =>
    skipWhile (· ≠ '\n')
    leaf "line_comment" true s [slashes]

def blockComment : Reader Node := do
  let s ← get
  skip 2
  let marks ← do
    match docMarker '*' (← get).rest with
    | some marker => let m ← get; next; pure [← leaf marker true m]
    | none => pure []
  blockCommentRest ((← get).left + 1) 0
  leaf "block_comment" true s marks

/-- Passes blanks and comments; answers whether it has passed a comment. -/
def gapStep : Reader (Option Unit) := do
  skipWhile Text.isBlank
  match (← get).rest with
  | '/' :: '/' :: _ => await (← lineComment); return some ()
  | '/' :: '*' :: _ => await (← blockComment); return some ()
  | _ => return none

/-- Passes all blanks and comments here. -/
def gap : Reader Unit := do
  match (← get).rest with
  | c :: _ => if c = '/' || Text.isBlank c then discard <| many gapStep else pure ()
  | [] => pure ()

/-- The text after blanks and comments. -/
def peek : Reader (List Char) := do gap; return (← get).rest

/-- Whether the next characters are these. -/
def atSym (t : String) : Reader Bool := return Text.beginsWith t.toList (← peek)

/-- Whether a text begins with a word. -/
def beginsWithWord (w : String) (s : List Char) : Bool :=
  match Text.stripFront? w.toList s with
  | some (c :: _) => !Text.isNameMore c
  | some [] => true
  | none => false

def atWord (w : String) : Reader Bool := return beginsWithWord w (← peek)

def atAnyWord (ws : List String) : Reader Bool := do
  let s ← peek
  return ws.any (beginsWithWord · s)

/-- A literal mark. -/
def sym (t : String) : Reader Node := do
  if ← atSym t then
    let s ← get
    skip t.length
    leaf t false s
  else fail

/-- A literal word. -/
def word (w : String) : Reader Node := do
  if ← atWord w then
    let s ← get
    skip w.length
    leaf w false s
  else fail

/-- A literal word that has a node of its own. -/
def wordAs (w kind : String) : Reader Node := return { (← word w) with kind, named := true }

def optSym (t : String) : Reader (List Node) := do
  if ← atSym t then return [← sym t] else return []

def optWord (w : String) : Reader (List Node) := do
  if ← atWord w then return [← word w] else return []

/-- Words that are not names. -/
def reserved : List String :=
  ["as", "async", "await", "break", "const", "continue", "dyn", "else", "enum", "extern", "false", "fn",
   "for", "if", "impl", "in", "let", "loop", "match", "mod", "move", "mut", "pub", "ref", "return",
   "static", "struct", "trait", "true", "type", "unsafe", "use", "where", "while", "yield"]

/-- Words that stand for a place in the tree of modules. -/
def pathRoots : List String := ["self", "super", "crate"]

/-- The length of the name a text begins with, 0 if it begins with none. -/
def nameLength : List Char → Nat
  | 'r' :: '#' :: c :: s =>
    if Text.isNameStart c then 3 + (s.takeWhile Text.isNameMore).length else 1
  | c :: s => if Text.isNameStart c then 1 + (s.takeWhile Text.isNameMore).length else 0
  | [] => 0

/-- Any name-like word. -/
def anyWord (kind : String) : Reader Node := do
  let rest ← peek
  match nameLength rest with
  | 0 => fail
  | n => let s ← get; skip n; leaf kind true s

/-- The name-like word here, if one stands here. -/
def wordHere : Reader String := do
  let rest ← peek
  return String.ofList (rest.take (nameLength rest))

/-- A name that is not reserved. -/
def name (kind : String) : Reader Node := do
  let w ← wordHere
  if w = "" || reserved.contains w then fail else anyWord kind

def metavariable : Reader Node := do
  match ← peek with
  | '$' :: c :: _ =>
    if Text.isNameStart c then
      let s ← get
      next
      skipWhile Text.isNameMore
      leaf "metavariable" true s
    else fail
  | _ => fail

/-- Whether a quote begins a lifetime and not a character. -/
def quoteIsLifetime : List Char → Bool
  | '\'' :: c :: d :: _ => Text.isNameStart c && d ≠ '\''
  | ['\'', c] => Text.isNameStart c
  | _ => false

def lifetime (kind : String) : Reader Node := do
  if quoteIsLifetime (← peek) then
    let s ← get
    next
    let mark ← leaf "'" false s
    leaf kind true s [mark, ← anyWord "identifier"]
  else fail

/-- Passes a text up to its closing quote. -/
def textRest : Nat → Reader Unit
  | 0 => fail
  | n + 1 => do
    match (← get).rest with
    | '"' :: _ => next
    | '\\' :: _ :: _ => skip 2; textRest n
    | _ :: _ => next; textRest n
    | [] => fail

/-- Passes a raw text up to a quote and a number of hash signs. -/
def rawTextRest (hashes : List Char) : Nat → Reader Unit
  | 0 => fail
  | n + 1 => do
    match (← get).rest with
    | '"' :: r =>
      next
      if Text.beginsWith hashes r then skip hashes.length else rawTextRest hashes n
    | _ :: _ => next; rawTextRest hashes n
    | [] => fail

def rawText (letters : Nat) : Reader Node := do
  let s ← get
  skip letters
  let hashes := (← get).rest.takeWhile (· = '#')
  skip (hashes.length + 1)
  rawTextRest hashes ((← get).left + 1)
  let stop ← get
  let content : Node := { kind := "string_content", span := ⟨s.byte, stop.byte, s.row, stop.row⟩ }
  leaf "raw_string_literal" true s [content]

def quotedText (letters : Nat) : Reader Node := do
  let s ← get
  skip letters
  next
  let q ← leaf "\"" false s
  textRest ((← get).left + 1)
  leaf "string_literal" true s [q]

def character (letters : Nat) : Reader Node := do
  let s ← get
  skip letters
  next
  match (← get).rest with
  | '\\' :: 'u' :: '{' :: _ => skipWhile (· ≠ '}'); next
  | '\\' :: 'x' :: _ => skip 4
  | '\\' :: _ => skip 2
  | '\'' :: _ => pure ()
  | _ => next
  match (← get).rest with
  | '\'' :: _ => next; leaf "char_literal" true s
  | _ => fail

/-- Whether hash signs and then a quote follow. -/
def opensRaw (s : List Char) : Bool := (s.dropWhile (· = '#')).head? == some '"'

def digitOf (c : Char) : Bool := c.isDigit || c = '_'

/-- Passes the exponent of a number, if one stands here. -/
def exponent : Reader Bool := do
  match (← get).rest with
  | e :: c :: r =>
    if e = 'e' || e = 'E' then
      let signed := c = '+' || c = '-'
      let digits := if signed then r else c :: r
      if (digits.dropWhile (· = '_')).head?.any Char.isDigit then
        skip (if signed then 2 else 1)
        skipWhile digitOf
        return true
      else return false
    else return false
  | _ => return false

def number : Reader Node := do
  let s ← get
  match s.rest with
  | '0' :: c :: _ =>
    if c = 'x' || c = 'b' || c = 'o' then
      skipWhile Text.isNameMore
      return ← leaf "integer_literal" true s
  | _ => pure ()
  skipWhile digitOf
  let fraction ← do
    match (← get).rest with
    | '.' :: c :: _ =>
      if c.isDigit then next; skipWhile digitOf; pure true
      else if c = '.' || Text.isNameStart c then pure false
      else next; pure true
    | ['.'] => next; pure true
    | _ => pure false
  let power ← exponent
  let suffix := (← get).rest.takeWhile Text.isNameMore
  skip suffix.length
  let whole := !fraction && !power && suffix.head? ≠ some 'f'
  leaf (if whole then "integer_literal" else "float_literal") true s

/-- A literal, if one stands here. -/
def literal? : Reader (Option Node) := do
  match ← peek with
  | '"' :: _ => return some (← quotedText 0)
  | 'b' :: '"' :: _ | 'c' :: '"' :: _ => return some (← quotedText 1)
  | 'b' :: '\'' :: _ => return some (← character 1)
  | 'r' :: r =>
    if opensRaw r then return some (← rawText 1) else boolean?
  | 'b' :: 'r' :: r | 'c' :: 'r' :: r =>
    if opensRaw r then return some (← rawText 2) else boolean?
  | '\'' :: r => if quoteIsLifetime ('\'' :: r) then return none else return some (← character 0)
  | c :: _ => if c.isDigit then return some (← number) else boolean?
  | [] => return none
where
  boolean? : Reader (Option Node) := do
    if ← atAnyWord ["true", "false"] then
      let s ← get
      let w ← if ← atWord "true" then word "true" else word "false"
      return some (← leaf "boolean_literal" true s [w])
    else return none

/-- What a rule reads, between commas; the list ends before a closing mark. -/
def commaList (closed : Reader Bool) (item : Reader (List Node)) : Reader (List Node) := do
  let groups ← many do
    if ← closed then return none
    let it ← item
    let comma ← if ← closed then pure [] else pure [← sym ","]
    return some (it ++ comma)
  return groups.flatten

/-- A list in brackets. -/
def bracketed (opening closing : String) (item : Reader (List Node)) : Reader (List Node) := do
  let o ← sym opening
  let inner ← commaList (atSym closing) item
  return o :: inner ++ [← sym closing]

end CodeAtlas.Grammar.Rust
