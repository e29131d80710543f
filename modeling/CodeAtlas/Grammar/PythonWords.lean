import CodeAtlas.Grammar.Reader
import CodeAtlas.Text.Blank
import CodeAtlas.Text.Find
import CodeAtlas.Text.Name

/-!
# Words, marks and layout of Python

Lines and their indentation carry structure. Three marks without width stand for it: the end of a line of
statements, the opening of a deeper level, and its closing.

* `margin`: what the lines ahead say about the level of the next statement. Comment lines belong to a level
  as long as they are indented at least as far as it.
* `endOfLine`, `openLevel?`, `closeLevel?`: the marks.
-/

namespace CodeAtlas.Grammar.Python

open SyntaxTree Reader

/-! ## Gaps -/

def comment : Reader Node := do
  let s ← get
  skipWhile (· ≠ '\n')
  leaf "comment" true s

/-- The number of characters of a backslash that joins two lines, 0 if none stands here. -/
def joinLength : List Char → Nat
  | '\\' :: '\n' :: _ => 2
  | '\\' :: '\r' :: '\n' :: _ => 3
  | _ => 0

def isJoiner (c : Char) : Bool := c.toNat = 0xFEFF || c.toNat = 0x2060 || c.toNat = 0x200B

/-- Passes what may stand between two tokens: blanks and joined lines, and inside brackets also line ends and
comments. -/
def gap : Reader Unit := do
  let inside := (← get).brackets ≠ 0
  discard <| many do
    skipWhile fun c => (Text.isBlank c || isJoiner c) && (inside || (c ≠ '\n' && c ≠ '\r'))
    let rest := (← get).rest
    if joinLength rest ≠ 0 then
      let s ← get
      skip (joinLength rest)
      await (← leaf "line_continuation" true s)
      return some ()
    else if inside && rest.head? = some '#' then
      await (← comment)
      return some ()
    else return none

def peek : Reader (List Char) := do gap; return (← get).rest

/-- Runs a reader inside a bracket. -/
def inBrackets {α : Type} (p : Reader α) : Reader α := do
  modify fun s => { s with brackets := s.brackets + 1 }
  let a ← p
  modify fun s => { s with brackets := s.brackets - 1 }
  return a

/-! ## Layout -/

/-- What the lines ahead say. -/
structure Margin where
  /-- A line ends before the next token. -/
  lineEnds : Bool := false
  /-- The width before the next token. -/
  width : Nat := 0
  /-- The width before the first comment that has a line of its own. -/
  comment : Option Nat := none
  /-- A comment or a stray backslash stands on the rest of this line. -/
  blocked : Bool := false

/-- Looks over blanks, line ends and comment lines. -/
def marginFrom : Nat → Margin → List Char → Margin
  | 0, m, _ => m
  | n + 1, m, s =>
    match s with
    | [] => { m with lineEnds := true, width := 0 }
    | '\n' :: r => marginFrom n { m with lineEnds := true, width := 0 } r
    | ' ' :: r => marginFrom n { m with width := m.width + 1 } r
    | '\r' :: r | '\x0c' :: r => marginFrom n { m with width := 0 } r
    | '\t' :: r => marginFrom n { m with width := m.width + 8 } r
    | '#' :: r =>
      if !m.lineEnds then { m with blocked := true }
      else
        marginFrom n { m with comment := some (m.comment.getD m.width), width := 0 }
          ((r.dropWhile (· ≠ '\n')).drop 1)
    | '\\' :: r =>
      match joinLength ('\\' :: r) with
      | 0 => if r.isEmpty then marginFrom n m r else { m with blocked := true }
      | k => marginFrom n m (r.drop (k - 1))
    | _ => m

def margin : Reader Margin := do
  let s ← get
  return marginFrom (s.left + 1) {} s.rest

/-- The width of the innermost open level. -/
def currentWidth : Reader Nat := return (← get).indents.headD 0

/-- Whether the innermost level ends here. -/
def levelEnds : Reader Bool := do
  let w ← currentWidth
  if w = 0 then return false
  let m ← margin
  return m.lineEnds && !m.blocked && m.width < w && m.comment.all (· < w)

/-- Passes blanks, line ends and comments up to the next token, as far as the innermost level reaches. Answers
whether a token is left there. -/
def nextLine : Reader Bool := do
  discard <| many do
    if ← levelEnds then return none
    skipWhile fun c => Text.isBlank c || isJoiner c
    let rest := (← get).rest
    if rest.head? = some '#' then
      await (← comment)
      return some ()
    else if joinLength rest ≠ 0 then
      let s ← get
      skip (joinLength rest)
      await (← leaf "line_continuation" true s)
      return some ()
    else return none
  return !(← levelEnds) && !(← get).rest.isEmpty

/-- The end of a line of statements, after the comments that stand on it. -/
def endOfLine : Reader Node := do
  discard <| many do
    let m ← margin
    if m.blocked then
      gap
      if (← get).rest.head? = some '#' then
        await (← comment)
        return some ()
      else return none
    else return none
  let m ← margin
  if m.lineEnds && !m.blocked then mark else fail

/-- The opening of a deeper level, or nothing if none opens. -/
def openLevel? : Reader (Option Node) := do
  discard <| many do
    let m ← margin
    if m.blocked then
      gap
      if (← get).rest.head? = some '#' then
        await (← comment)
        return some ()
      else return none
    else return none
  let m ← margin
  if m.lineEnds && !m.blocked && (← currentWidth) < m.width then
    modify fun s => { s with indents := m.width :: s.indents }
    return some (← mark)
  else return none

/-- The closing of the innermost level, if it ends here. -/
def closeLevel? : Reader (Option Node) := do
  if ← levelEnds then
    modify fun s => { s with indents := s.indents.drop 1 }
    return some (← mark)
  else return none

/-! ## Words and marks -/

/-- Whether a text begins with a word. -/
def beginsWithWord (w : String) (s : List Char) : Bool :=
  match Text.stripFront? w.toList s with
  | some (c :: _) => !Text.isNameMore c
  | some [] => true
  | none => false

def atSym (t : String) : Reader Bool := return Text.beginsWith t.toList (← peek)

def atWord (w : String) : Reader Bool := return beginsWithWord w (← peek)

def sym (t : String) : Reader Node := do
  if ← atSym t then
    let s ← get
    skip t.length
    leaf t false s
  else fail

def word (w : String) : Reader Node := do
  if ← atWord w then
    let s ← get
    skip w.length
    leaf w false s
  else fail

def optWord (w : String) : Reader (List Node) := do
  if ← atWord w then return [← word w] else return []

/-- The word here, if one stands here. -/
def wordHere : Reader String := do
  match ← peek with
  | c :: r => if Text.isNameStart c then return String.ofList (c :: r.takeWhile Text.isNameMore) else return ""
  | [] => return ""

/-- Words that are not names. -/
def reserved : List String :=
  ["False", "None", "True", "and", "as", "assert", "break", "class", "continue", "def", "del", "elif", "else",
   "except", "finally", "for", "from", "global", "if", "import", "in", "is", "lambda", "nonlocal", "not", "or",
   "pass", "raise", "return", "try", "while", "with", "yield"]

def identifier : Reader Node := do
  let w ← wordHere
  if w = "" || reserved.contains w then fail
  else
    let s ← get
    skip w.length
    leaf "identifier" true s

/-- What a rule reads, between commas, up to a closing mark. -/
def commaList (closed : Reader Bool) (item : Reader Node) : Reader (List Node) := do
  let groups ← many do
    if ← closed then return none
    let it ← item
    if ← atSym "," then return some [it, ← sym ","]
    else if ← closed then return some [it]
    else fail
  return groups.flatten

/-! ## Numbers -/

def digitOf (c : Char) : Bool := c.isDigit || c = '_'

def number : Reader Node := do
  let s ← get
  match s.rest with
  | '0' :: c :: _ =>
    if ['x', 'X', 'o', 'O', 'b', 'B'].contains c then
      skipWhile Text.isNameMore
      return ← leaf "integer" true s
  | _ => pure ()
  skipWhile digitOf
  let fraction ← do
    match (← get).rest with
    | '.' :: _ => next; skipWhile digitOf; pure true
    | _ => pure false
  let power ← do
    match (← get).rest with
    | e :: c :: r =>
      if (e = 'e' || e = 'E') && (c.isDigit || ((c = '+' || c = '-') && r.head?.any Char.isDigit)) then
        skip 2
        skipWhile digitOf
        pure true
      else pure false
    | _ => pure false
  skipWhile fun c => ['j', 'J', 'l', 'L'].contains c
  leaf (if fraction || power then "float" else "integer") true s

/-- The letters in front of a string and its quote, if a string begins here. -/
def stringOpening (s : List Char) : Option (List Char × List Char) :=
  let letters := s.takeWhile fun c => ['f', 'F', 'r', 'R', 'b', 'B', 'u', 'U'].contains c
  match s.drop letters.length with
  | '"' :: '"' :: '"' :: _ => some (letters, ['"', '"', '"'])
  | '\'' :: '\'' :: '\'' :: _ => some (letters, ['\'', '\'', '\''])
  | '"' :: _ => some (letters, ['"'])
  | '\'' :: _ => some (letters, ['\''])
  | _ => none

end CodeAtlas.Grammar.Python
