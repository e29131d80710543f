import CodeAtlas.Grammar.Reader
import CodeAtlas.Text.Blank
import CodeAtlas.Text.Find
import CodeAtlas.Text.Name

/-!
# Words and marks of JavaScript and TypeScript

A statement may end without a semicolon where a line ends and the next line cannot go on with it. Whether it
does is decided on the text that follows the last token, comments included, before any other token is tried.

* `endsByLine`: the decision for JavaScript and for TypeScript.
* `Reader` functions for words, marks, names and literals. Looking ahead passes nothing, so that the decision
  always sees the text right after a token.
-/

namespace CodeAtlas.Grammar.Script

open SyntaxTree Reader

/-- What a file may contain besides JavaScript. -/
structure Dialect where
  /-- Types. -/
  typed : Bool
  /-- Elements of markup as expressions. -/
  markup : Bool
deriving Repr, DecidableEq

def javaScript : Dialect := ⟨false, true⟩
def typeScript : Dialect := ⟨true, false⟩
def typeScriptMarkup : Dialect := ⟨true, true⟩

/-! ## Gaps -/

def isGap (c : Char) : Bool :=
  Text.isBlank c || c.toNat = 0xFEFF || c.toNat = 0x2060 || c.toNat = 0x200B

def isLineEnd (c : Char) : Bool := c = '\n' || c.toNat = 0x2028 || c.toNat = 0x2029

/-- The text after a block comment whose opening has been passed. -/
def dropBlockComment : List Char → List Char
  | [] => []
  | '*' :: '/' :: r => r
  | _ :: r => dropBlockComment r

/-- The text after blanks and comments, for a number of pieces. -/
def dropGapWithin : Nat → List Char → List Char
  | 0, s => s
  | n + 1, s =>
    match s.dropWhile isGap with
    | '/' :: '/' :: r => dropGapWithin n (r.dropWhile (!isLineEnd ·))
    | '/' :: '*' :: r => dropGapWithin n (dropBlockComment r)
    | r => r

/-- The text after blanks and comments; nothing is passed. -/
def peek : Reader (List Char) := do
  let s ← get
  return dropGapWithin (s.left + 1) s.rest

/-- Passes a block comment, for a number of characters. -/
def skipBlockComment : Nat → Reader Unit
  | 0 => fail
  | n + 1 => do
    match (← get).rest with
    | '*' :: '/' :: _ => skip 2
    | _ :: _ => next; skipBlockComment n
    | [] => fail

def comment? : Reader (Option Node) := do
  let s ← get
  match s.rest with
  | '/' :: '/' :: _ =>
    skipWhile (!isLineEnd ·)
    return some (← leaf "comment" true s)
  | '/' :: '*' :: _ =>
    skip 2
    skipBlockComment (s.left + 1)
    return some (← leaf "comment" true s)
  | _ => return none

/-- Passes blanks and comments. -/
def gap : Reader Unit := do
  match (← get).rest with
  | c :: _ =>
    if c = '/' || isGap c then
      discard <| many do
        skipWhile isGap
        match ← comment? with
        | some c => await c; return some ()
        | none => return none
    else pure ()
  | [] => pure ()

/-- Passes blanks and comments in front of a statement, where an older form of comment is known as well. -/
def statementGap : Reader Unit := do
  discard <| many do
    gap
    let s ← get
    if Text.beginsWith ['<', '!', '-', '-'] s.rest || Text.beginsWith ['-', '-', '>'] s.rest then
      skipWhile (!isLineEnd ·)
      await (← leaf "html_comment" true s)
      return some ()
    else return none

/-- Whether a line ends before the next token. -/
def lineAhead : Reader Bool := do
  let s ← get
  let after := dropGapWithin (s.left + 1) s.rest
  return (s.rest.take (s.left - after.length)).any isLineEnd

/-! ## Statements that end by a line -/

/-- Whether a text continues an operator written as a word. -/
def afterOperatorWord (s : List Char) : Bool :=
  match s with
  | 'i' :: 'n' :: r =>
    if !(r.head?.any fun c => c.isAlpha || (0x7F < c.toNat && Text.isNameStart c)) then true
    else
      match Text.stripFront? "stanceof".toList r with
      | some q => !(q.head?.any fun c => c.isAlpha || (0x7F < c.toNat && Text.isNameStart c))
      | none => false
  | _ => false

/-- The outcome of looking over blanks and comments in front of a token. -/
inductive Ahead where
  /-- A slash stands here that begins no comment. -/
  | slash
  /-- A block comment on one line, with the text after it. -/
  | sameLine (rest : List Char)
  | token (rest : List Char)

/-- The text after the end of a block comment, and whether the comment goes over a line end. -/
def blockCommentEnd (crossed : Bool) : List Char → Bool × List Char
  | [] => (crossed, [])
  | '*' :: '/' :: r => (crossed, r)
  | c :: r => blockCommentEnd (crossed || isLineEnd c) r

/-- Looks over blanks and comments. If `through` does not hold, it stops after a block comment. -/
def lookOver (through : Bool) : Nat → List Char → Ahead
  | 0, s => .token s
  | n + 1, s =>
    match s.dropWhile (fun c => Text.isBlank c) with
    | '/' :: '/' :: r => lookOver through n (r.dropWhile (!isLineEnd ·))
    | '/' :: '*' :: r =>
      let (crossed, rest) := blockCommentEnd false r
      if !through && rest.head? ≠ some '/' then (if crossed then .token rest else .sameLine rest)
      else lookOver through n rest
    | '/' :: _ => .slash
    | r => .token r

/-- Whether a token cannot go on with the statement of an earlier line. -/
def beginsAnew (typed operatorFits signature : Bool) (s : List Char) : Bool :=
  match s with
  | [] => true
  | c :: r =>
    if ['\x60', ',', ';', '*', '%', '>', '<', '=', '?', '^', '|', '&', '/', ':'].contains c then false
    else if c = '.' then !typed && r.head?.any Char.isDigit
    else if c = '(' || c = '[' then typed && !operatorFits
    else if c = '{' then !(typed && signature)
    else if c = '+' then r.head? = some '+'
    else if c = '-' then r.head? = some '-'
    else if c = '!' then r.head? ≠ some '='
    else if c = 'i' then !afterOperatorWord s
    else true

/-- Whether a statement ends at the front of a text. `operatorFits` says whether a binary operator could
follow, `signature` whether the statement could be the head of a function with its body to come. -/
def endsByLineWithin (typed operatorFits signature : Bool) : Nat → List Char → Bool
  | 0, _ => false
  | n + 1, s =>
    match s with
    | [] => true
    | '}' :: r =>
      if typed then if (r.dropWhile Text.isBlank).head? = some ':' then operatorFits else true
      else true
    | c :: r =>
      if !typed && c = '/' then
        match lookOver false (n + 1) s with
        | .slash => false
        | .sameLine rest => afterComment n rest
        | .token rest =>
          if !operatorFits && rest.head? ≠ some ',' && rest.head? ≠ some '=' then true
          else afterComment n rest
      else atChar n c r
where
  /-- The decision at a character that opens no comment. -/
  atChar (n : Nat) (c : Char) (r : List Char) : Bool :=
    if isLineEnd c then
      match lookOver true (n + 1) r with
      | .slash => false
      | .sameLine rest => beginsAnew typed operatorFits signature rest
      | .token rest => beginsAnew typed operatorFits signature rest
    else if Text.isBlank c then endsByLineWithin typed operatorFits signature n r
    else false
  afterComment (n : Nat) : List Char → Bool
    | [] => false
    | '}' :: _ => true
    | c :: r => atChar n c r

/-- Whether the statement may end at this place without a semicolon. -/
def endsByLine (d : Dialect) (operatorFits signature : Bool) : Reader Bool := do
  let s ← get
  return endsByLineWithin d.typed operatorFits signature (s.left + 2) s.rest

/-- The mark of a statement that ends without a semicolon, after the comments that still belong to it. -/
def lineMark? (d : Dialect) (operatorFits signature : Bool) : Reader (Option Node) := attempt do
  discard <| many do
    if ← endsByLine d operatorFits signature then return none
    else
      skipWhile isGap
      match ← comment? with
      | some c => await c; return some ()
      | none => return none
  if ← endsByLine d operatorFits signature then mark else fail

/-- The end of a statement: a semicolon, or a line that ends it. -/
def semicolon (d : Dialect) (operatorFits : Bool) : Reader Node := do
  match ← lineMark? d operatorFits false with
  | some m => return m
  | none =>
    if (← peek).head? = some ';' then
      gap
      let s ← get
      next
      leaf ";" false s
    else fail

/-! ## Words and marks -/

def isNameStart (c : Char) : Bool :=
  if c.toNat < 0x80 then c.isAlpha || c = '_' || c = '$' || c.toNat = 0x7F else !isGap c && !isLineEnd c

def isNameMore (c : Char) : Bool := isNameStart c || c.isDigit

def isHexDigit (c : Char) : Bool :=
  c.isDigit || ('a' ≤ c && c ≤ 'f') || ('A' ≤ c && c ≤ 'F')

/-- The length of a character given by its number after a backslash; 0 if there is none. -/
def escapeLength : List Char → Nat
  | 'u' :: '{' :: r =>
    let digits := r.takeWhile isHexDigit
    if digits.isEmpty || (r.drop digits.length).head? ≠ some '}' then 0 else digits.length + 3
  | 'u' :: r => if (r.take 4).length = 4 && (r.take 4).all isHexDigit then 5 else 0
  | _ => 0

/-- The length of what goes on with a name. -/
def nameMoreLength : List Char → Nat
  | [] => 0
  | c :: r =>
    if c = '\\' then
      match escapeLength r with
      | 0 => 0
      | n + 1 => n + 2 + nameMoreLength (r.drop (n + 1))
    else if isNameMore c then 1 + nameMoreLength r else 0
termination_by s => s.length
decreasing_by
  all_goals
    simp only [List.length_drop, List.length_cons]
    omega

/-- The length of the name a text begins with. -/
def nameLength : List Char → Nat
  | [] => 0
  | c :: r => if c.isDigit then 0 else nameMoreLength (c :: r)

/-- Whether a text begins with a word. -/
def beginsWithWord (w : String) (s : List Char) : Bool :=
  match Text.stripFront? w.toList s with
  | some (c :: _) => !isNameMore c && c ≠ '\\'
  | some [] => true
  | none => false

def atSym (t : String) : Reader Bool := return Text.beginsWith t.toList (← peek)

def atWord (w : String) : Reader Bool := return beginsWithWord w (← peek)

def sym (t : String) : Reader Node := do
  if ← atSym t then
    gap
    let s ← get
    skip t.length
    leaf t false s
  else fail

def word (w : String) : Reader Node := do
  if ← atWord w then
    gap
    let s ← get
    skip w.length
    leaf w false s
  else fail

def optSym (t : String) : Reader (List Node) := do
  if ← atSym t then return [← sym t] else return []

def optWord (w : String) : Reader (List Node) := do
  if ← atWord w then return [← word w] else return []

/-- The word here, if one stands here. -/
def wordHere : Reader String := do
  let rest ← peek
  return String.ofList (rest.take (nameLength rest))

/-- Words that are not names. -/
def reserved : List String :=
  ["break", "case", "catch", "class", "const", "continue", "debugger", "default", "delete", "do", "else", "enum",
   "export", "extends", "false", "finally", "for", "function", "if", "import", "in", "instanceof", "new", "null",
   "return", "super", "switch", "this", "throw", "true", "try", "typeof", "var", "void", "while", "with"]

/-- Any word, as a node of a kind. -/
def anyWord (kind : String) : Reader Node := do
  let rest ← peek
  match nameLength rest with
  | 0 => fail
  | n =>
    gap
    let s ← get
    skip n
    leaf kind true s

def identifier : Reader Node := do
  if reserved.contains (← wordHere) then fail else anyWord "identifier"

/-- What a rule reads, between commas, up to a closing mark. -/
def commaList (closing : String) (item : Reader (List Node)) : Reader (List Node) := do
  let groups ← many do
    if ← atSym closing then return none
    else if ← atSym "," then return some [← sym ","]
    else
      let it ← item
      if ← atSym closing then return some it else return some (it ++ [← sym ","])
  return groups.flatten

/-! ## Literals -/

def number : Reader Node := do
  gap
  let s ← get
  let digit (c : Char) : Bool := c.isDigit || c = '_'
  match s.rest with
  | '0' :: c :: _ =>
    if ['x', 'X', 'o', 'O', 'b', 'B'].contains c then
      skipWhile isNameMore
      return ← leaf "number" true s
  | _ => pure ()
  skipWhile digit
  match (← get).rest with
  | '.' :: _ => next; skipWhile digit
  | _ => pure ()
  match (← get).rest with
  | e :: c :: _ =>
    if (e = 'e' || e = 'E') && (c.isDigit || c = '+' || c = '-') then
      skip 2
      skipWhile digit
  | _ => pure ()
  match (← get).rest with
  | 'n' :: _ => next
  | _ => pure ()
  leaf "number" true s

/-- Passes a string up to its closing quote. -/
def stringRest (quote : Char) : Nat → Reader Unit
  | 0 => fail
  | n + 1 => do
    match (← get).rest with
    | '\\' :: '\r' :: '\n' :: _ => skip 3; stringRest quote n
    | '\\' :: _ :: _ => skip 2; stringRest quote n
    | c :: _ =>
      if c = quote then next
      else if c = '\n' then fail
      else do next; stringRest quote n
    | [] => fail

def string : Reader Node := do
  gap
  let s ← get
  match s.rest with
  | c :: _ =>
    if c = '"' || c = '\'' then
      next
      let o ← leaf (String.singleton c) false s
      let inside ← get
      stringRest c (s.left + 1)
      let e ← get
      let close : Node :=
        { kind := String.singleton c, named := false, span := ⟨e.byte - 1, e.byte, e.row, e.row⟩ }
      let text : List Node :=
        if inside.byte < e.byte - 1 then
          [{ kind := "string_fragment", span := ⟨inside.byte, e.byte - 1, inside.row, e.row⟩ }]
        else []
      leaf "string" true s (o :: text ++ [close])
    else fail
  | [] => fail

/-- Whether a string begins here. -/
def atString : Reader Bool := do
  match ← peek with
  | c :: _ => return c = '"' || c = '\''
  | [] => return false

/-- Passes a regular expression after its first slash; `inClass` says whether a bracket is open. -/
def regexRest (inClass : Bool) : Nat → Reader Unit
  | 0 => fail
  | n + 1 => do
    match (← get).rest with
    | '\\' :: _ :: _ => skip 2; regexRest inClass n
    | '[' :: _ => next; regexRest true n
    | ']' :: _ => next; regexRest false n
    | '/' :: _ => if inClass then do next; regexRest inClass n else next
    | '\n' :: _ => fail
    | _ :: _ => next; regexRest inClass n
    | [] => fail

def regex : Reader Node := do
  gap
  let s ← get
  next
  let slash ← leaf "/" false s
  let p ← get
  regexRest false (s.left + 1)
  let e ← get
  let pattern : Node := { kind := "regex_pattern", span := ⟨p.byte, e.byte - 1, p.row, e.row⟩ }
  let close : Node := { kind := "/", named := false, span := ⟨e.byte - 1, e.byte, e.row, e.row⟩ }
  skipWhile isNameMore
  leaf "regex" true s [slash, pattern, close]

end CodeAtlas.Grammar.Script
