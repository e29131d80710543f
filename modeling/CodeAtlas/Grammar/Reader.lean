import CodeAtlas.SyntaxTree.Node

/-!
# Reading trees from text

A reader walks over a source text and makes tree nodes of what it passes. Two things are the same for all
grammars and are settled here.

* Comments may stand between any two tokens. They wait in `Scan.comments` until a node is finished that
  has a token on either side of them; `Reader.finish` puts them among that node's children.
* Rules that contain each other are tied together by `Nat` many levels of nesting. A text nested deeper
  than that stops the reader with `Stop.tooDeep`.
-/

namespace CodeAtlas.Grammar

open SyntaxTree

/-- Why a reader gives up. -/
inductive Stop where
  /-- The text is not of the form that the grammar asks for here. -/
  | unexpected
  /-- The text is nested more deeply than the reader follows. -/
  | tooDeep
deriving Repr, DecidableEq

/-- A place in the source text. -/
structure Scan where
  rest : List Char
  /-- The number of characters in `rest`. -/
  left : Nat
  byte : Nat := 0
  row : Nat := 0
  /-- Comments that no finished node holds yet, the latest first. -/
  comments : List Node := []
  /-- Widths of the open indentation levels, the innermost first. -/
  indents : List Nat := []
  /-- The number of open brackets, where line ends mean nothing. -/
  brackets : Nat := 0

/-- The start of a text. A byte order mark at its front is passed over. -/
def Scan.ofString (s : String) : Scan :=
  match s.toList with
  | c :: rest =>
    if c.toNat = 0xFEFF then { rest, left := s.length - 1, byte := c.utf8Size }
    else { rest := c :: rest, left := s.length }
  | [] => { rest := [], left := 0 }

abbrev Reader := EStateM Stop Scan

namespace Reader

variable {α : Type}

def fail : Reader α := throw .unexpected

/-- Passes one character. -/
@[inline] def next : Reader Unit := modify fun s =>
  match s.rest with
  | [] => s
  | c :: r =>
    { s with rest := r, left := s.left - 1, byte := s.byte + c.utf8Size,
             row := if c = '\n' then s.row + 1 else s.row }

/-- Passes some characters. -/
def skip : Nat → Reader Unit
  | 0 => pure ()
  | n + 1 => do next; skip n

/-- Passes the characters of a class, for a number of characters. -/
def skipWhileWithin (p : Char → Bool) : Nat → Reader Unit
  | 0 => pure ()
  | n + 1 => do
    match (← get).rest with
    | c :: _ => if p c then do next; skipWhileWithin p n else pure ()
    | [] => pure ()

/-- Passes the characters of a class. -/
def skipWhile (p : Char → Bool) : Reader Unit := do skipWhileWithin p (← get).left

/-- Runs a reader and goes back to where it began if it meets something unexpected. -/
def attempt (p : Reader α) : Reader (Option α) := fun s =>
  match p s with
  | .ok a s' => .ok (some a) s'
  | .error .unexpected _ => .ok none s
  | .error .tooDeep s' => .error .tooDeep s'

/-- Runs `q` where `p` meets something unexpected. -/
def orElse (p q : Reader α) : Reader α := fun s =>
  match p s with
  | .error .unexpected _ => q s
  | r => r

/-- What a reader would answer here; nothing is passed. -/
def ahead (p : Reader α) : Reader α := fun s =>
  match p s with
  | .ok a _ => .ok a s
  | .error e s' => .error e s'

/-- Whether a reader would succeed here; nothing is passed. -/
def succeeds (p : Reader α) : Reader Bool := fun s =>
  match p s with
  | .ok _ _ => .ok true s
  | .error .unexpected _ => .ok false s
  | .error .tooDeep s' => .error .tooDeep s'

def manyWithin (step : Reader (Option α)) : Nat → Array α → Reader (Array α)
  | 0, acc => pure acc
  | n + 1, acc => do
    match ← step with
    | none => pure acc
    | some a => manyWithin step n (acc.push a)

/-- Runs a step as long as it answers something; a step that answers something passes a character. -/
def many (step : Reader (Option α)) : Reader (List α) := do
  return (← manyWithin step ((← get).left + 1) #[]).toList

def growWithin (step : α → Reader (Option α)) : Nat → α → Reader α
  | 0, a => pure a
  | n + 1, a => do
    match ← step a with
    | none => pure a
    | some b => growWithin step n b

/-- Extends a result as long as a step answers something. -/
def grow (step : α → Reader (Option α)) (a : α) : Reader α := do
  growWithin step ((← get).left + 1) a

/-- A node for the text from an earlier place up to here. -/
def leaf (kind : String) (named : Bool) (start : Scan) (children : List Node := []) : Reader Node := do
  let s ← get
  return { kind, named, span := ⟨start.byte, s.byte, start.row, s.row⟩, children }

/-- Lays waiting comments between the children of a node; both lists are in order of place. -/
def interleave : List Node → List Node → List Node
  | [], cs => cs
  | ks, [] => ks
  | k :: ks, c :: cs =>
    if k.span.start < c.span.start then k :: interleave ks (c :: cs) else c :: interleave (k :: ks) cs

/-- A mark that takes part in the extent of a node and is not one of its children. -/
def mark : Reader Node := do
  let s ← get
  return { kind := "", named := false, span := ⟨s.byte, s.byte, s.row, s.row⟩ }

/-- Puts a comment among those that wait. -/
def await (comment : Node) : Reader Unit := modify fun s => { s with comments := comment :: s.comments }

/-- A node over its children, together with the comments between the first and the last of them. -/
def finish (kind : String) (children : List Node) : Reader Node := do
  let s ← get
  let span : Span := match children.head?, children.getLast? with
    | some a, some b => ⟨a.span.start, b.span.stop, a.span.startRow, b.span.stopRow⟩
    | _, _ => ⟨s.byte, s.byte, s.row, s.row⟩
  let shown := children.filter (·.kind ≠ "")
  match s.comments with
  | [] => return { kind, span, children := shown }
  | _ =>
    -- the latest comments come first: those after the node, then those in it, then those before it
    let later := s.comments.takeWhile (span.stop ≤ ·.span.start)
    let others := s.comments.dropWhile (span.stop ≤ ·.span.start)
    let inside := others.takeWhile (span.start ≤ ·.span.start)
    let outside := others.dropWhile (span.start ≤ ·.span.start)
    set { s with comments := later ++ outside }
    return { kind, span, children := interleave inside.reverse shown }

/-- The root of a tree: it covers the whole text read and takes all comments that still wait. -/
def finishRoot (kind : String) (children : List Node) : Reader Node := do
  let s ← get
  let shown := children.filter (·.kind ≠ "")
  return { kind, span := ⟨0, s.byte, 0, s.row⟩, children := interleave s.comments.reverse shown }

end Reader

/-- The tree of a text that has no reading: a single error node. -/
def unreadable (s : String) : Node :=
  { kind := "ERROR", isError := true, span := ⟨0, s.utf8ByteSize, 0, 0⟩ }

/-- How many levels of nesting readers follow. Each level makes the tree at least half a level deeper. -/
def nestingFollowed : Nat := 2100

/-- The tree that a grammar's reader makes of a text; `none` if the text is nested too deeply to follow. -/
def readTree (root : Reader Node) (s : String) : Option Node :=
  match root (Scan.ofString s) with
  | .ok n s' => if s'.rest.isEmpty then some n else some (unreadable s)
  | .error .unexpected _ => some (unreadable s)
  | .error .tooDeep _ => none

end CodeAtlas.Grammar
