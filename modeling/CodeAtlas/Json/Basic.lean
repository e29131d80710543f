import CodeAtlas.Decimal.Shortest

/-!
# JSON values and their text

A value and its two texts: the compact one, without any blank, and the spread one, in which each member has a
line of its own, indented by two blanks for each level.

* `Json.compact`, `Json.pretty`: the texts.
* `Json.floatText`: a number with a fraction or an exponent always shows that it has one.
-/

namespace CodeAtlas

/-- A JSON value. Members of an object keep their order. -/
inductive Json where
  | null
  | bool (b : Bool)
  | nat (n : Nat)
  /-- The number `-n`. -/
  | negative (n : Nat)
  | float (x : Float)
  | str (s : String)
  | arr (items : List Json)
  | obj (members : List (String × Json))
deriving Inhabited

namespace Json

/-- The characters of `d · 10 ^ k` with a point and at least one digit on either side of it, or with an exponent
if the point would stand more than 16 digits from the front or 5 digits before it. -/
def decimalText (d : Nat) (k : Int) : String :=
  let digits := Nat.toDigits 10 d
  let count : Int := digits.length
  -- how many digits stand before the point
  let point := count + k
  if 0 ≤ k && point ≤ 16 then String.ofList (digits ++ List.replicate k.toNat '0') ++ ".0"
  else if 0 < point && point ≤ 16 then
    String.ofList (digits.take point.toNat) ++ "." ++ String.ofList (digits.drop point.toNat)
  else if -5 < point && point ≤ 0 then
    "0." ++ String.ofList (List.replicate (-point).toNat '0' ++ digits)
  else
    let power := toString (point - 1)
    match digits with
    | [c] => String.singleton c ++ "e" ++ power
    | c :: r => String.singleton c ++ "." ++ String.ofList r ++ "e" ++ power
    | [] => "0.0"

/-- The text of a float; there is none for what is not finite, which is written `null`. -/
def floatText (x : Float) : String :=
  if x.isNaN || x.isInf then "null"
  else
    -- the sign is read off its bit: a zero may have one
    let sign := if x.toBits.toNat / Nat.pow 2 63 = 1 then "-" else ""
    match Decimal.Binary.ofFloat? x with
    | none => sign ++ "0.0"
    | some b =>
      let (d, k) := Decimal.dropZeros 17 b.shortest
      sign ++ decimalText d k

/-- One character inside a JSON string. -/
def escape (c : Char) : List Char :=
  if c = '"' then ['\\', '"']
  else if c = '\\' then ['\\', '\\']
  else if c = '\n' then ['\\', 'n']
  else if c = '\r' then ['\\', 'r']
  else if c = '\t' then ['\\', 't']
  else if c.toNat = 8 then ['\\', 'b']
  else if c.toNat = 12 then ['\\', 'f']
  else if c.toNat < 0x20 then ['\\', 'u', '0', '0', Nat.digitChar (c.toNat / 16), Nat.digitChar (c.toNat % 16)]
  else [c]

/-- A JSON string. -/
def stringText (s : String) : String := "\"" ++ String.ofList (s.toList.flatMap escape) ++ "\""

mutual

/-- The text without blanks. -/
def compact : Json → String
  | .null => "null"
  | .bool b => if b then "true" else "false"
  | .nat n => toString n
  | .negative n => "-" ++ toString n
  | .float x => floatText x
  | .str s => stringText s
  | .arr items => "[" ++ ",".intercalate (compactItems items) ++ "]"
  | .obj members => "\x7b" ++ ",".intercalate (compactMembers members) ++ "\x7d"

def compactItems : List Json → List String
  | [] => []
  | j :: js => compact j :: compactItems js

def compactMembers : List (String × Json) → List String
  | [] => []
  | (k, j) :: ms => (stringText k ++ ":" ++ compact j) :: compactMembers ms

end

/-- Members on lines of their own, between brackets; no member leaves the brackets together. -/
def spread (opening closing : String) (depth : Nat) (parts : List String) : String :=
  if parts.isEmpty then opening ++ closing
  else
    let line (n : Nat) : String := "\n" ++ String.ofList (List.replicate (2 * n) ' ')
    opening ++ line (depth + 1) ++ ("," ++ line (depth + 1)).intercalate parts ++ line depth ++ closing

mutual

/-- The text with a line for each member, for a value that stands at a depth. -/
def prettyAt (depth : Nat) : Json → String
  | .arr items => spread "[" "]" depth (prettyItems (depth + 1) items)
  | .obj members => spread "\x7b" "\x7d" depth (prettyMembers (depth + 1) members)
  | .null => "null"
  | .bool b => if b then "true" else "false"
  | .nat n => toString n
  | .negative n => "-" ++ toString n
  | .float x => floatText x
  | .str s => stringText s

def prettyItems (depth : Nat) : List Json → List String
  | [] => []
  | j :: js => prettyAt depth j :: prettyItems depth js

def prettyMembers (depth : Nat) : List (String × Json) → List String
  | [] => []
  | (k, j) :: ms => (stringText k ++ ": " ++ prettyAt depth j) :: prettyMembers depth ms

end

/-- The text with a line for each member. -/
def pretty (j : Json) : String := prettyAt 0 j

/-- The value of a member; of several members of one name, the last. -/
def get? (j : Json) (key : String) : Option Json :=
  match j with
  | .obj members => (members.reverse.find? (·.1 == key)).map (·.2)
  | _ => none

def ofOption {α : Type} (f : α → Json) : Option α → Json
  | none => .null
  | some a => f a

def strings (l : List String) : Json := .arr (l.map .str)

end Json

end CodeAtlas
