import CodeAtlas.Json.Basic

/-!
# Reading JSON text

A text is read into a `Doc`, which keeps what stands before the first place where the text is not JSON. So a
reader of typed values meets the faults of a text in the order in which they stand in it, be they faults of
the form or of the type.

* `Doc.ofText`: the document of a text.
* `Flaw.message`: the wording of the faults of form.
-/

namespace CodeAtlas.Json

/-- A way in which a text is not JSON. -/
inductive Flaw where
  | endInList
  | endInObject
  | endInString
  | endInValue
  | expectedColon
  | expectedListCommaOrEnd
  | expectedObjectCommaOrEnd
  | expectedWord
  | expectedValue
  | invalidEscape
  | invalidNumber
  | numberOutOfRange
  | controlCharacter
  | keyMustBeString
  | loneSurrogate
  | trailingComma
  | trailingCharacters
  | cutHexEscape
  | tooDeep
deriving Repr, DecidableEq

def Flaw.message : Flaw → String
  | .endInList => "EOF while parsing a list"
  | .endInObject => "EOF while parsing an object"
  | .endInString => "EOF while parsing a string"
  | .endInValue => "EOF while parsing a value"
  | .expectedColon => "expected \x60:\x60"
  | .expectedListCommaOrEnd => "expected \x60,\x60 or \x60]\x60"
  | .expectedObjectCommaOrEnd => "expected \x60,\x60 or \x60\x7d\x60"
  | .expectedWord => "expected ident"
  | .expectedValue => "expected value"
  | .invalidEscape => "invalid escape"
  | .invalidNumber => "invalid number"
  | .numberOutOfRange => "number out of range"
  | .controlCharacter => "control character (\\u0000-\\u001F) found while parsing a string"
  | .keyMustBeString => "key must be a string"
  | .loneSurrogate => "lone leading surrogate in hex escape"
  | .trailingComma => "trailing comma"
  | .trailingCharacters => "trailing characters"
  | .cutHexEscape => "unexpected end of hex escape"
  | .tooDeep => "recursion limit exceeded"

/-- A JSON text as far as it is one. A list or an object that is not well formed to its end carries the flaw
found after its last member. -/
inductive Doc where
  | null
  | bool (b : Bool)
  | nat (n : Nat)
  | negative (n : Nat)
  | float (x : Float)
  | str (s : String)
  | arr (items : List Doc) (flaw : Option Flaw)
  | obj (members : List (String × Doc)) (flaw : Option Flaw)
  /-- Text that can be passed over but has no value. -/
  | flawed (f : Flaw)
  /-- The place where reading ended. -/
  | broken (f : Flaw)
deriving Inhabited

/-- A value and the text after it; no text is left to read after a break. -/
abbrev Step := Doc × Option (List Char)

def isGap (c : Char) : Bool := c = ' ' || c = '\n' || c = '\t' || c = '\r'

def dropGap (s : List Char) : List Char := s.dropWhile isGap

def stopAt (f : Flaw) : Step := (.broken f, none)

/-! ## Numbers -/

/-- `m · 10 ^ e` in binary arithmetic: the digits as one number, scaled by one power of ten, or by several if
the power is very small; nothing if the result is out of range. -/
def scaleFloat : Nat → Float → Int → Option Float
  | 0, x, _ => some x
  | n + 1, x, e =>
    -- up to here a power of ten is a float
    if e.natAbs ≤ 308 then
      let p := Float.ofScientific 1 false e.natAbs
      if 0 ≤ e then (if (x * p).isInf then none else some (x * p)) else some (x / p)
    else if x == 0.0 then some x
    else if 0 ≤ e then none
    else scaleFloat n (x / Float.ofScientific 1 false 308) (e + 308)

/-- The value of digits with a scale. -/
def floatDoc (isNegative : Bool) (digits : Nat) (scale : Int) : Doc :=
  match scaleFloat (scale.natAbs / 308 + 2) digits.toUInt64.toFloat scale with
  | some x => .float (if isNegative then -x else x)
  | none => .flawed .numberOutOfRange

def digitOf? (c : Char) : Option Nat := if c.isDigit then some (c.toNat - '0'.toNat) else none

/-- The largest number whose digits are taken as they are; further digits only move the point. -/
def maxDigits : Nat := Nat.pow 2 64 - 1

/-- Digits read so far: their number, how many digits were read, and how many of them were left out. -/
structure Digits where
  value : Nat := 0
  count : Nat := 0
  dropped : Nat := 0

/-- Reads the digits here into some digits read before. -/
def readDigits (d : Digits) : List Char → Digits × List Char
  | [] => (d, [])
  | c :: s =>
    match digitOf? c with
    | none => (d, c :: s)
    | some k =>
      if d.dropped = 0 && d.value * 10 + k ≤ maxDigits then
        readDigits { d with value := d.value * 10 + k, count := d.count + 1 } s
      else readDigits { d with count := d.count + 1, dropped := d.dropped + 1 } s

/-- Reads the exponent after its `e`. -/
def readExponent (isNegative : Bool) (d : Digits) (scale : Int) (s : List Char) : Step :=
  let (down, s) := match s with
    | '+' :: s => (false, s)
    | '-' :: s => (true, s)
    | s => (false, s)
  match s with
  | [] => stopAt .endInValue
  | c :: _ =>
    if !c.isDigit then stopAt .invalidNumber
    else
      let (e, rest) := readDigits {} s
      let doc :=
        -- the digits before such an exponent matter only if they are all zero
        if e.dropped > 0 || e.value > Nat.pow 2 31 - 1 then
          if d.value ≠ 0 && !down then Doc.flawed .numberOutOfRange else .float (if isNegative then -0.0 else 0.0)
        else floatDoc isNegative d.value (if down then scale - e.value else scale + e.value)
      (doc, some rest)

/-- Reads what follows the digits before the point. -/
def readAfterWhole (isNegative : Bool) (whole : Digits) (s : List Char) : Step :=
  match s with
  | '.' :: s =>
    let (d, rest) := readDigits { whole with count := 0 } s
    if d.count = 0 then stopAt (if rest.isEmpty then .endInValue else .invalidNumber)
    else
      -- digits left out before the point raise the scale, digits taken after it lower the scale
      let taken := d.count - (d.dropped - whole.dropped)
      let scale : Int := (whole.dropped : Int) - taken
      match rest with
      | 'e' :: r | 'E' :: r => readExponent isNegative d scale r
      | r => (floatDoc isNegative d.value scale, some r)
  | 'e' :: r | 'E' :: r => readExponent isNegative whole whole.dropped r
  | r =>
    if whole.dropped > 0 then (floatDoc isNegative whole.value whole.dropped, some r)
    else if !isNegative then (.nat whole.value, some r)
    -- only a float tells a zero with a sign from one without
    else if whole.value = 0 then (.float (-0.0), some r)
    else if whole.value ≤ Nat.pow 2 63 then (.negative whole.value, some r)
    else (.float (-(whole.value.toUInt64.toFloat)), some r)

/-- Reads a number after its sign. -/
def readNumber (isNegative : Bool) (s : List Char) : Step :=
  match s with
  | [] => stopAt .endInValue
  -- a zero in front is the only digit before the point
  | '0' :: c :: r =>
    if c.isDigit then stopAt .invalidNumber else readAfterWhole isNegative { count := 1 } (c :: r)
  | ['0'] => readAfterWhole isNegative { count := 1 } []
  | c :: r =>
    if c.isDigit then
      let (d, rest) := readDigits {} (c :: r)
      readAfterWhole isNegative d rest
    else stopAt .invalidNumber

/-! ## Strings -/

def hexDigit? (c : Char) : Option Nat :=
  if c.isDigit then some (c.toNat - '0'.toNat)
  else if 'a' ≤ c && c ≤ 'f' then some (c.toNat - 'a'.toNat + 10)
  else if 'A' ≤ c && c ≤ 'F' then some (c.toNat - 'A'.toNat + 10)
  else none

/-- Four hexadecimal digits. Bytes count here: four of them have to be there. -/
def readHex (s : List Char) : Except Flaw (Nat × List Char) :=
  match s with
  | a :: b :: c :: d :: r =>
    match hexDigit? a, hexDigit? b, hexDigit? c, hexDigit? d with
    | some a, some b, some c, some d => .ok (((a * 16 + b) * 16 + c) * 16 + d, r)
    | _, _, _, _ => .error .invalidEscape
  | s => if (String.ofList s).utf8ByteSize < 4 then .error .endInString else .error .invalidEscape

/-- The character for the letter of a short escape. -/
def shortEscape? : Char → Option Char
  | '"' => some '"'
  | '\\' => some '\\'
  | '/' => some '/'
  | 'b' => some (Char.ofNat 8)
  | 'f' => some (Char.ofNat 12)
  | 'n' => some '\n'
  | 'r' => some '\r'
  | 't' => some '\t'
  | _ => none

/-- What an escape in a string stands for, and the text after it; a flaw in place of the character if the
escape can only be passed over. -/
def readEscape (s : List Char) : Except Flaw ((Char ⊕ Flaw) × List Char) :=
  match s with
  | [] => .error .endInString
  | 'u' :: r => do
    let (n, r) ← readHex r
    if 0xDC00 ≤ n && n ≤ 0xDFFF then return (.inr .loneSurrogate, r)
    else if n < 0xD800 || 0xDBFF < n then return (.inl (Char.ofNat n), r)
    else
      -- the first half of a character that is written as two
      match r with
      | '\\' :: 'u' :: r' =>
        let (m, r'') ← readHex r'
        if m < 0xDC00 || 0xDFFF < m then return (.inr .loneSurrogate, r'')
        else return (.inl (Char.ofNat (0x10000 + (n - 0xD800) * 0x400 + (m - 0xDC00))), r'')
      | [] => .error .endInString
      | ['\\'] => .error .endInString
      | r => return (.inr .cutHexEscape, r)
  | c :: r =>
    match shortEscape? c with
    | some d => .ok (.inl d, r)
    | none => .error .invalidEscape

/-- Reads a string after its opening quote; `out` holds what was read, last character first. -/
def readString : Nat → Option Flaw → List Char → List Char → (String ⊕ Flaw) × Option (List Char)
  | 0, _, _, _ => (.inr .endInString, none)
  | n + 1, fault, out, s =>
    match s with
    | [] => (.inr (fault.getD .endInString), none)
    | '"' :: r =>
      match fault with
      | some f => (.inr f, some r)
      | none => (.inl (String.ofList out.reverse), some r)
    | '\\' :: r =>
      match readEscape r with
      | .error f => (.inr (fault.getD f), none)
      | .ok (.inl c, r) => readString n fault (c :: out) r
      | .ok (.inr f, r) => readString n (some (fault.getD f)) out r
    | c :: r =>
      if c.toNat < 0x20 then (.inr (fault.getD .controlCharacter), none)
      else readString n fault (c :: out) r

/-- A string after its opening quote. Like the readers below it takes a bound on the length of the text. -/
def readStringDoc (bound : Nat) (s : List Char) : Step :=
  match readString bound none [] s with
  | (.inl t, rest) => (.str t, rest)
  | (.inr f, some rest) => (.flawed f, some rest)
  | (.inr f, none) => stopAt f

/-! ## Values -/

/-- The rest of a fixed word. -/
def readWord (word : List Char) (value : Doc) : List Char → Step
  | s =>
    match word, s with
    | [], s => (value, some s)
    | _ :: _, [] => stopAt .endInValue
    | a :: w, b :: s => if a = b then readWord w value s else stopAt .expectedWord

/-- Passes over brackets and all that is in them, without following them into values; `open` tells of each open
bracket whether it is a list. -/
def passBrackets (bound : Nat) : Nat → List Bool → List Char → Step
  | 0, _, _ => stopAt .endInValue
  | _ + 1, [], s => (.flawed .tooDeep, some s)
  | n + 1, isList :: outer, s =>
    match dropGap s with
    | [] => stopAt (if isList then .endInList else .endInObject)
    | '[' :: r => passBrackets bound n (true :: isList :: outer) r
    | '{' :: r => passBrackets bound n (false :: isList :: outer) r
    | ']' :: r => if isList then passBrackets bound n outer r else stopAt .expectedObjectCommaOrEnd
    | '}' :: r => if isList then stopAt .expectedListCommaOrEnd else passBrackets bound n outer r
    | '"' :: r =>
      match readStringDoc bound r with
      | (.broken f, _) => stopAt f
      | (_, some r) => passBrackets bound n (isList :: outer) r
      | (_, none) => stopAt .endInString
    | _ :: r => passBrackets bound n (isList :: outer) r

/-- The members of a list after its bracket, last first. -/
def readItems (value : List Char → Step) : Nat → Bool → List Doc → List Char → Step
  | 0, _, items, _ => (.arr items.reverse (some .endInList), none)
  | n + 1, first, items, s =>
    let close (f : Flaw) : Step := (.arr items.reverse (some f), none)
    match dropGap s with
    | [] => close .endInList
    | ']' :: r => (.arr items.reverse none, some r)
    | c :: r =>
      let start : Except Flaw (List Char) :=
        if first then .ok (c :: r)
        else if c = ',' then
          match dropGap r with
          | ']' :: _ => .error .trailingComma
          | [] => .error .endInValue
          | r => .ok r
        else .error .expectedListCommaOrEnd
      match start with
      | .error f => close f
      | .ok r =>
        match value r with
        | (d, some r) => readItems value n false (d :: items) r
        | (d, none) => (.arr (d :: items).reverse none, none)

/-- The members of an object after its brace, last first. -/
def readMembers (bound : Nat) (value : List Char → Step) : Nat → Bool → List (String × Doc) → List Char → Step
  | 0, _, members, _ => (.obj members.reverse (some .endInObject), none)
  | n + 1, first, members, s =>
    let close (f : Flaw) : Step := (.obj members.reverse (some f), none)
    let member (s : List Char) : Except Flaw (String × List Char) :=
      match readString bound none [] s with
      | (.inl k, some r) => .ok (k, r)
      | (.inl _, none) => .error .endInString
      | (.inr f, _) => .error f
    let start : Except Flaw (Option (List Char)) :=
      match dropGap s with
      | [] => .error .endInObject
      | '}' :: r => .ok (some r)
      | c :: r =>
        if first then (if c = '"' then .ok none else .error .keyMustBeString)
        else if c = ',' then
          match dropGap r with
          | '"' :: _ => .ok none
          | '}' :: _ => .error .trailingComma
          | _ :: _ => .error .keyMustBeString
          | [] => .error .endInValue
        else .error .expectedObjectCommaOrEnd
    match start with
    | .error f => close f
    | .ok (some r) => (.obj members.reverse none, some r)
    | .ok none =>
      -- nothing but gaps and the comma stands before the quote of the key
      match member ((s.dropWhile (· ≠ '"')).drop 1) with
      | .error f => close f
      | .ok (k, r) =>
        let broken (f : Flaw) : Step := (.obj ((k, .broken f) :: members).reverse none, none)
        match dropGap r with
        | ':' :: r =>
          match value r with
          | (d, some r) => readMembers bound value n false ((k, d) :: members) r
          | (d, none) => (.obj ((k, d) :: members).reverse none, none)
        | _ :: _ => broken .expectedColon
        | [] => broken .endInObject

/-- A value, for a number of levels of lists and objects; what lies deeper is passed over. -/
def readValue (bound : Nat) : Nat → List Char → Step
  | depth, s =>
    match dropGap s with
    | [] => stopAt .endInValue
    | 'n' :: r => readWord ['u', 'l', 'l'] .null r
    | 't' :: r => readWord ['r', 'u', 'e'] (.bool true) r
    | 'f' :: r => readWord ['a', 'l', 's', 'e'] (.bool false) r
    | '-' :: r => readNumber true r
    | '"' :: r => readStringDoc bound r
    | '[' :: r =>
      match depth with
      | 0 => passBrackets bound bound [true] r
      | d + 1 => readItems (readValue bound d) bound true [] r
    | '{' :: r =>
      match depth with
      | 0 => passBrackets bound bound [false] r
      | d + 1 => readMembers bound (readValue bound d) bound true [] r
    | c :: r => if c.isDigit then readNumber false (c :: r) else stopAt .expectedValue

/-- The levels of lists and objects that have values. -/
def maxDepth : Nat := 127

/-- The document of a text, and the flaw of what follows it, if anything follows. -/
def Doc.ofText (s : String) : Doc × Option Flaw :=
  -- a character is read at each step, so the bound is not met before the end of the text
  match readValue (s.length + 1) maxDepth s.toList with
  | (d, some rest) => (d, if (dropGap rest).isEmpty then none else some .trailingCharacters)
  | (d, none) => (d, none)

mutual

/-- The document of a value. -/
def Doc.ofJson : Json → Doc
  | .null => .null
  | .bool b => .bool b
  | .nat n => .nat n
  | .negative n => .negative n
  | .float x => .float x
  | .str s => .str s
  | .arr items => .arr (ofItems items) none
  | .obj members => .obj (ofMembers members) none

def Doc.ofItems : List Json → List Doc
  | [] => []
  | j :: js => Doc.ofJson j :: Doc.ofItems js

def Doc.ofMembers : List (String × Json) → List (String × Doc)
  | [] => []
  | (k, j) :: ms => (k, Doc.ofJson j) :: Doc.ofMembers ms

end

mutual

/-- The value of a document without flaws. -/
def Doc.toJson? : Doc → Option Json
  | .null => some .null
  | .bool b => some (.bool b)
  | .nat n => some (.nat n)
  | .negative n => some (.negative n)
  | .float x => some (.float x)
  | .str s => some (.str s)
  | .arr items none => (toItems? items).map .arr
  | .obj members none => (toMembers? members).map .obj
  | _ => none

def Doc.toItems? : List Doc → Option (List Json)
  | [] => some []
  | d :: ds => do return (← d.toJson?) :: (← Doc.toItems? ds)

def Doc.toMembers? : List (String × Doc) → Option (List (String × Json))
  | [] => some []
  | (k, d) :: ms => do return (k, ← d.toJson?) :: (← Doc.toMembers? ms)

end

/-- The value of a text that is JSON. -/
def ofText? (s : String) : Option Json :=
  match Doc.ofText s with
  | (d, none) => d.toJson?
  | (_, some _) => none

end CodeAtlas.Json
