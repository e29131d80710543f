import CodeAtlas.Json.Read
import CodeAtlas.Text.Quoted

/-!
# Typed readings of documents

A decoder takes a value of some type from a document or says what is wrong with it first, in the order of the
text. A record is read member by member; a list of its members in their declared order is accepted as well.

* `Problem.message`: the wording of what can be wrong.
* `Form`: the members of a record, and `Form.decode`, which reads a record by its form.
* `decodeText`: a decoder on a whole text.
-/

namespace CodeAtlas

namespace Json

/-- What stands where something else is expected. -/
inductive Found where
  | bool (b : Bool)
  | nat (n : Nat)
  | negative (n : Nat)
  | float (x : Float)
  | str (s : String)
  | null
  | list
  | object

def Found.text : Found → String
  | .bool b => "boolean \x60" ++ (if b then "true" else "false") ++ "\x60"
  | .nat n => "integer \x60" ++ toString n ++ "\x60"
  | .negative n => "integer \x60-" ++ toString n ++ "\x60"
  | .float x => "floating point \x60" ++ floatText x ++ "\x60"
  | .str s => "string " ++ Text.quoted s
  | .null => "null"
  | .list => "sequence"
  | .object => "map"

/-- What is wrong with a document, as a value of some type. -/
inductive Problem where
  | flaw (f : Flaw)
  | wrongType (found : Found) (expected : String)
  | wrongValue (found : Found) (expected : String)
  | wrongLength (length : Nat) (expected : String)
  | unknownVariant (label : String) (labels : List String)
  | missingField (name : String)
  | duplicateField (name : String)
  /-- A rule of one type, worded by that type. -/
  | rule (text : String)

/-- Labels as a choice. -/
def choice (labels : List String) : String :=
  let marked := labels.map fun l => "\x60" ++ l ++ "\x60"
  match marked with
  | [] => "there are no variants"
  | [a] => "expected " ++ a
  | [a, b] => "expected " ++ a ++ " or " ++ b
  | ls => "expected one of " ++ ", ".intercalate ls

def Problem.message : Problem → String
  | .flaw f => f.message
  | .wrongType found expected => "invalid type: " ++ found.text ++ ", expected " ++ expected
  | .wrongValue found expected => "invalid value: " ++ found.text ++ ", expected " ++ expected
  | .wrongLength n expected => "invalid length " ++ toString n ++ ", expected " ++ expected
  | .unknownVariant label labels => "unknown variant \x60" ++ label ++ "\x60, " ++ choice labels
  | .missingField name => "missing field \x60" ++ name ++ "\x60"
  | .duplicateField name => "duplicate field \x60" ++ name ++ "\x60"
  | .rule text => text

abbrev Decoder (α : Type) := Doc → Except Problem α

/-! ## Passing over -/

mutual

/-- The flaw met in passing over a document. A comma at the end of a list or an object counts as the start of a
member here. -/
def Doc.passing : Doc → Option Flaw
  | .broken f => some f
  | .arr items flaw =>
    (passingItems items).or <| flaw.map fun f => if f = .trailingComma then .expectedValue else f
  | .obj members flaw =>
    (passingMembers members).or <| flaw.map fun f =>
      if f = .trailingComma then .keyMustBeString else if f = .endInValue then .endInObject else f
  | _ => none

def Doc.passingItems : List Doc → Option Flaw
  | [] => none
  | d :: ds => (d.passing).or (passingItems ds)

def Doc.passingMembers : List (String × Doc) → Option Flaw
  | [] => none
  | (_, d) :: ms => (d.passing).or (passingMembers ms)

end

/-- Reads nothing from a document. -/
def ignored : Decoder Unit := fun d =>
  match d.passing with
  | some f => .error (.flaw f)
  | none => .ok ()

end Json

namespace Decode

open Json

variable {α : Type}

/-! ## Plain values -/

/-- The problem of a document that is none of the expected ones. -/
def mismatch (expected : String) : Doc → Problem
  | .null => .wrongType .null expected
  | .bool b => .wrongType (.bool b) expected
  | .nat n => .wrongType (.nat n) expected
  | .negative n => .wrongType (.negative n) expected
  | .float x => .wrongType (.float x) expected
  | .str s => .wrongType (.str s) expected
  | .arr .. => .wrongType .list expected
  | .obj .. => .wrongType .object expected
  | .flawed f => .flaw f
  | .broken f => .flaw f

def str : Decoder String
  | .str s => .ok s
  | d => .error (mismatch "a string" d)

def bool : Decoder Bool
  | .bool b => .ok b
  | d => .error (mismatch "a boolean" d)

/-- A whole number of some bits. -/
def natOfBits (bits : Nat) (name : String) : Decoder Nat
  | .nat n => if n < Nat.pow 2 bits then .ok n else .error (.wrongValue (.nat n) name)
  | .negative n => .error (.wrongValue (.negative n) name)
  | d => .error (mismatch name d)

/-- A number of things. -/
def size : Decoder Nat := natOfBits 64 "usize"

def float : Decoder Float
  | .float x => .ok x
  | .nat n => .ok n.toUInt64.toFloat
  | .negative n => .ok (-(n.toUInt64.toFloat))
  | d => .error (mismatch "f64" d)

def option (decode : Decoder α) : Decoder (Option α)
  | .null => .ok none
  | d => (decode d).map some

/-- Decodes the items of a list. -/
def decodeAll (decode : Decoder α) : List Doc → Except Problem (List α)
  | [] => .ok []
  | d :: ds => do
    let a ← decode d
    return a :: (← decodeAll decode ds)

def endOf : Option Flaw → Except Problem Unit
  | none => .ok ()
  | some f => .error (.flaw f)

def list (decode : Decoder α) : Decoder (List α)
  | .arr items flaw => do
    let as ← decodeAll decode items
    endOf flaw
    return as
  | d => .error (mismatch "a sequence" d)

/-- Decodes the members of an object under any keys. -/
def decodeMembers (decode : Decoder α) : List (String × Doc) → Except Problem (List (String × α))
  | [] => .ok []
  | (k, d) :: ms => do
    let a ← decode d
    return (k, a) :: (← decodeMembers decode ms)

/-- An object with any keys. -/
def map (decode : Decoder α) : Decoder (List (String × α))
  | .obj members flaw => do
    let as ← decodeMembers decode members
    endOf flaw
    return as
  | d => .error (mismatch "a map" d)

/-- The value that a label stands for. -/
def ofLabel (table : List (String × α)) (label : String) : Except Problem α :=
  match table.find? (·.1 == label) with
  | some (_, a) => .ok a
  | none => .error (.unknownVariant label (table.map (·.1)))

/-- One of some labels. A label may also be the only key of an object, with the value `null`. -/
def label (table : List (String × α)) : Decoder α
  | .str s => ofLabel table s
  | .obj ((k, d) :: rest) flaw => do
    let a ← ofLabel table k
    match d with
    | .null => pure ()
    | d => throw (mismatch "unit" d)
    -- the label has to be the only key
    match rest, flaw with
    | [], none => return a
    | _, some .endInObject => throw (.flaw .endInObject)
    | _, _ => throw (.flaw .expectedValue)
  | .obj [] (some .endInObject) => .error (.flaw .endInValue)
  | .obj [] (some f) => .error (.flaw f)
  | .obj [] none => .error (.flaw .expectedValue)
  | .flawed f => .error (.flaw f)
  | .broken f => .error (.flaw f)
  | _ => .error (.flaw .expectedValue)

end Decode

namespace Json

variable {α β : Type}

/-! ## Records -/

/-- The members of a record that is read as an `α`. -/
structure Form (α : Type) where
  /-- What has been read of the members. -/
  Slots : Type
  empty : Slots
  count : Nat
  /-- Reads a member; nothing if there is no member of this name. -/
  put : String → Doc → Slots → Option (Except Problem Slots)
  build : Slots → Except Problem α
  /-- Reads the members from the front of a list; `wanted` words the expected length. -/
  take : (wanted : String) → List Doc → Option Flaw → Except Problem (α × List Doc)

namespace Form

/-- No members. -/
def start (a : α) : Form α where
  Slots := Unit
  empty := ()
  count := 0
  put _ _ _ := none
  build _ := .ok a
  take _ items _ := .ok (a, items)

/-- One more member; `missing` stands in for it in an object, `cut` in a list that is too short. -/
def member (f : Form (α → β)) (name : String) (decode : Decoder α) (missing cut : Option α) : Form β where
  Slots := f.Slots × Option α
  empty := (f.empty, none)
  count := f.count + 1
  put key d slots :=
    if key = name then
      match slots.2 with
      | some _ => some (.error (.duplicateField name))
      | none => some ((decode d).map fun a => (slots.1, some a))
    else (f.put key d slots.1).map fun r => r.map fun s => (s, slots.2)
  build slots := do
    let g ← f.build slots.1
    match slots.2.or missing with
    | some a => return g a
    | none => throw (.missingField name)
  take wanted items flaw := do
    let (g, items) ← f.take wanted items flaw
    match items with
    | d :: items => return (g (← decode d), items)
    | [] =>
      -- a list that breaks off is broken before it is too short
      match flaw, cut with
      | some e, _ => throw (.flaw e)
      | none, some a => return (g a, [])
      | none, none => throw (.wrongLength f.count wanted)

/-- A member that has to be there. -/
def req (f : Form (α → β)) (name : String) (decode : Decoder α) : Form β := f.member name decode none none

/-- A member that may be left out. -/
def opt (f : Form (Option α → β)) (name : String) (decode : Decoder α) : Form β :=
  f.member name (Decode.option decode) (some none) none

/-- A member with a value of its own where it is left out. -/
def dflt (f : Form (α → β)) (name : String) (decode : Decoder α) (value : α) : Form β :=
  f.member name decode (some value) (some value)

/-- Reads members one after the other. -/
def putAll (f : Form α) : List (String × Doc) → f.Slots → Except Problem f.Slots
  | [], slots => .ok slots
  | (k, d) :: ms, slots =>
    match f.put k d slots with
    | some r => do putAll f ms (← r)
    | none => do
      ignored d
      putAll f ms slots

/-- What is left of a list after the members of a record. -/
def closeList : List Doc → Option Flaw → Except Problem Unit
  | [], none => .ok ()
  | [], some .trailingComma => .error (.flaw .trailingComma)
  | [], some .endInList => .error (.flaw .endInList)
  | _, _ => .error (.flaw .trailingCharacters)

/-- Reads the record `name`. -/
def decode (f : Form α) (name : String) : Decoder α
  | .obj members flaw => do
    let slots ← f.putAll members f.empty
    Decode.endOf flaw
    f.build slots
  | .arr items flaw => do
    let wanted := "struct " ++ name ++ " with " ++ toString f.count ++ (if f.count = 1 then " element" else " elements")
    let (a, rest) ← f.take wanted items flaw
    closeList rest flaw
    return a
  | d => .error (Decode.mismatch ("struct " ++ name) d)

end Form

/-! ## Texts -/

/-- A decoder on a whole text. -/
def decodeText (decode : Decoder α) (s : String) : Except Problem α :=
  match Doc.ofText s with
  | (d, trailing) => do
    let a ← decode d
    Decode.endOf trailing
    return a

/-- A decoder on a value. -/
def decodeJson (decode : Decoder α) (j : Json) : Except Problem α := decode (Doc.ofJson j)

end Json

end CodeAtlas
