import CodeAtlas.Json.Decode
import CodeAtlas.Text.Find

/-!
# Identifiers

Records are known by numbers of 128 bits, written as 32 hexadecimal digits in five groups. They are read in
that form, in braces, as a `urn`, or without hyphens; letters may be of either case.

* `Ident.text`, `Ident.ofText`: the written form and the reading of it.
* `Ident.Fault`: why a text is no identifier.
-/

namespace CodeAtlas

/-- The name of a record. -/
structure Ident where
  bits : BitVec 128
deriving DecidableEq, Repr

namespace Ident

instance : Inhabited Ident := ⟨⟨0⟩⟩

/-- The lengths of the groups of digits. -/
def groups : List Nat := [8, 4, 4, 4, 12]

/-- The hexadecimal digits of a number, from the highest of a count of them down. -/
def hexDigits : Nat → Nat → List Char
  | 0, _ => []
  | count + 1, n => hexDigits count (n / 16) ++ [Nat.digitChar (n % 16)]

/-- Digits in groups with hyphens between them. -/
def hyphenate : List Nat → List Char → List Char
  | [], digits => digits
  | [_], digits => digits
  | g :: gs, digits => digits.take g ++ '-' :: hyphenate gs (digits.drop g)

def text (i : Ident) : String := String.ofList (hyphenate groups (hexDigits 32 i.bits.toNat))

/-- Why a text is no identifier. -/
inductive Fault where
  | character (c : Char) (place : Nat)
  | simpleLength (length : Nat)
  | groupCount (count : Nat)
  | groupLength (group length : Nat)
deriving DecidableEq, Repr

def Fault.message : Fault → String
  | .character c place => "invalid character: found \x60" ++ String.singleton c ++ "\x60 at " ++ toString place
  | .simpleLength n => "invalid length: expected length 32 for simple format, found " ++ toString n
  | .groupCount n => "invalid group count: expected 5, found " ++ toString n
  | .groupLength g n =>
    "invalid group length in group " ++ toString g ++ ": expected " ++ toString (groups.getD g 0) ++ ", found " ++
      toString n

/-- The number that hexadecimal digits stand for. -/
def ofDigits? (digits : List Char) : Option Ident :=
  (digits.foldlM (fun n c => (Json.hexDigit? c).map (n * 16 + ·)) 0).map fun n => ⟨BitVec.ofNat 128 n⟩

/-- Removes the hyphens after the groups; nothing if another character stands in a hyphen's place. -/
def joinGroups? : List Nat → List Char → Option (List Char)
  | [], _ => none
  | [g], s => if s.length = g then some s else none
  | g :: gs, s =>
    match s.drop g with
    | '-' :: r => (joinGroups? gs r).map (s.take g ++ ·)
    | _ => none

/-- The part of a text that holds the digits, where it begins, and whether hyphens may be missing. -/
def body (s : List Char) : List Char × Nat × Bool :=
  match s with
  | '{' :: r => if r.getLast? = some '}' then (r.dropLast, 1, false) else (s, 0, true)
  | _ =>
    match Text.stripFront? "urn:uuid:".toList s with
    | some r => (r, 9, false)
    | none => (s, 0, true)

/-- The first character that stands in no identifier, with its place in bytes. -/
def strayCharacter? (place : Nat) : List Char → Option Fault
  | [] => none
  | c :: r =>
    if c = '-' || (Json.hexDigit? c).isSome then strayCharacter? (place + c.utf8Size) r
    else some (.character c place)

/-- The first group of the wrong length; the last group is the fault if the others are of their length. -/
def wrongGroup (number : Nat) : List Nat → List (List Char) → Nat → Fault
  | g :: gs@(_ :: _), p :: ps, whole =>
    if p.length ≠ g then .groupLength number p.length else wrongGroup (number + 1) gs ps (whole - (g + 1))
  | _, _, whole => .groupLength number whole

/-- What is wrong with a text that is no identifier. -/
def fault (s : List Char) : Fault :=
  let (digits, start, simple) := body s
  match strayCharacter? start digits with
  | some f => f
  | none =>
    let pieces := Text.pieces ['-'] digits
    if pieces.length = 1 && simple then .simpleLength s.length
    else if pieces.length ≠ 5 then .groupCount pieces.length
    else wrongGroup 0 groups pieces s.length

/-- Reads an identifier. -/
def ofText (text : String) : Except Fault Ident :=
  let s := text.toList
  let (digits, _, simple) := body s
  let read :=
    -- only a text of 32 bytes is read without hyphens
    if simple && text.utf8ByteSize = 32 then ofDigits? digits else (joinGroups? groups digits).bind ofDigits?
  match read with
  | some i => .ok i
  | none => .error (fault s)

def encode (i : Ident) : Json := .str i.text

def decode : Json.Decoder Ident
  | .str s => (ofText s).mapError fun f => .rule ("UUID parsing failed: " ++ f.message)
  | d => .error (Decode.mismatch "a UUID string" d)

end Ident

end CodeAtlas
