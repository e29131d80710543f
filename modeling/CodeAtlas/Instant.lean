import CodeAtlas.Json.Decode
import CodeAtlas.Text.Blank
import CodeAtlas.Text.Find

/-!
# Moments

A moment is a number of seconds from the start of 1970 with a fraction in nanoseconds. It is written as date
and time of day, with no fraction or with 3, 6 or 9 digits of it, and `Z` for the reference time zone. Reading
is more tolerant: blanks between the parts, any offset, and a second 60.

* `Instant.text`, `Instant.ofText`: writing and reading.
* `Instant.ofCivil`, `Instant.civil`: days and calendar dates.
-/

namespace CodeAtlas

/-- A moment. The fraction of a leap second is one second and more. -/
structure Instant where
  second : Int
  nano : Nat
deriving DecidableEq, Repr, Inhabited

namespace Instant

/-- Whether a moment is at or before another. -/
def le (a b : Instant) : Bool := a.second < b.second || (a.second = b.second && a.nano ≤ b.nano)

/-! ## The calendar -/

def isLeapYear (year : Int) : Bool := year % 4 = 0 && (year % 100 ≠ 0 || year % 400 = 0)

def daysInMonth (year : Int) (month : Nat) : Nat :=
  if month = 2 then (if isLeapYear year then 29 else 28)
  else if [4, 6, 9, 11].contains month then 30 else 31

/-- The number of a day, counted from the start of 1970. A year is taken to begin with March. -/
def ofCivil (year : Int) (month day : Nat) : Int :=
  let y := if month ≤ 2 then year - 1 else year
  let era := y / 400
  let yearOfEra := y - era * 400
  let shifted : Int := ((month + 9) % 12 : Nat)
  let dayOfYear := (153 * shifted + 2) / 5 + day - 1
  let dayOfEra := yearOfEra * 365 + yearOfEra / 4 - yearOfEra / 100 + dayOfYear
  era * 146097 + dayOfEra - 719468

/-- The date of a day. -/
def civil (days : Int) : Int × Nat × Nat :=
  let z := days + 719468
  let era := z / 146097
  let dayOfEra := z - era * 146097
  let yearOfEra := (dayOfEra - dayOfEra / 1460 + dayOfEra / 36524 - dayOfEra / 146096) / 365
  let dayOfYear := dayOfEra - (365 * yearOfEra + yearOfEra / 4 - yearOfEra / 100)
  let shifted := (5 * dayOfYear + 2) / 153
  let day := dayOfYear - (153 * shifted + 2) / 5 + 1
  let month := if shifted < 10 then shifted + 3 else shifted - 9
  let year := yearOfEra + era * 400 + (if month ≤ 2 then 1 else 0)
  (year, month.toNat, day.toNat)

/-! ## Writing -/

/-- A number with at least so many digits. -/
def padded (width n : Nat) : String :=
  let digits := Nat.toDigits 10 n
  String.ofList (List.replicate (width - digits.length) '0' ++ digits)

/-- A year; outside of 0 to 9999 it has a sign. -/
def yearText (year : Int) : String :=
  if 0 ≤ year && year ≤ 9999 then padded 4 year.toNat
  else (if year < 0 then "-" else "+") ++ padded 4 year.natAbs

def fractionText (nano : Nat) : String :=
  if nano = 0 then ""
  else if nano % 1000000 = 0 then "." ++ padded 3 (nano / 1000000)
  else if nano % 1000 = 0 then "." ++ padded 6 (nano / 1000)
  else "." ++ padded 9 nano

def text (i : Instant) : String :=
  let days := i.second / 86400
  let time := (i.second % 86400).toNat
  let (year, month, day) := civil days
  -- a leap second is the second before it with more than a second's nanoseconds
  let leap := 1000000000 ≤ i.nano
  let second := time % 60 + (if leap then 1 else 0)
  yearText year ++ "-" ++ padded 2 month ++ "-" ++ padded 2 day ++ "T" ++
    padded 2 (time / 3600) ++ ":" ++ padded 2 (time / 60 % 60) ++ ":" ++ padded 2 second ++
    fractionText (if leap then i.nano - 1000000000 else i.nano) ++ "Z"

/-! ## Reading -/

/-- Why a text is no moment. -/
inductive Fault where
  | outOfRange
  | notEnough
  | invalid
  | tooShort
  | tooLong
deriving DecidableEq, Repr

def Fault.message : Fault → String
  | .outOfRange => "input is out of range"
  | .notEnough => "input is not enough for unique date and time"
  | .invalid => "input contains invalid characters"
  | .tooShort => "premature end of input"
  | .tooLong => "trailing input"

/-- Reads from the front of a text. -/
abbrev Part (α : Type) := StateT (List Char) (Except Fault) α

def dropBlanks : Part Unit := modify (·.dropWhile Text.isBlank)

/-- A number of one digit or more, up to a count of digits. -/
def number (most : Nat) : Part Nat := do
  let s ← get
  let digits := (s.take most).takeWhile Char.isDigit
  if s.isEmpty then throw .tooShort
  if digits.isEmpty then throw .invalid
  let n := digits.foldl (fun n c => n * 10 + (c.toNat - '0'.toNat)) 0
  if Nat.pow 2 63 ≤ n then throw .outOfRange
  set (s.drop digits.length)
  return n

/-- A number of at most two digits within bounds. -/
def field (low high : Nat) : Part Nat := do
  dropBlanks
  let n ← number 2
  if low ≤ n && n ≤ high then return n else throw .outOfRange

/-- A mark that has to stand here. -/
def mark (c : Char) : Part Unit := do
  dropBlanks
  match ← get with
  | [] => throw .tooShort
  | d :: r => if d = c then set r else throw .invalid

/-- A year of up to four digits, or of more after a sign. -/
def year : Part Int := do
  dropBlanks
  let s ← get
  let y : Int ← match s with
    | '-' :: r => do
      set r
      pure (-(← number r.length : Int))
    | '+' :: r => do
      set r
      pure (← number r.length : Int)
    | _ => pure (← number 4 : Int)
  if y < -2147483648 || 2147483648 ≤ y then throw .outOfRange
  return y

/-- The digits after a point, as nanoseconds; those after the ninth are passed. -/
def fraction : Part Nat := do
  match ← get with
  | '.' :: r =>
    set r
    let before := (r.take 9).takeWhile Char.isDigit
    let n ← number 9
    modify (·.dropWhile Char.isDigit)
    return n * Nat.pow 10 (9 - before.length)
  | _ => return 0

def twoDigits : Part (Char × Char) := do
  match ← get with
  | a :: b :: r =>
    set r
    return (a, b)
  | s => if (String.ofList s).utf8ByteSize < 2 then throw .tooShort else throw .invalid

def digitValue (c : Char) : Nat := c.toNat - '0'.toNat

/-- The offset from the reference time zone, in seconds. -/
def offset : Part Int := do
  let s ← get
  if (s.take 3).map Char.toUpper = ['U', 'T', 'C'] then
    set (s.drop 3)
    return 0
  match s with
  | [] => throw .tooShort
  | c :: r =>
    if c = 'Z' || c = 'z' then
      set r
      return 0
    else if c = '+' || c = '-' || c.toNat = 0x2212 then
      set r
      let (h1, h2) ← twoDigits
      if !(h1.isDigit && h2.isDigit) then throw .invalid
      modify (·.dropWhile fun c => c = ':' || Text.isBlank c)
      let (m1, m2) ← twoDigits
      if !(m1.isDigit && m2.isDigit) then throw .invalid
      if '6' ≤ m1 then throw .outOfRange
      let seconds : Int := (digitValue h1 * 10 + digitValue h2) * 3600 + (digitValue m1 * 10 + digitValue m2) * 60
      return if c = '+' then seconds else -seconds
    else throw .invalid

/-- Date, time and offset, with what stands between them. -/
def moment : Part Instant := do
  let y ← year
  mark '-'
  let m ← field 1 12
  mark '-'
  let d ← field 1 31
  match ← get with
  | [] => throw .notEnough
  | c :: r => if c = 't' || c = 'T' || c = ' ' then set r else throw .invalid
  let h ← field 0 23
  mark ':'
  let min ← field 0 59
  mark ':'
  let s ← field 0 60
  let n ← fraction
  dropBlanks
  -- a moment without an offset is not one
  if (← get).isEmpty then throw .notEnough
  let o ← offset
  dropBlanks
  if !(← get).isEmpty then throw .tooLong
  if y < -262143 || 262142 < y || daysInMonth y m < d then throw .outOfRange
  if 86400 ≤ o.natAbs then throw .outOfRange
  let time : Int := h * 3600 + min * 60 + (if s = 60 then 59 else s)
  return ⟨ofCivil y m d * 86400 + time - o, if s = 60 then n + 1000000000 else n⟩

/-- Reads a moment. -/
def ofText (text : String) : Except Fault Instant := (moment.run text.toList).map (·.1)

def encode (i : Instant) : Json := .str i.text

def decode : Json.Decoder Instant
  | .str s => (ofText s).mapError fun f => .rule f.message
  | d => .error (Decode.mismatch "an RFC 3339 formatted date and time string" d)

end Instant

end CodeAtlas
