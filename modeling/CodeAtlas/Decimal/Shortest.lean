/-!
# Decimal text of binary fractions

A binary fraction `m · 2 ^ q` stands for every real that rounds to it. Its text is the shortest decimal among
those, the nearest of the shortest if there are several.

* `Binary.ofFloat?`: the fraction that a finite float is.
* `Binary.shortest`: its digits and their scale.
* `roundDiv`: quotients rounded to whole numbers, ties to the even neighbour.
-/

namespace CodeAtlas.Decimal

/-- A positive binary fraction `mantissa · 2 ^ exponent`. Below a power of two the next smaller fraction is
only half as far away as the next larger one; `narrow` says that this is such a power. -/
structure Binary where
  mantissa : Nat
  exponent : Int
  narrow : Bool := false
deriving Repr, DecidableEq

/-- The fraction that a float is, without its sign; nothing for zero, infinities and what is no number. -/
def Binary.ofFloat? (x : Float) : Option Binary :=
  let bits : Nat := x.toBits.toNat
  let field : Nat := bits / Nat.pow 2 52 % Nat.pow 2 11
  let low : Nat := bits % Nat.pow 2 52
  if field = 2047 then none
  else if field = 0 then
    -- a subnormal float has no hidden bit
    if low = 0 then none else some { mantissa := low, exponent := -1074 }
  else some { mantissa := Nat.pow 2 52 + low, exponent := (field : Int) - 1075, narrow := low = 0 && field ≠ 1 }

/-- A fraction over a common denominator. -/
structure Scaled where
  /-- Four times the value, times the denominator. -/
  value : Nat
  /-- The ends of the interval of reals that round to the value, on the same scale. -/
  low : Nat
  high : Nat
  denominator : Nat

/-- Value and interval over a denominator that makes them whole. -/
def Binary.scaled (b : Binary) : Scaled :=
  let up := Nat.pow 2 b.exponent.toNat
  let value := 4 * b.mantissa * up
  { value, low := value - (if b.narrow then 1 else 2) * up, high := value + 2 * up,
    denominator := 4 * Nat.pow 2 (-b.exponent).toNat }

/-- The number of decimal digits. -/
def digitCount (n : Nat) : Nat := (Nat.toDigits 10 n).length

/-- The power of ten just above a quotient: the least `k` with `n / d < 10 ^ k`. -/
def scaleOf (n d : Nat) : Int :=
  let k : Int := (digitCount n : Int) - digitCount d
  -- the numbers of digits leave only this one and the next
  if n * Nat.pow 10 (-k).toNat < d * Nat.pow 10 k.toNat then k else k + 1

/-- The digits and scale of the best decimal with a number of digits, if one lies in the interval. -/
def bestWith? (s : Scaled) (closed : Bool) (top : Int) (digits : Nat) : Option (Nat × Int) :=
  let k : Int := top - digits
  -- on the scale of the candidates the unit is `10 ^ k`
  let up := Nat.pow 10 (-k).toNat
  let down := Nat.pow 10 k.toNat * s.denominator
  let below := s.value * up / down
  let fits (d : Nat) : Bool :=
    let place := d * down
    if closed then s.low * up ≤ place && place ≤ s.high * up else s.low * up < place && place < s.high * up
  let belowGap := s.value * up - below * down
  let aboveGap := (below + 1) * down - s.value * up
  let aboveNearer := aboveGap < belowGap || (aboveGap = belowGap && below % 2 = 1)
  match fits below && below ≠ 0, fits (below + 1) with
  | true, true => some (if aboveNearer then below + 1 else below, k)
  | true, false => some (below, k)
  | false, true => some (below + 1, k)
  | false, false => none

/-- The digits `d` and the scale `k` of the shortest decimal `d · 10 ^ k` that rounds to the fraction. -/
def Binary.shortest (b : Binary) : Nat × Int :=
  let s := b.scaled
  let top := scaleOf s.value s.denominator
  -- ties go to the even mantissa, so the ends of its interval belong to it
  let closed := b.mantissa % 2 = 0
  ((List.range 17).findSome? fun n => bestWith? s closed top (n + 1)).getD (0, 0)

/-- A decimal without the zeros at the end of its digits. -/
def dropZeros : Nat → Nat × Int → Nat × Int
  | 0, p => p
  | n + 1, (d, k) => if d ≠ 0 && d % 10 = 0 then dropZeros n (d / 10, k + 1) else (d, k)

/-- A quotient rounded to a whole number; a tie goes to the even neighbour. -/
def roundDiv (n d : Nat) : Nat :=
  let q := n / d
  let twice := 2 * (n % d)
  if twice < d then q
  else if d < twice then q + 1
  else if q % 2 = 0 then q else q + 1

/-- A float rounded to a whole number, as text. -/
def wholeText (x : Float) : String :=
  if x.isNaN then "NaN"
  else
    let sign := if x.toBits.toNat / Nat.pow 2 63 = 1 then "-" else ""
    if x.isInf then sign ++ "inf"
    else
      match Binary.ofFloat? x with
      | none => sign ++ "0"
      | some b => sign ++ toString (roundDiv (b.mantissa * Nat.pow 2 b.exponent.toNat) (Nat.pow 2 (-b.exponent).toNat))

end CodeAtlas.Decimal
