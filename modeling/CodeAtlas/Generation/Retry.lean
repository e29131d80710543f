import CodeAtlas.Decimal.Shortest
import CodeAtlas.Generation.Basic

/-!
# Trying again

A request that fails in a way that may pass is sent again after a delay. Delays grow by a factor and have a
bound; durations are whole numbers of nanoseconds.

* `Policy.delay`: the delay after a failed attempt, or why there is none.
* `Policy.run`: the attempts for one request.
-/

namespace CodeAtlas.Retry

structure Policy where
  /-- All attempts, the first included. -/
  maxAttempts : Nat := 3
  initialDelay : Nat := 500000000
  multiplier : Float := 2.0
  maxDelay : Nat := 10000000000
deriving Repr, Inhabited

/-- Why a number of seconds is no duration. -/
inductive DelayFault where
  | negative
  | tooBig
deriving Repr, DecidableEq

def DelayFault.message : DelayFault → String
  | .negative => "cannot convert float seconds to Duration: value is negative"
  | .tooBig => "cannot convert float seconds to Duration: value is either too big or NaN"

/-- A power by repeated squaring, from the lowest binary digit of the exponent up. -/
def powerWithin : Nat → Float → Float → Nat → Float
  | 0, r, _, _ => r
  | n + 1, r, a, b =>
    let r := if b % 2 = 1 then r * a else r
    if b / 2 = 0 then r else powerWithin n r (a * a) (b / 2)

/-- A power with a whole exponent. -/
def power (a : Float) (e : Int) : Float :=
  let r := powerWithin 64 1.0 a e.natAbs
  if e < 0 then 1.0 / r else r

/-- A number modulo `2 ^ 32`, taken from `-2 ^ 31` to `2 ^ 31 - 1`. -/
def wrap32 (n : Nat) : Int := Int.bmod n (Nat.pow 2 32)

/-- The seconds of a duration. -/
def seconds (nanoseconds : Nat) : Float :=
  Float.ofNat (nanoseconds / 1000000000) + Float.ofNat (nanoseconds % 1000000000) / 1000000000.0

/-- A number of seconds as a duration, to the nearest nanosecond. It has to be below `2 ^ 64` seconds. -/
def ofSeconds (x : Float) : Except DelayFault Nat :=
  if x < 0.0 then .error .negative
  else if x.isNaN || x.isInf then .error .tooBig
  else
    match Decimal.Binary.ofFloat? x with
    | none => .ok 0
    | some b =>
      -- at most one of the two powers of the exponent is not 1, so nothing is rounded before the last step
      if Nat.pow 2 64 * Nat.pow 2 (-b.exponent).toNat ≤ b.mantissa * Nat.pow 2 b.exponent.toNat then .error .tooBig
      else .ok (Decimal.roundDiv (b.mantissa * Nat.pow 2 b.exponent.toNat * 1000000000) (Nat.pow 2 (-b.exponent).toNat))

namespace Policy

/-- The delay after an attempt, counted from 1. The bound comes after the product. -/
def delay (p : Policy) (attempt : Nat) : Except DelayFault Nat :=
  let factor := power p.multiplier (wrap32 (attempt - 1))
  (ofSeconds (factor * seconds p.initialDelay)).map (min · p.maxDelay)

end Policy

/-- What the attempts for a request came to. -/
structure Trial (σ : Type) where
  outcome : Except Failure String
  /-- The delays between the attempts. -/
  delays : List Nat := []
  state : σ

variable {σ : Type}

/-- Attempts from a number on, at most so many. A failed attempt that is not the last one has a delay. -/
def attemptsFrom (delay : Nat → Except DelayFault Nat) (last : Nat) (inner : Generator σ) (request : Request) :
    Nat → Nat → List Nat → σ → Except DelayFault (Trial σ)
  | 0, number, delays, state => .ok ⟨.error (.exhausted number ""), delays.reverse, state⟩
  | left + 1, number, delays, state =>
    match inner request state with
    | (.ok text, state) => .ok ⟨.ok text, delays.reverse, state⟩
    | (.error e, state) =>
      if !e.isRetryable then .ok ⟨.error e, delays.reverse, state⟩
      -- the last attempt is told from the others by its number, since one is made even where none is allowed
      else if last ≤ number then .ok ⟨.error (.exhausted number e.message), delays.reverse, state⟩
      else
        match delay number with
        | .error fault => .error fault
        | .ok d => attemptsFrom delay last inner request left (number + 1) (d :: delays) state

/-- The attempts for one request. There is at least one. -/
def Policy.run (p : Policy) (inner : Generator σ) (request : Request) (state : σ) : Except DelayFault (Trial σ) :=
  attemptsFrom p.delay p.maxAttempts inner request (max 1 p.maxAttempts) 1 [] state

end CodeAtlas.Retry
