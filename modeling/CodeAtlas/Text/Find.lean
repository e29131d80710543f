/-!
# Finding a piece of text

Occurrences of a text in a text, from the left and from the right, and the cuts made there.

* `stripFront?_append`, `stripFront?_eq_some`: a front that is there can be taken off, and only such a one.
-/

namespace CodeAtlas.Text

/-- What follows `p` in a text that begins with it. -/
def stripFront? : List Char → List Char → Option (List Char)
  | [], s => some s
  | _ :: _, [] => none
  | a :: p, b :: s => if a = b then stripFront? p s else none

/-- Whether `s` begins with `p`. -/
def beginsWith (p s : List Char) : Bool := (stripFront? p s).isSome

/-- `p` occurs somewhere in the text. -/
def occursIn (p : List Char) : List Char → Bool
  | [] => beginsWith p []
  | c :: s => beginsWith p (c :: s) || occursIn p s

/-- The text around the first occurrence of `p`; `before` holds what was passed, last first. -/
def cutAt (p before : List Char) : List Char → Option (List Char × List Char)
  | [] => (stripFront? p []).map fun r => (before.reverse, r)
  | c :: s =>
    match stripFront? p (c :: s) with
    | some r => some (before.reverse, r)
    | none => cutAt p (c :: before) s

/-- The text before and after the first occurrence of `p`. -/
def cutFirst? (p s : List Char) : Option (List Char × List Char) := cutAt p [] s

/-- The text before and after the last occurrence of `p`. -/
def cutLast? (p s : List Char) : Option (List Char × List Char) :=
  -- the last occurrence is the first one from the other end
  (cutFirst? p.reverse s.reverse).map fun (a, b) => (b.reverse, a.reverse)

/-- The pieces between the occurrences of `p`, for a number of cuts. -/
def piecesWithin (p : List Char) : Nat → List (List Char) → List Char → List (List Char)
  | 0, acc, s => (s :: acc).reverse
  | n + 1, acc, s =>
    match cutFirst? p s with
    | some (a, b) => piecesWithin p n (a :: acc) b
    | none => (s :: acc).reverse

/-- The pieces between the occurrences of `p`, taken from the left without overlap. -/
def pieces (p s : List Char) : List (List Char) := piecesWithin p s.length [] s

/-- Whether `p` occurs in `s`. -/
def contains (s p : String) : Bool := occursIn p.toList s.toList

def startsWith (s p : String) : Bool := beginsWith p.toList s.toList

def endsWith (s p : String) : Bool := beginsWith p.toList.reverse s.toList.reverse

/-- `s` without `p` at its front. -/
def dropFront? (s p : String) : Option String := (stripFront? p.toList s.toList).map String.ofList

def splitFirst? (s p : String) : Option (String × String) :=
  (cutFirst? p.toList s.toList).map fun (a, b) => (String.ofList a, String.ofList b)

def splitLast? (s p : String) : Option (String × String) :=
  (cutLast? p.toList s.toList).map fun (a, b) => (String.ofList a, String.ofList b)

/-- The pieces between the occurrences of `p`. -/
def split (s p : String) : List String := (pieces p.toList s.toList).map String.ofList

/-- Drops `p` from the end as often as it stands there, for a number of times. -/
def dropBackWithin (p : List Char) : Nat → List Char → List Char
  | 0, s => s
  | n + 1, s =>
    match stripFront? p s with
    | some r => dropBackWithin p n r
    | none => s

/-- `s` without any of the copies of `p` at its end. -/
def dropBackAll (s p : String) : String :=
  if p.isEmpty then s
  else String.ofList (dropBackWithin p.toList.reverse s.length s.toList.reverse).reverse

/-- Every occurrence of `p`, from the left without overlap, written as `r`. -/
def replace (s p r : String) : String := r.intercalate (split s p)

theorem stripFront?_append (p s : List Char) : stripFront? p (p ++ s) = some s := by
  induction p with
  | nil => rfl
  | cons a p ih => simp [stripFront?, ih]

theorem stripFront?_eq_some {p s r : List Char} (h : stripFront? p s = some r) : s = p ++ r := by
  induction p generalizing s with
  | nil => simpa [stripFront?] using h
  | cons a p ih =>
    cases s with
    | nil => simp [stripFront?] at h
    | cons b s =>
      simp only [stripFront?] at h
      split at h
      · subst_vars; simp [ih h]
      · simp at h

end CodeAtlas.Text
