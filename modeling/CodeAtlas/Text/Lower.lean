import CodeAtlas.Text.CaseTable

/-!
# Lowercase text

Lowercasing over the whole Unicode range. One character has a lowercase form that hangs on its place:
a capital sigma is written `ς` at the end of a word and `σ` elsewhere.

* `lowerChar`, `lowerFrom`: one character by itself, and a text with what stands around its sigmas.
* `lower`: the lowercase form of a text.
-/

namespace CodeAtlas.Text

/-- Membership in a list of ranges. -/
def inRanges (rs : List (Nat × Nat)) (c : Char) : Bool :=
  rs.any fun r => r.1 ≤ c.toNat && c.toNat ≤ r.2

def isCased (c : Char) : Bool := inRanges cased c

def isCaseIgnorable (c : Char) : Bool := inRanges caseIgnorable c

/-- The lowercase form of one character by itself. -/
def lowerChar (c : Char) : List Char :=
  if c.toNat < 0x80 then [c.toLower]
  else if c.toNat = 0x130 then ['i', Char.ofNat 0x307]
  else
    match lowerRuns.find? fun r => r.1 ≤ c.toNat && c.toNat ≤ r.2.1 && (c.toNat - r.1) % r.2.2.1 == 0 with
    | some r => [Char.ofNat ((c.toNat : Int) + r.2.2.2).toNat]
    | none => [c]

/-- The first character that is not ignored for case has case. -/
def meetsCased (s : List Char) : Bool :=
  match s.find? fun c => !isCaseIgnorable c with
  | some c => isCased c
  | none => false

/-- Lowercases a text of which `done` (nearest character first) has been read and `out` (last
character first) has been written. -/
def lowerFrom (done out : List Char) : List Char → List Char
  | [] => out.reverse
  | c :: rest =>
    if c = 'Σ' then
      -- a word has come before, and none goes on after
      let form := if meetsCased done && !meetsCased rest then 'ς' else 'σ'
      lowerFrom (c :: done) (form :: out) rest
    else lowerFrom (c :: done) ((lowerChar c).reverse ++ out) rest

def lowerChars (s : List Char) : List Char := lowerFrom [] [] s

/-- The lowercase form of a text. -/
def lower (s : String) : String := String.ofList (lowerChars s.toList)

/-- The lowercase form that changes the letters `A` to `Z` only. -/
def lowerAscii (s : String) : String := String.ofList (s.toList.map Char.toLower)

/-- Equality of texts that ignores the case of the letters `A` to `Z`. -/
def equalIgnoringAsciiCase (a b : String) : Bool := lowerAscii a == lowerAscii b

end CodeAtlas.Text
