/-!
# Blank characters

The characters with the Unicode property `White_Space`, and what is done at them: trimming both ends
and splitting into words.

* `trim`, `words`: a text without the blanks at its ends, and the words of a text.
-/

namespace CodeAtlas.Text

/-- The property `White_Space`. -/
def isBlank (c : Char) : Bool :=
  let n := c.toNat
  n == 0x20 || (0x09 ≤ n && n ≤ 0x0D) || n == 0x85 || n == 0xA0 || n == 0x1680 ||
    (0x2000 ≤ n && n ≤ 0x200A) || n == 0x2028 || n == 0x2029 || n == 0x202F || n == 0x205F ||
    n == 0x3000

/-- Drops the characters of a class from both ends. -/
def trimChars (p : Char → Bool) (s : List Char) : List Char :=
  ((s.dropWhile p).reverse.dropWhile p).reverse

/-- Drops the characters of a class from both ends. -/
def trimOf (p : Char → Bool) (s : String) : String := String.ofList (trimChars p s.toList)

/-- Drops blanks from both ends. -/
def trim (s : String) : String := trimOf isBlank s

/-- A text without any character that is not blank. -/
def isAllBlank (s : String) : Bool := s.toList.all isBlank

/-- Splits at each character of a class; `word` holds the current piece, last character first. -/
def splitAtEach (p : Char → Bool) (word : List Char) (pieces : List (List Char)) :
    List Char → List (List Char)
  | [] => (word.reverse :: pieces).reverse
  | c :: r =>
    if p c then splitAtEach p [] (word.reverse :: pieces) r else splitAtEach p (c :: word) pieces r

/-- The pieces between the characters of a class, empty ones included. -/
def splitBy (p : Char → Bool) (s : String) : List String :=
  (splitAtEach p [] [] s.toList).map String.ofList

/-- The longest pieces without a blank. -/
def words (s : String) : List String := (splitBy isBlank s).filter (· ≠ "")

end CodeAtlas.Text
