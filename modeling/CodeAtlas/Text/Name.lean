import CodeAtlas.Text.Lower
import CodeAtlas.Text.NameTable

/-!
# Names

The classes of the characters that a programming language's names are made of.
-/

namespace CodeAtlas.Text

/-- A letter or `_`, by the property `XID_Start`. -/
def isNameStart (c : Char) : Bool :=
  if c.toNat < 0x80 then c.isAlpha || c == '_' else inRanges nameStart c

/-- By the property `XID_Continue`. -/
def isNameMore (c : Char) : Bool :=
  if c.toNat < 0x80 then c.isAlphanum || c == '_' else inRanges nameStart c || inRanges nameMore c

end CodeAtlas.Text
