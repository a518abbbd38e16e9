/-
Module: ComponentTemplates.Text.Blank
Purpose: White space as Unicode's `White_Space` property defines it, and the ways the library removes
  it: at both ends of a text, or everywhere.
Main exports: isBlank, dropTrailing, trimBlank, trim, removeBlanks
-/

namespace ComponentTemplates.Text

/-- The code points with the property `White_Space`, as inclusive ranges in ascending order. -/
def blankRanges : List (Nat × Nat) :=
  [(0x09, 0x0D), (0x20, 0x20), (0x85, 0x85), (0xA0, 0xA0), (0x1680, 0x1680), (0x2000, 0x200A),
    (0x2028, 0x2029), (0x202F, 0x202F), (0x205F, 0x205F), (0x3000, 0x3000)]

/-- A character is blank iff one of the ranges holds its code point. -/
def isBlank (c : Char) : Bool :=
  blankRanges.any fun range => range.1 ≤ c.toNat && c.toNat ≤ range.2

/-- What is left of `cs` once its longest tail of `p`-characters is gone. -/
def dropTrailing (p : Char → Bool) (cs : List Char) : List Char :=
  (cs.reverse.dropWhile p).reverse

/-- `cs` without the `p`-characters at its two ends. -/
def dropAround (p : Char → Bool) (cs : List Char) : List Char :=
  dropTrailing p (cs.dropWhile p)

/-- `cs` without the blanks at its two ends. -/
def trimBlank (cs : List Char) : List Char :=
  dropAround isBlank cs

/-- A text without the blanks at its two ends. -/
def trim (text : String) : String :=
  String.ofList (trimBlank text.toList)

/-- A text with every blank taken out, which leaves markup comparable across layouts. -/
def removeBlanks (text : String) : String :=
  String.ofList (text.toList.filter fun c => !isBlank c)

end ComponentTemplates.Text
