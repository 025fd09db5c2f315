import Landform.Text.Runs

/-!
# Blank characters

A blank is white space of any script or one of the four information separators; the zero-width
space is none. `trim` drops blanks at both ends, `isBlankText` holds of the texts that consist of
blanks, and `fields` cuts a text at its runs of blanks.
-/

namespace Landform.Text

/-- Whether a character is blank. -/
def isBlank (c : Char) : Bool :=
  let code := c.toNat
  (9 ≤ code && code ≤ 13) || (28 ≤ code && code ≤ 32) || code == 133 || code == 160 ||
    code == 5760 || (8192 ≤ code && code ≤ 8202) || code == 8232 || code == 8233 ||
    code == 8239 || code == 8287 || code == 12288

/-- A text without the blanks at its two ends. -/
def trimList (text : List Char) : List Char :=
  ((text.dropWhile isBlank).reverse.dropWhile isBlank).reverse

/-- A text without the blanks at its two ends. -/
def trim (text : String) : String :=
  String.ofList (trimList text.toList)

/-- Whether a text consists of blanks; the empty text does. -/
def isBlankText (text : String) : Bool :=
  text.toList.all isBlank

/-- The parts of a text between its blanks and the further separators of `isGap`. -/
def fields (isGap : Char → Bool) (text : String) : List String :=
  runs (fun c => !isBlank c && !isGap c) text.toList

end Landform.Text
