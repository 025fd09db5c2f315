import Landform.Text.Printable

/-!
# Quoted text

How a text is shown inside a message. It stands between single quotes, or between double quotes
when it holds a single quote and no double quote. The backslash and the quote in use are escaped by
a backslash, line feed, carriage return and tab have short escapes, and every other character that
is not printable is written as the hexadecimal number of its code point, two, four or eight digits
wide.
-/

namespace Landform.Text

/-- The lower-case hexadecimal digits of a number, padded with zeros to at least `width`. -/
def hex (width value : Nat) : List Char :=
  let digits := Nat.toDigits 16 value
  List.replicate (width - digits.length) '0' ++ digits

/-- One character of a quoted text, given the quote in use. -/
def quoteChar (quote c : Char) : List Char :=
  if c == quote || c == '\\' then ['\\', c]
  else if c == '\n' then ['\\', 'n']
  else if c == '\r' then ['\\', 'r']
  else if c == '\t' then ['\\', 't']
  else if isPrintable c then [c]
  else if c.toNat < 256 then '\\' :: 'x' :: hex 2 c.toNat
  else if c.toNat < 65536 then '\\' :: 'u' :: hex 4 c.toNat
  else '\\' :: 'U' :: hex 8 c.toNat

/-- The quote that encloses a text: the double quote only for a text with single quotes and no
double quotes. -/
def quoteFor (text : List Char) : Char :=
  if text.contains '\'' && !text.contains '"' then '"' else '\''

/-- A text between quotes, with its escapes. -/
def quoted (text : String) : String :=
  let quote := quoteFor text.toList
  String.ofList (quote :: text.toList.flatMap (quoteChar quote) ++ [quote])

end Landform.Text
