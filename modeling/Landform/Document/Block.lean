import Landform.Document.Flow
import Landform.Error
import Landform.Text.Quoted

/-!
# Block layout

Data is laid out one field or item a line, and indentation shows what belongs to what. The lines of
an object in a field are indented by two, those of a list in a field are not, and an item starts
with a hyphen. A text stands without quotes wherever that is unambiguous. `block` lays data out, and
`read?` reads such a layout as well as values in brackets.
-/

namespace Landform.Document

open Decimal Text

/-- A line of a document: the number of spaces before it, and what follows them. -/
structure Line where
  indent : Nat
  content : List Char
deriving Repr, DecidableEq

/-- A line moved to the right. -/
def Line.shift (width : Nat) (line : Line) : Line :=
  { line with indent := line.indent + width }

/-! ## Scalars -/

/-- Whether a character can only be written by an escape. -/
def needsEscape (c : Char) : Bool :=
  let code := c.toNat
  !((32 ≤ code && code ≤ 126) || code == 133 || (160 ≤ code && code < 55296) ||
      (57344 ≤ code && code ≤ 65533 && code != 65279) || (65536 ≤ code && code < 1114111)) ||
    code == 133 || code == 8232 || code == 8233

/-- A character between double quotes. -/
def escaped (c : Char) : List Char :=
  match escapes.find? (fun entry => entry.2 == c.toNat && entry.1 != '/') with
  | some (letter, _) => ['\\', letter]
  | none =>
    if !needsEscape c then [c]
    else
      let digits := fun width => (hex width c.toNat).map Char.toUpper
      if c.toNat < 256 then '\\' :: 'x' :: digits 2
      else if c.toNat < 65536 then '\\' :: 'u' :: digits 4
      else '\\' :: 'U' :: digits 8

/-- Whether a colon before a space or at the end, or a number sign after a space, occurs in a
text. -/
def hasMark : Bool → List Char → Bool
  | _, [] => false
  | afterSpace, c :: rest =>
    (c == ':' && isBreak rest) || (c == '#' && afterSpace) || hasMark (isSpace c) rest

/-- Whether a text cannot stand without quotes because of its characters. -/
def isMarked (text : List Char) : Bool :=
  text.take 3 == ['-', '-', '-'] || text.take 3 == ['.', '.', '.'] ||
    text.head?.any isIndicator || text.head?.any isSpace || text.getLast?.any isSpace ||
    ((text.head? == some '-' || text.head? == some '?') && isBreak (text.drop 1)) ||
    hasMark true text

/-- A text as it is written: without quotes, between single quotes, or between double quotes with
escapes. -/
def textOf (s : String) : List Char :=
  let text := s.toList
  if text.any needsEscape then '"' :: text.flatMap escaped ++ ['"']
  else if isMarked text || isAmbiguous s then
    '\'' :: text.flatMap (fun c => if c == '\'' then ['\'', '\''] else [c]) ++ ['\'']
  else text

/-- A double, with a point wherever there is an exponent. -/
def numberText (x : Float) : List Char :=
  match form x with
  | .notANumber => ['.', 'n', 'a', 'n']
  | .infinite negative => if negative then ['-', '.', 'i', 'n', 'f'] else ['.', 'i', 'n', 'f']
  | .finite .. =>
    let text := (written x).toList
    if text.contains '.' then text
    else text.flatMap fun c => if c == 'e' then ['.', '0', 'e'] else [c]

/-- A value that needs no line of its own; a list or an object is empty here. -/
def scalarOf : Value → List Char
  | .null => "null".toList
  | .bool b => (if b then "true" else "false").toList
  | .int n => (integerText n).toList
  | .float x => numberText x
  | .text s => textOf s
  | .list _ => ['[', ']']
  | .object _ => ['\x7b', '\x7d']

/-! ## Writing -/

/-- The lines of a field from the lines of its value. -/
def fieldOf (name : String) (value : Value) (lines : List Line) : List Line :=
  let head := textOf name ++ [':']
  match value with
  | .object (_ :: _) => ⟨0, head⟩ :: lines.map (Line.shift 2)
  | .list (_ :: _) => ⟨0, head⟩ :: lines
  | value => [⟨0, head ++ ' ' :: scalarOf value⟩]

/-- The lines of an item from the lines of its value. -/
def itemOf : List Line → List Line
  | [] => []
  | first :: rest => ⟨0, '-' :: ' ' :: first.content⟩ :: rest.map (Line.shift 2)

mutual

/-- The lines of a value. -/
def linesOf : Value → List Line
  | .object (field :: rest) => fieldLines (field :: rest)
  | .list (item :: rest) => itemLines (item :: rest)
  | value => [⟨0, scalarOf value⟩]

/-- The lines of the items of a list. -/
def itemLines : List Value → List Line
  | [] => []
  | item :: rest => itemOf (linesOf item) ++ itemLines rest

/-- The lines of the fields of an object. -/
def fieldLines : List (String × Value) → List Line
  | [] => []
  | (name, value) :: rest => fieldOf name value (linesOf value) ++ fieldLines rest

end

/-- A line with its indentation and the line feed. -/
def Line.render (line : Line) : List Char :=
  List.replicate line.indent ' ' ++ line.content ++ ['\n']

/-- Data in block layout. -/
def block (value : Value) : String :=
  String.ofList ((linesOf value).flatMap Line.render)

/-! ## Reading -/

/-- The lines of a text; the first argument is the reversed start of the line. -/
def cutLines : List Char → List Char → List (List Char)
  | line, [] => [line.reverse]
  | line, c :: rest =>
    if c == '\n' then line.reverse :: cutLines [] rest else cutLines (c :: line) rest

/-- A line from its text. -/
def Line.ofText (text : List Char) : Line :=
  ⟨(text.takeWhile (· == ' ')).length, trimEnd (text.dropWhile (· == ' '))⟩

/-- Whether a line holds anything but a comment. -/
def Line.isFilled (line : Line) : Bool :=
  !line.content.isEmpty && line.content.head? != some '#'

/-- The lines of a document that hold anything. -/
def filledLines (text : List Char) : List Line :=
  ((cutLines [] text).map Line.ofText).filter Line.isFilled

/-- Whether a line starts an item. -/
def Line.isItem (line : Line) : Bool :=
  match line.content with
  | '-' :: rest => isBreak rest
  | _ => false

/-- The first line of an item without its hyphen; nothing if the hyphen stands alone. -/
def Line.ofItem (line : Line) : List Line :=
  let rest := line.content.drop 1
  let spaces := (rest.takeWhile (· == ' ')).length
  let content := rest.drop spaces
  if content.isEmpty then [] else [⟨line.indent + 1 + spaces, content⟩]

/-- The name of the field that a line starts, and what follows its colon. -/
def Line.field? (line : Line) : Option (String × List Char) := do
  match line.content with
  | '[' :: _ | '\x7b' :: _ => none
  | content =>
    let (name, rest) ← key? false content
    match skipSpace rest with
    | ':' :: rest => if isBreak rest then return (name, skipSpace rest) else none
    | _ => none

/-- Cuts lines before each line that starts an entry. The lines before the first entry come
apart. -/
def entriesOf (starts : Line → Bool) (lines : List Line) :
    List Line × List (Line × List Line) :=
  lines.foldr (fun line (leading, entries) =>
    if starts line then ([], (line, leading) :: entries) else (line :: leading, entries)) ([], [])

/-- The value of lines that belong together. The first argument bounds the nesting. -/
def ofLines? : Nat → List Line → Option Value
  | 0, _ => none
  | _, [] => some .null
  | depth + 1, first :: rest => do
    let lines := first :: rest
    if lines.any (·.indent < first.indent) then none
    if first.isItem then
      let (_, entries) := entriesOf (·.indent == first.indent) lines
      if !entries.all (·.1.isItem) then none
      let items ← entries.mapM fun entry => ofLines? depth (entry.1.ofItem ++ entry.2)
      return .list items
    else if first.field?.isSome then
      let (_, entries) := entriesOf (fun line => line.indent == first.indent && !line.isItem) lines
      let fields ← entries.mapM fun entry => do
        let (name, inline) ← entry.1.field?
        if inline.isEmpty || inline.head? == some '#' then
          return (name, ← ofLines? depth entry.2)
        else if entry.2.isEmpty then return (name, ← valueOf? inline)
        else none
      if (fields.map (·.1)).Nodup then return .object fields else none
    else if rest.isEmpty then valueOf? first.content
    else none

/-- The value of a document. -/
def read? (text : String) : Option Value :=
  match skipSpace text.toList with
  | '[' :: _ | '\x7b' :: _ => valueOf? text.toList
  | _ => ofLines? (text.length + 2) (filledLines text.toList)

/-- The data of a document. An empty document is an empty object, and a document that is a single
text holds, like a list of names, a field of that name. -/
def ofText (text : String) : Except Error Value :=
  match read? text with
  | none => .error .unreadable
  | some .null => .ok (.object [])
  | some (.text s) => .ok (.object [(s, .null)])
  | some (.object fields) => .ok (.object fields)
  | some (.list items) => .ok (.list items)
  | some value => .error (.notADocument value.typeName)

end Landform.Document
