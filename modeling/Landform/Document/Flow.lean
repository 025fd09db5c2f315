import Landform.Document.Plain

/-!
# Values on a line

A value within a document may be a text between quotes, a list between square brackets, an object
between braces, or a plain word. Brackets may span lines; JSON text is a special case. `value?`
reads one value at the start of a text and returns what follows it. Its first argument bounds the
number of nested steps; each step takes a character or is followed by one that does, so that twice
the length of the text suffices.
-/

namespace Landform.Document

/-! ## Quoted texts -/

/-- The letters after a backslash and the characters they stand for, in the order in which writers
look them up. -/
def escapes : List (Char × Nat) :=
  [('0', 0), ('a', 7), ('b', 8), ('t', 9), ('n', 10), ('v', 11), ('f', 12), ('r', 13), ('e', 27),
    ('"', 34), ('\\', 92), ('N', 133), ('_', 160), ('L', 8232), ('P', 8233), ('/', 47)]

/-- The text of UTF-16 units and code points: two surrogates in a row make one character. -/
def ofUnits : List Nat → List Char
  | high :: low :: rest =>
    if 55296 ≤ high && high < 56320 && 56320 ≤ low && low < 57344 then
      Char.ofNat (65536 + (high - 55296) * 1024 + (low - 56320)) :: ofUnits rest
    else Char.ofNat high :: ofUnits (low :: rest)
  | [unit] => [Char.ofNat unit]
  | [] => []

/-- The number of hexadecimal digits. -/
def hexadecimal? (digits : List Char) : Option Nat :=
  if digits.all fun c => digitOf c < 16 then some (valueIn 16 digits) else none

/-- The rest of a text after double quotes have been opened, as the units up to the closing quotes
and what follows them. -/
def doubleQuoted? : List Char → Option (List Nat × List Char)
  | '"' :: rest => some ([], rest)
  | '\\' :: 'x' :: a :: b :: rest => do
    let unit ← hexadecimal? [a, b]
    let (units, rest) ← doubleQuoted? rest
    return (unit :: units, rest)
  | '\\' :: 'u' :: a :: b :: c :: d :: rest => do
    let unit ← hexadecimal? [a, b, c, d]
    let (units, rest) ← doubleQuoted? rest
    return (unit :: units, rest)
  | '\\' :: 'U' :: a :: b :: c :: d :: e :: f :: g :: h :: rest => do
    let unit ← hexadecimal? [a, b, c, d, e, f, g, h]
    let (units, rest) ← doubleQuoted? rest
    return (unit :: units, rest)
  | '\\' :: c :: rest => do
    let (_, unit) ← escapes.find? (·.1 == c)
    let (units, rest) ← doubleQuoted? rest
    return (unit :: units, rest)
  | '\n' :: _ => none
  | c :: rest => do
    let (units, rest) ← doubleQuoted? rest
    return (c.toNat :: units, rest)
  | [] => none

/-- The rest of a text after a single quote has been opened, up to the closing quote, and what
follows it. Two quotes stand for one. -/
def singleQuoted? : List Char → Option (List Char × List Char)
  | '\'' :: '\'' :: rest => do
    let (text, rest) ← singleQuoted? rest
    return ('\'' :: text, rest)
  | '\'' :: rest => some ([], rest)
  | '\n' :: _ => none
  | c :: rest => do
    let (text, rest) ← singleQuoted? rest
    return (c :: text, rest)
  | [] => none

/-- A quoted text at the start of a text, and what follows it. -/
def quotedText? : List Char → Option (String × List Char)
  | '"' :: rest => do
    let (units, rest) ← doubleQuoted? rest
    return (String.ofList (ofUnits units), rest)
  | '\'' :: rest => do
    let (text, rest) ← singleQuoted? rest
    return (String.ofList text, rest)
  | _ => none

/-! ## Plain words -/

/-- Whether a character separates words. -/
def isSpace (c : Char) : Bool :=
  c == ' ' || c == '\t' || c == '\n' || c == '\x0d'

/-- Whether a character is a bracket or a comma. -/
def isBracket (c : Char) : Bool :=
  c == '[' || c == ']' || c == '\x7b' || c == '\x7d' || c == ','

/-- Whether a character at the start of a value has a meaning of its own. -/
def isIndicator (c : Char) : Bool :=
  ",[]\x7b\x7d&*!|>'\"%@`".toList.contains c

/-- A text without the spaces at its end. -/
def trimEnd (text : List Char) : List Char :=
  (text.reverse.dropWhile isSpace).reverse

/-- Whether a text is at its end or goes on with a space. -/
def isBreak : List Char → Bool
  | [] => true
  | c :: _ => isSpace c

/-- The characters of a plain word, and what follows it. A word ends at the end of its line, at a
comment after a space, at a colon before a space and, between brackets, at a bracket or comma.
`afterSpace` tells whether the character before is a space. -/
def wordSplit (bracketed afterSpace : Bool) : List Char → List Char × List Char
  | [] => ([], [])
  | c :: rest =>
    if c == '\n' || (c == '#' && afterSpace) || (bracketed && isBracket c) ||
        (c == ':' && (isBreak rest || (bracketed && rest.head?.any isBracket))) then ([], c :: rest)
    else
      let (word, after) := wordSplit bracketed (isSpace c) rest
      (c :: word, after)

/-- A plain word at the start of a text, without the spaces at its end, and what follows it. -/
def plainWord? (bracketed : Bool) (text : List Char) : Option (String × List Char) :=
  if text.head?.any isIndicator && !(bracketed && text.head?.any isBracket) then none
  else
    let (word, rest) := wordSplit bracketed true text
    some (String.ofList (trimEnd word), rest)

/-! ## Values -/

/-- A text without the spaces and line breaks at its start. -/
def skipSpace (text : List Char) : List Char :=
  text.dropWhile isSpace

/-- The key of a field, and what follows it. -/
def key? (bracketed : Bool) (text : List Char) : Option (String × List Char) :=
  quotedText? text <|> plainWord? bracketed text

mutual

/-- A value at the start of a text between brackets, and what follows it. -/
def value? : Nat → List Char → Option (Value × List Char)
  | 0, _ => none
  | depth + 1, text =>
    match skipSpace text with
    | '[' :: rest => do
      let (items, rest) ← items? depth rest
      return (.list items, rest)
    | '\x7b' :: rest => do
      let (fields, rest) ← fields? depth rest
      return (.object fields, rest)
    | text =>
      match quotedText? text with
      | some (s, rest) => some (.text s, rest)
      | none => do
        let (word, rest) ← plainWord? true text
        return (plainValue word, rest)

/-- The items of a list after its opening bracket, and what follows the closing one. -/
def items? : Nat → List Char → Option (List Value × List Char)
  | 0, _ => none
  | depth + 1, text =>
    match skipSpace text with
    | ']' :: rest => some ([], rest)
    | text => do
      let (item, rest) ← value? depth text
      match skipSpace rest with
      | ',' :: rest => do
        let (items, rest) ← items? depth rest
        return (item :: items, rest)
      | ']' :: rest => return ([item], rest)
      | _ => none

/-- The fields of an object after its opening brace, and what follows the closing one. No name
comes twice. -/
def fields? : Nat → List Char → Option (List (String × Value) × List Char)
  | 0, _ => none
  | depth + 1, text =>
    match skipSpace text with
    | '\x7d' :: rest => some ([], rest)
    | text => do
      let (name, rest) ← key? true text
      let (value, rest) ← match skipSpace rest with
        | ':' :: rest => value? depth rest
        | rest => some (.null, rest)
      match skipSpace rest with
      | ',' :: rest => do
        let (fields, rest) ← fields? depth rest
        if (Table.get? fields name).isSome then none
        return ((name, value) :: fields, rest)
      | '\x7d' :: rest => return ([(name, value)], rest)
      | _ => none

end

/-- Whether nothing but spaces and a comment follows a value. -/
def isOver (rest : List Char) : Bool :=
  match skipSpace rest with
  | [] => true
  | '#' :: _ => true
  | _ => false

/-- The value of a text that holds one value and nothing else. -/
def valueOf? (text : List Char) : Option Value :=
  match skipSpace text with
  | '[' :: _ | '\x7b' :: _ => do
    let (value, rest) ← value? (2 * text.length + 2) text
    if isOver rest then return value else none
  | text =>
    match quotedText? text with
    | some (s, rest) => if isOver rest then some (.text s) else none
    | none => do
      let (word, rest) ← plainWord? false text
      if isOver rest then return plainValue word else none

end Landform.Document
