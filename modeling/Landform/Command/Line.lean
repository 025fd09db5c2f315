import Landform.Text.Digit

/-!
# Command lines

A command line mixes words with options, which start with a hyphen. An option may have its value
after an equals sign, in the next argument or, for a single letter, right after the letter; single
letters without values may be joined. A long option may be shortened as long as no other one starts
like it. A number below zero is a word, and after two hyphens everything is one. `events` lists what
a command line says, in order, up to the first mistake.
-/

namespace Landform.Command

open Text

/-- A spelling of an option. -/
structure Spelling (α : Type) where
  name : String
  takesValue : Bool
  option : α

/-- Whether an option is spelled with two hyphens. -/
def Spelling.isLong {α : Type} (s : Spelling α) : Bool :=
  s.name.toList.take 2 == ['-', '-']

/-- A text in the same argument as an option, and whether it follows an equals sign. -/
structure Attached where
  assigned : Bool
  text : List Char

/-- What an argument is by its form. -/
inductive Piece (α : Type) where
  | word (text : String)
  /-- Two hyphens alone. -/
  | divider
  | option (spelling : Spelling α) (attached : Option Attached)
  /-- It looks like an option, but no option is spelled so. -/
  | unknown
  /-- It shortens several options. -/
  | ambiguous

/-- What a command line says. -/
inductive Event (α : Type) where
  | word (text : String)
  /-- A word, and all arguments after it. -/
  | command (name : String) (arguments : List String)
  | option (which : α) (value : String)
  /-- An argument that nothing asks for. -/
  | surplus
  /-- A mistake that ends the reading. -/
  | mistake

variable {α : Type}

/-! ## The form of arguments -/

/-- Whether a character is a decimal digit of any script. -/
def isDigit (c : Char) : Bool :=
  (decimalValue? c).isSome

/-- Whether a text after a hyphen is a number: digits, or a point with digits after it. -/
def isMagnitude (text : List Char) : Bool :=
  match text.dropWhile isDigit with
  | [] => !text.isEmpty
  | '.' :: decimals => !decimals.isEmpty && decimals.all isDigit
  | _ => false

/-- A text before and after its first equals sign. -/
def cutValue (text : List Char) : List Char × Option Attached :=
  match text.dropWhile (· != '=') with
  | [] => (text, none)
  | _ :: value => (text.takeWhile (· != '='), some ⟨true, value⟩)

/-- The spelling of a name. -/
def find? (spellings : List (Spelling α)) (name : List Char) : Option (Spelling α) :=
  spellings.find? (·.name.toList == name)

/-- The options that an argument may stand for when it is not spelled in full. -/
def candidates (spellings : List (Spelling α)) (arg : List Char) :
    List (Spelling α × Option Attached) :=
  match arg with
  | '-' :: '-' :: _ =>
    let (start, value) := cutValue arg
    (spellings.filter (start.isPrefixOf ·.name.toList)).map (·, value)
  | _ =>
    spellings.filterMap fun s =>
      if s.name.toList == arg.take 2 then some (s, some ⟨false, arg.drop 2⟩)
      else if arg.isPrefixOf s.name.toList then some (s, none)
      else none

/-- The form of an argument before any divider. -/
def pieceOf (spellings : List (Spelling α)) (arg : String) : Piece α :=
  match arg.toList with
  | ['-'] => .word arg
  | '-' :: rest =>
    match find? spellings arg.toList with
    | some s => .option s none
    | none =>
      let (name, value) := cutValue ('-' :: rest)
      match value, find? spellings name with
      | some value, some s => .option s (some value)
      | _, _ =>
        match candidates spellings ('-' :: rest) with
        | [(s, value)] => .option s value
        | _ :: _ :: _ => .ambiguous
        | [] => if isMagnitude rest || rest.contains ' ' then .word arg else .unknown
  | _ => .word arg

/-- The arguments with their forms. -/
def pieces (spellings : List (Spelling α)) : List String → List (Piece α × String)
  | [] => []
  | arg :: rest =>
    if arg == "--" then (.divider, arg) :: rest.map fun arg => (.word arg, arg)
    else (pieceOf spellings arg, arg) :: pieces spellings rest

/-! ## Events -/

/-- What an option says with the options that are joined to it: the events, and apart from them the
last option when its value has yet to come. -/
structure Unpacked (α : Type) where
  done : List (Event α)
  waiting : Option α

/-- An option with nothing attached to it. -/
def bare (s : Spelling α) : Unpacked α :=
  if s.takesValue then ⟨[], some s.option⟩ else ⟨[.option s.option ""], none⟩

/-- An option with a text attached to it. The text is the value of an option that takes one; after
a single letter without a value more letters may follow, of which an unknown one and all after it
are surplus. -/
def unpack (spellings : List (Spelling α)) (s : Spelling α) (assigned : Bool) :
    List Char → Option (Unpacked α)
  | [] => if s.takesValue then some ⟨[.option s.option ""], none⟩ else none
  | c :: rest =>
    if s.takesValue then some ⟨[.option s.option (String.ofList (c :: rest))], none⟩
    else if s.isLong || assigned || c == '-' then none
    else match find? spellings ['-', c] with
      | none => some ⟨[.option s.option "", .surplus], none⟩
      | some next => do
        let others ← match rest with
          | [] => some (bare next)
          | '=' :: value => unpack spellings next true value
          | d :: rest => unpack spellings next false (d :: rest)
        return { others with done := .option s.option "" :: others.done }

/-- The options of an argument. -/
def optionEvents (spellings : List (Spelling α)) (s : Spelling α) (attached : Option Attached) :
    Option (Unpacked α) :=
  match attached with
  | none => some (bare s)
  | some attached => unpack spellings s attached.assigned attached.text

/-- What pieces say. `wanted` counts the words that are still asked for, and is nothing when the
first word is a command that takes all arguments after it. `taken` tells whether the piece before is
a word that was asked for; a divider beside such a word goes with it. -/
def eventsOf (spellings : List (Spelling α)) (wanted : Option Nat) (taken : Bool) :
    List (Piece α × String) → List (Event α)
  | [] => []
  | (.word text, _) :: rest =>
    match wanted with
    | none => [.command text (rest.map (·.2))]
    | some 0 => .surplus :: eventsOf spellings wanted false rest
    | some (n + 1) => .word text :: eventsOf spellings (some n) true rest
  | (.divider, _) :: rest =>
    match wanted with
    | none => [.mistake]
    | some n =>
      if taken || (n != 0 && !rest.isEmpty) then eventsOf spellings wanted taken rest
      else .surplus :: eventsOf spellings wanted false rest
  | (.unknown, _) :: rest => .surplus :: eventsOf spellings wanted false rest
  | (.ambiguous, _) :: _ => [.mistake]
  | [(.option s attached, _)] =>
    match optionEvents spellings s attached with
    | some ⟨done, none⟩ => done
    | _ => [.mistake]
  | (.option s attached, _) :: next :: rest =>
    match optionEvents spellings s attached with
    | none => [.mistake]
    | some ⟨done, none⟩ => done ++ eventsOf spellings wanted false (next :: rest)
    | some ⟨done, some which⟩ =>
      match next.1 with
      | .word text => done ++ .option which text :: eventsOf spellings wanted false rest
      | _ => [.mistake]

/-- Whether an argument shortens several options. -/
def Piece.isAmbiguous : Piece α → Bool
  | .ambiguous => true
  | _ => false

/-- What a command line says; an ambiguous option anywhere is a mistake from the start. -/
def events (spellings : List (Spelling α)) (wanted : Option Nat) (args : List String) :
    List (Event α) :=
  let pieces := pieces spellings args
  if pieces.any (·.1.isAmbiguous) then [.mistake] else eventsOf spellings wanted false pieces

end Landform.Command
