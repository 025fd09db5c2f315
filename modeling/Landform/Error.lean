import Landform.Decimal.Written
import Landform.Text.Quoted

/-!
# Failures

Everything that can go wrong is one of the causes below. `Error.message` gives the wording and
`Error.family` the broad class. A cause of the families `badValue` and `badType` is reported as an
answer when parameters are edited, and the families `badValue`, `missingKey`, `missingFile` and
`badFile` end a command with a message.
-/

namespace Landform

open Text Decimal

/-- The broad class of a failure. -/
inductive Family where
  | badValue
  | badType
  | tooLarge
  | divisionByZero
  | missingKey
  | missingFile
  | badFile
  | unreadable
  | mixedShapes
  | endless
  | outOfRange
  | missingPart
deriving Repr, DecidableEq

/-- The causes of failure. -/
inductive Error where
  /-- A text is read as a decimal and is none. -/
  | notADecimal (text : String)
  /-- A value of this type has no decimal. -/
  | noDecimal (type : String)
  /-- An integer is beyond the greatest double. -/
  | integerTooLarge
  /-- A text is read as an integer and is none. -/
  | notAnInteger (text : String)
  /-- A value of this type has no integer. -/
  | noInteger (type : String)
  | integerOfNaN
  | integerOfInfinity
  /-- A value of this type cannot be rounded down. -/
  | notReal (type : String)
  | divisionByZero
  /-- A text is read as a truth value and is none. -/
  | notABoolean (text : String)
  /-- A value of this type has no parts to go through. -/
  | notIterable (type : String)
  /-- A value of this type has no entries to look up. -/
  | notSubscriptable (type : String)
  | textSubscript
  | listSubscript
  /-- A value of this type cannot be a key. -/
  | unhashable (type : String)
  /-- A value of this type lacks something that objects have. -/
  | missingPart
  | unknownFlag (token : String)
  | negativeCount (field : String) (count : Int)
  | zeroField (field : String)
  | unknownOperator (sign : String)
  /-- A value, as it is shown, that is none of the materials. -/
  | unknownMaterial (shown : String)
  | unknownPortKind (shown : String)
  | unknownDirection (shown : String)
  | blankTerrainName
  | blankRole
  | optionalOutput
  /-- One end of a connection, named by its field, is blank. -/
  | blankEnd (field : String)
  | blankKind
  /-- No such name, with the closest names and all names. -/
  | unknownKind (name : String) (closest known : List String)
  | unknownTemplate (name : String) (known : List String)
  | missingKey (key : String)
  | duplicateNode (id : Int)
  | invalidConnection (source target reason : String)
  | templateConnection (source target reason : String)
  | cycleThroughPort (id : String)
  | cycleThroughNode (id : Int)
  /-- The header of a script is a value of this type and no text. -/
  | headerNotText (type : String)
  /-- A resolution, as it is shown, is below one. -/
  | resolutionTooSmall (shown : String)
  | missingFile (path : String)
  /-- A file holds a single value of this type. -/
  | notADocument (type : String)
  /-- A text is no document. -/
  | unreadable
  /-- A value of this type is no path. -/
  | notAPath (type : String)
  /-- A list meets an object where two layers are merged. -/
  | mixedShapes
  /-- A configuration is based on itself. -/
  | endlessChain
  /-- Values of these types have no order. -/
  | notComparable (sign left right : String)
  /-- A value of this type cannot count anything. -/
  | notACount (type : String)
  | outOfRange
deriving Repr, DecidableEq

namespace Error

/-- The broad class of a cause. -/
def family : Error → Family
  | noDecimal _ | noInteger _ | notReal _ | notIterable _ | notSubscriptable _ | textSubscript
  | listSubscript | unhashable _ | headerNotText _ | notAPath _ | notComparable .. | notACount _ =>
    .badType
  | integerTooLarge | integerOfInfinity => .tooLarge
  | divisionByZero => .divisionByZero
  | missingKey _ | unknownKind .. | unknownTemplate .. => .missingKey
  | missingFile _ => .missingFile
  | notADocument _ => .badFile
  | unreadable => .unreadable
  | mixedShapes => .mixedShapes
  | endlessChain => .endless
  | outOfRange => .outOfRange
  | missingPart => .missingPart
  | _ => .badValue

/-- Names between commas. -/
def commas (names : List String) : String :=
  ", ".intercalate names

/-- The wording of a cause. -/
def message : Error → String
  | notADecimal text => s!"could not convert string to float: {quoted text}"
  | noDecimal type => s!"float() argument must be a string or a real number, not {quoted type}"
  | integerTooLarge => "int too large to convert to float"
  | notAnInteger text => s!"invalid literal for int() with base 10: {quoted text}"
  | noInteger type =>
    "int() argument must be a string, a bytes-like object or a real number, not " ++ quoted type
  | integerOfNaN => "cannot convert float NaN to integer"
  | integerOfInfinity => "cannot convert float infinity to integer"
  | notReal type => s!"must be real number, not {type}"
  | divisionByZero => "float division by zero"
  | notABoolean text => s!"Not a boolean: {quoted text}"
  | notIterable type => s!"{quoted type} object is not iterable"
  | notSubscriptable type => s!"{quoted type} object is not subscriptable"
  | textSubscript => "string indices must be integers, not 'str'"
  | listSubscript => "list indices must be integers or slices, not str"
  | unhashable type => s!"unhashable type: {quoted type}"
  | missingPart => "missing part"
  | unknownFlag token => s!"Unknown noise flag: {quoted token}"
  | negativeCount field count => s!"{field} must be >= 0, got {integerText count}"
  | zeroField field => s!"{field} must be non-zero"
  | unknownOperator sign =>
    s!"Unknown operator {quoted sign}; expected one of <, <=, >, >=, ==, !="
  | unknownMaterial shown => s!"{shown} is not a valid MaterialKind"
  | unknownPortKind shown => s!"{shown} is not a valid PortKind"
  | unknownDirection shown => s!"{shown} is not a valid PortDirection"
  | blankTerrainName => "Terrain type name must be non-empty"
  | blankRole => "Port role must be non-empty"
  | optionalOutput => "Only input ports can be optional"
  | blankEnd field => s!"{field} must be non-empty"
  | blankKind => "kind must be non-empty"
  | unknownKind name closest known =>
    let hint := if closest.isEmpty then "" else s!" Did you mean: {commas closest}?"
    s!"Unknown node kind: {quoted name}.{hint} Registered: {commas known}"
  | unknownTemplate name known =>
    s!"Unknown template: {quoted name}. Known: [{commas (known.map quoted)}]"
  | missingKey key => key
  | duplicateNode id => s!"Duplicate node id in config: {integerText id}"
  | invalidConnection source target reason =>
    s!"Invalid connection {source} -> {target}: {reason}"
  | templateConnection source target reason =>
    s!"Template connection {source} -> {target} failed: {reason}"
  | cycleThroughPort id => s!"Cycle through port {id}"
  | cycleThroughNode id => s!"Cycle through node {integerText id}"
  | headerNotText type => s!"sequence item 0: expected str instance, {type} found"
  | resolutionTooSmall shown => s!"resolution must be >= 1, got {shown}"
  | notADocument type => s!"Invalid loaded object type: {type}"
  | unreadable => "unreadable document"
  | notAPath type => s!"expected str, bytes or os.PathLike object, not {type}"
  | mixedShapes => "cannot merge a list and an object"
  | endlessChain => "endless chain of configurations"
  | notComparable sign left right =>
    s!"{quoted sign} not supported between instances of {quoted left} and {quoted right}"
  | notACount type => s!"{quoted type} object cannot be interpreted as an integer"
  | missingFile path => s!"[Errno 2] No such file or directory: {quoted path}"
  | outOfRange => "index out of range"

/-- The line that reports a cause to the user of a command: a missing key is shown between quotes,
every other cause by its message. -/
def report (e : Error) : String :=
  if e.family = .missingKey then quoted e.message else e.message

end Error

end Landform
