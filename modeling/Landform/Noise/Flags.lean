import Landform.Coerce

/-!
# Noise flags

Three bits tell how noise is computed: the defaults, easing, and the absolute value. Flags are
given as an integer, whose further bits are kept, or as a text of flag names between blanks or
commas. A negative integer stands for the flags whose complement it is: a bit beyond the three
counts only as far as the integer is long.
-/

namespace Landform.Noise

open Text

-- Powers are those of the core library, whatever other instances are around.
attribute [local instance (5000)] instPowNat

/-- Noise flags, as a set of bits. -/
structure Flags where
  bits : Nat
deriving Repr, DecidableEq

namespace Flags

/-- A bit of a set of flags. -/
def bit (flags : Flags) (index : Nat) : Bool :=
  flags.bits.testBit index

def none : Flags := ⟨0⟩

/-- The conventional choice: eased in the plane, not in space. -/
def defaults : Flags := ⟨1⟩

def eased : Flags := ⟨2⟩

def absvalue : Flags := ⟨4⟩

def hasDefaults (flags : Flags) : Bool := flags.bit 0

def hasEased (flags : Flags) : Bool := flags.bit 1

def hasAbsvalue (flags : Flags) : Bool := flags.bit 2

/-- The flags of both sets. -/
def union (a b : Flags) : Flags :=
  ⟨a.bits ||| b.bits⟩

/-- The flag names, in the order of their bits. -/
def names (flags : Flags) : List String :=
  (if flags.hasDefaults then ["defaults"] else []) ++ (if flags.hasEased then ["eased"] else []) ++
    (if flags.hasAbsvalue then ["absvalue"] else [])

/-- The flags of one name, in capitals. -/
def ofName? : String → Option Flags
  | "NONE" => some none
  | "DEFAULTS" => some defaults
  | "EASED" => some eased
  | "ABSVALUE" => some absvalue
  | _ => Option.none

/-- The union of the flags that are named, or the first name that is none. -/
def ofNames : Flags → List String → Except Error Flags
  | flags, [] => .ok flags
  | flags, token :: rest =>
    match ofName? (upperAscii token) with
    | some flag => ofNames (flags.union flag) rest
    | Option.none => .error (.unknownFlag token)

/-- The number of binary digits of a natural number. -/
def bitLength (n : Nat) : Nat :=
  if n = 0 then 0 else n.log2 + 1

/-- The flags of an integer. -/
def ofInt (n : Int) : Flags :=
  if 0 ≤ n then ⟨n.toNat⟩
  else if -8 ≤ n then ⟨(n + 8).toNat⟩
  else ⟨(n + 2 ^ bitLength n.natAbs).toNat⟩

/-- The flags of a piece of data. -/
def ofValue : Value → Except Error Flags
  | .text s => ofNames none (fields (· == ',') s)
  | value => value.toInt.map ofInt

end Flags

end Landform.Noise
