import Landform.Error
import Landform.Text.Blank

/-!
# Ports

A port is a typed connection point of a node. A node kind declares its ports by role; bound to a
node, a port is identified by the id of the node and the role, joined by an underscore.
-/

namespace Landform

open Text Decimal

/-- Which way values flow through a port. -/
inductive Direction where
  | input
  | output
deriving Repr, DecidableEq

namespace Direction

def name : Direction → String
  | input => "in"
  | output => "out"

def ofName? : String → Option Direction
  | "in" => some input
  | "out" => some output
  | _ => none

/-- The direction of a name. -/
def read (name : String) : Except Error Direction :=
  match ofName? name with
  | some direction => .ok direction
  | none => .error (.unknownDirection (quoted name))

end Direction

/-- What a port carries. -/
inductive PortKind where
  | float
  | terrain
deriving Repr, DecidableEq

namespace PortKind

def name : PortKind → String
  | float => "float"
  | terrain => "terrain"

def ofName? : String → Option PortKind
  | "float" => some float
  | "terrain" => some terrain
  | _ => none

/-- The kind of a name. -/
def read (name : String) : Except Error PortKind :=
  match ofName? name with
  | some kind => .ok kind
  | none => .error (.unknownPortKind (quoted name))

end PortKind

/-- A port as a node kind declares it. -/
structure PortSpec where
  role : String
  name : String
  direction : Direction
  kind : PortKind
  optional : Bool
deriving Repr, DecidableEq

/-- A port of a node. -/
structure Port extends PortSpec where
  id : String
  node : Int
deriving Repr, DecidableEq

/-- The id of the port of a role at a node. -/
def portId (node : Int) (role : String) : String :=
  integerText node ++ "_" ++ role

namespace PortSpec

/-- An input port. -/
def input (role name : String) (kind : PortKind) (optional : Bool) : PortSpec :=
  ⟨role, name, .input, kind, optional⟩

/-- An output port. -/
def output (role name : String) (kind : PortKind) : PortSpec :=
  ⟨role, name, .output, kind, false⟩

/-- Accepts a declaration with a role that is not blank; only an input may be optional. -/
def check (spec : PortSpec) : Except Error PortSpec :=
  if isBlankText spec.role then .error .blankRole
  else if spec.optional && spec.direction = .output then .error .optionalOutput
  else .ok spec

/-- The port of a declaration at a node. -/
def bind (spec : PortSpec) (node : Int) : Port :=
  { spec with id := portId node spec.role, node := node }

end PortSpec

namespace Port

def isInput (p : Port) : Bool := p.direction = .input

def isOutput (p : Port) : Bool := p.direction = .output

/-- Whether a port can feed another: an output an input, of another node and of the same kind. -/
def compatible (p q : Port) : Bool :=
  p.isOutput && q.isInput && p.node != q.node && p.kind = q.kind

end Port

end Landform
