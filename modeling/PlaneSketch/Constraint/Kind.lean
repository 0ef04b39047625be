import PlaneSketch.Geometry

/-!
# Kinds of constraint

The ten kinds of constraint and the operand types that each accepts.

* `Requirement`: a pattern of operand types.
* `ConstraintKind.requirements`, `ConstraintKind.accepts`: the catalog.
* Kinds fall into three groups: those that tie coordinates together (`tiesCoordinates`), `fixed`,
  and those with a residual equation (`hasResidual`).
-/

namespace PlaneSketch

/-- The kinds of constraint. -/
inductive ConstraintKind where
  | coincidence
  | parallelism
  | perpendicularity
  | equalLengthOrRadius
  | fixed
  | horizontality
  | verticality
  | tangency
  | concentricity
  | length
deriving DecidableEq, Repr

/-- A pattern of operand types. -/
inductive Requirement where
  /-- Exactly these types, in any order. -/
  | exactly (types : List OperandType)
  /-- Two or more operands, all of this type. -/
  | moreThanOne (type : OperandType)
deriving DecidableEq, Repr

namespace ConstraintKind

/-- All kinds, in the order in which they are listed. -/
def all : List ConstraintKind :=
  [coincidence, parallelism, perpendicularity, equalLengthOrRadius, fixed, horizontality,
   verticality, tangency, concentricity, length]

/-- The name shown to the user. -/
def displayName : ConstraintKind → String
  | coincidence => "Coincidence"
  | parallelism => "Parallelism"
  | perpendicularity => "Perpendicularity"
  | equalLengthOrRadius => "Equal length or radius"
  | fixed => "Fixed"
  | horizontality => "Horizontality"
  | verticality => "Verticality"
  | tangency => "Tangency"
  | concentricity => "Concentricity"
  | length => "Length"

/-- The name used in documents, one word. -/
def name : ConstraintKind → String
  | equalLengthOrRadius => "EqualLengthOrRadius"
  | kind => kind.displayName

def ofName? (name : String) : Option ConstraintKind := all.find? (·.name = name)

/-- The patterns that a kind accepts, in order of preference. -/
def requirements : ConstraintKind → List Requirement
  | coincidence => [.moreThanOne .point]
  | parallelism => [.exactly [.segment, .segment]]
  | perpendicularity => [.exactly [.segment, .segment]]
  | equalLengthOrRadius => [.exactly [.segment, .segment], .exactly [.arc, .arc]]
  | fixed => [.exactly [.point]]
  | horizontality => [.exactly [.segment], .exactly [.point, .point]]
  | verticality => [.exactly [.segment], .exactly [.point, .point]]
  | tangency => [.exactly [.arc, .segment], .exactly [.arc, .arc]]
  | concentricity => [.exactly [.arc, .arc]]
  | length => [.exactly [.segment, .value], .exactly [.arc, .value]]

/-- Whether a longer run of operands of one type stands for several constraints. -/
def isSplittable : ConstraintKind → Bool
  | parallelism | equalLengthOrRadius | fixed | horizontality | verticality | tangency
  | concentricity => true
  | coincidence | perpendicularity | length => false

/-- Whether the kind is an equation for the numeric solver. -/
def hasResidual : ConstraintKind → Bool
  | coincidence | fixed | horizontality | verticality => false
  | _ => true

/-- Whether the kind is solved by tying coordinates together. -/
def tiesCoordinates : ConstraintKind → Bool
  | coincidence | horizontality | verticality => true
  | _ => false

end ConstraintKind

namespace Requirement

/-- The number of operands of one atomic constraint. -/
def arity : Requirement → Nat
  | exactly types => types.length
  | moreThanOne _ => 2

/-- Whether operand types fit the pattern.  Splittable kinds also take a longer run of the
pattern's only type. -/
def isSatisfiedBy (r : Requirement) (kind : ConstraintKind) (types : List OperandType) : Bool :=
  match r with
  | moreThanOne type => 1 < types.length && types.all (· == type)
  | exactly pattern =>
    pattern.isPerm types ||
      match types with
      | [] => false
      | type :: _ =>
        kind.isSplittable && pattern.length ≤ types.length && types.all (· == type) &&
          pattern.all (· == type)

end Requirement

namespace ConstraintKind

/-- The first requirement that the operand types fit. -/
def matching? (kind : ConstraintKind) (types : List OperandType) : Option Requirement :=
  kind.requirements.find? (·.isSatisfiedBy kind types)

def accepts (kind : ConstraintKind) (types : List OperandType) : Bool :=
  (kind.matching? types).isSome

/-- The kinds that operands of these types could be turned into. -/
def available (types : List OperandType) : List ConstraintKind := all.filter (·.accepts types)

end ConstraintKind

namespace OperandType

def name : OperandType → String
  | point => "Point"
  | segment => "Segment"
  | arc => "Arc"
  | value => "Value"

end OperandType

end PlaneSketch
