import PlaneSketch.Constraint.Kind

/-!
# Errors

What can go wrong when a sketch is edited or solved, and how it is told to the user.
-/

namespace PlaneSketch

/-- The reasons for which an operation on a sketch is refused. -/
inductive SketchError where
  | collinearArc
  | requirementMismatch (kind : ConstraintKind) (types : List OperandType)
  | unknownEntity (id : EntityId)
  | unknownPoint (p : PointRef)
  | unknownConstraint (id : ConstraintId)
deriving DecidableEq, Repr

/-- How entities and constraints are called in messages. -/
structure Naming where
  entity : EntityId → String
  constraint : ConstraintId → String

/-- Calls entities and constraints by the text of their identifiers. -/
def Naming.byText : Naming := ⟨EntityId.text, ConstraintId.text⟩

namespace SketchError

/-- The message of an error. -/
def message (names : Naming) : SketchError → String
  | collinearArc => "Arc defining points are collinear"
  | requirementMismatch kind types =>
    kind.displayName ++ " cannot be applied to [" ++
      ", ".intercalate (types.map OperandType.name) ++ "]"
  | unknownEntity id => "Unknown entity: " ++ names.entity id
  | unknownPoint p => "Unknown point: " ++ p.textWith names.entity
  | unknownConstraint id => "Unknown constraint: " ++ names.constraint id

end SketchError

end PlaneSketch
