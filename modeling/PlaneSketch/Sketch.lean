import PlaneSketch.Constraint.Linkage

/-!
# Sketches

A sketch is geometry together with the constraints declared over it.

* `Sketch.addConstraint`: a constraint over entities that exist.
* `Sketch.removeEntities`: cascading removal.  Constraints that stop being applicable are
  dropped, and those that still apply but mention a removed entity are recreated over the
  operands that are left.
-/

namespace PlaneSketch

/-- Geometry plus the constraints declared over it. -/
structure Sketch (α : Type) where
  geometry : Geometry α
  constraints : Constraints α
deriving Repr

/-- The constraints that a removal dropped, and the old and new names of those it recreated. -/
structure RemovalReport where
  removed : List ConstraintId
  replaced : List (ConstraintId × ConstraintId)
deriving DecidableEq, Repr

namespace Sketch

variable {α : Type}

def empty : Sketch α := ⟨.empty, .empty⟩

/-- The error for an operand that the geometry lacks. -/
def missing? (g : Geometry α) (o : Operand α) : Option SketchError :=
  if g.contains o then none
  else
    match o with
    | .point p => some (.unknownPoint p)
    | .segment id => some (.unknownEntity id)
    | .arc id => some (.unknownEntity id)
    | .value _ => none

/-- Adds a constraint over existing entities; the first operand that is missing is reported. -/
def addConstraint (s : Sketch α) (fresh : ConstraintId) (kind : ConstraintKind)
    (operands : List (Operand α)) : Except SketchError (Sketch α × List ConstraintId) :=
  match operands.findSome? (missing? s.geometry) with
  | some e => .error e
  | none => (s.constraints.add fresh kind operands).map fun (cs, ids) =>
      ({ s with constraints := cs }, ids)

/-- The constraints that mention one of `ids`, with the operands that survive without them. -/
def touched (cs : Constraints α) (ids : List EntityId) :
    List (ConstraintId × List (Operand α)) :=
  (cs.items.filter fun c => ids.any c.references).map fun c => (c.id, c.surviving ids)

/-- Deletes entities along with their ends.  Gives the sketch, the first name that is still
unused, and the report. -/
def removeEntities (s : Sketch α) (fresh : ConstraintId) (ids : List EntityId) :
    Sketch α × ConstraintId × Except SketchError RemovalReport :=
  match ids.find? fun id => (s.geometry.entityType? id).isNone with
  | some missing => (s, fresh, .error (.unknownEntity missing))
  | none =>
    let removed := s.constraints.useless ids
    let kept := removed.foldl Constraints.erase s.constraints
    match kept.recreateEach fresh (touched kept ids) with
    | (constraints, next, .error e) => ({ s with constraints }, next, .error e)
    | (constraints, next, .ok replaced) =>
      (⟨ids.foldl Geometry.remove s.geometry, constraints⟩, next, .ok ⟨removed, replaced⟩)

end Sketch

end PlaneSketch
