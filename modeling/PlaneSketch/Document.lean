import PlaneSketch.Json.Value
import PlaneSketch.Sketch

/-!
# Sketch documents

The JSON form of a sketch.  Every field is required, unknown fields are passed over, and every
structure may also be given as an array of its fields in order.  Reading checks nothing beyond
the form: constraints may have the wrong operands, name missing entities or share names.

* `Document.write`: the document of a sketch.
* `Document.read`: the sketch of a document.
-/

namespace PlaneSketch.Document

/-- How the names of entities and constraints, and the numbers, are read. -/
structure Reader (α : Type) where
  entity : String → Option EntityId
  constraint : String → Option ConstraintId
  number : Json → Option α

/-- How the names of entities and constraints, and the numbers, are written. -/
structure Writer (α : Type) where
  names : Naming
  number : α → Json

variable {α : Type}

/-! ## Writing -/

namespace Writer

def point (w : Writer α) (p : Vec2 α) : Json := .array [w.number p.x, w.number p.y]

def segment (w : Writer α) (s : Named (Segment α)) : Json :=
  .ofFields [("id", .text (w.names.entity s.id)),
    ("segment", .ofFields [("p1", w.point s.figure.p1), ("p2", w.point s.figure.p2)])]

def arc (w : Writer α) (a : Named (Arc α)) : Json :=
  .ofFields [("id", .text (w.names.entity a.id)),
    ("arc", .ofFields [("p1", w.point a.figure.p1), ("p2", w.point a.figure.p2),
      ("d", w.number a.figure.d)])]

def endpoint : Endpoint → Json
  | .start => .text "Start"
  | .stop => .text "End"

def operand (w : Writer α) : Operand α → Json
  | .point p =>
    .ofFields [("Point", .ofFields [("entity", .text (w.names.entity p.entity)),
      ("end", endpoint p.endpoint)])]
  | .segment id => .ofFields [("Segment", .text (w.names.entity id))]
  | .arc id => .ofFields [("Arc", .text (w.names.entity id))]
  | .value v => .ofFields [("Value", w.number v)]

def constraint (w : Writer α) (c : Constraint α) : Json :=
  .ofFields [("id", .text (w.names.constraint c.id)), ("kind", .text c.kind.name),
    ("entities", .array (c.operands.map w.operand))]

def counters (c : Counters) : Json :=
  .ofFields [("inactive", .ofNat c.inactive),
    ("solved_by_substitution", .ofNat c.solvedBySubstitution), ("fixed", .ofNat c.fixed)]

end Writer

/-- The document of a sketch. -/
def write (w : Writer α) (s : Sketch α) : Json :=
  .ofFields [
    ("geometry", .ofFields [("segments", .array (s.geometry.segments.map w.segment)),
      ("arcs", .array (s.geometry.arcs.map w.arc))]),
    ("constraints", .ofFields [("items", .array (s.constraints.items.map w.constraint)),
      ("counters", Writer.counters s.constraints.counters)])]

/-! ## Reading -/

namespace Reader

def entityId (r : Reader α) (j : Json) : Option EntityId := j.text? >>= r.entity

def point (r : Reader α) (j : Json) : Option (Vec2 α) := do
  let [x, y] ← j.array? | none
  return ⟨← r.number x, ← r.number y⟩

def segment (r : Reader α) (j : Json) : Option (Named (Segment α)) := do
  let [id, segment] ← j.fullRecord? ["id", "segment"] | none
  let [p1, p2] ← segment.fullRecord? ["p1", "p2"] | none
  return ⟨← r.entityId id, ⟨← r.point p1, ← r.point p2⟩⟩

def arc (r : Reader α) (j : Json) : Option (Named (Arc α)) := do
  let [id, arc] ← j.fullRecord? ["id", "arc"] | none
  let [p1, p2, d] ← arc.fullRecord? ["p1", "p2", "d"] | none
  return ⟨← r.entityId id, ⟨← r.point p1, ← r.point p2, ← r.number d⟩⟩

def endpoint (j : Json) : Option Endpoint :=
  match j.variant? with
  | some "Start" => some .start
  | some "End" => some .stop
  | _ => none

def pointRef (r : Reader α) (j : Json) : Option PointRef := do
  let [entity, stop] ← j.fullRecord? ["entity", "end"] | none
  return ⟨← r.entityId entity, ← endpoint stop⟩

def operand (r : Reader α) (j : Json) : Option (Operand α) :=
  match j.taggedVariant? with
  | some ("Point", content) => (r.pointRef content).map .point
  | some ("Segment", content) => (r.entityId content).map .segment
  | some ("Arc", content) => (r.entityId content).map .arc
  | some ("Value", content) => (r.number content).map .value
  | _ => none

def constraintItem (r : Reader α) (j : Json) : Option (Constraint α) := do
  let [id, kind, entities] ← j.fullRecord? ["id", "kind", "entities"] | none
  return ⟨← id.text? >>= r.constraint, ← kind.variant? >>= ConstraintKind.ofName?,
    ← (← entities.array?).mapM r.operand⟩

def counters (j : Json) : Option Counters := do
  let [inactive, solved, fixed] ←
    j.fullRecord? ["inactive", "solved_by_substitution", "fixed"] | none
  return ⟨← inactive.word?, ← solved.word?, ← fixed.word?⟩

end Reader

/-- The sketch of a document. -/
def read (r : Reader α) (j : Json) : Option (Sketch α) := do
  let [geometry, constraints] ← j.fullRecord? ["geometry", "constraints"] | none
  let [segments, arcs] ← geometry.fullRecord? ["segments", "arcs"] | none
  let [items, counters] ← constraints.fullRecord? ["items", "counters"] | none
  return ⟨⟨← (← segments.array?).mapM r.segment, ← (← arcs.array?).mapM r.arc⟩,
    ⟨← (← items.array?).mapM r.constraintItem, ← Reader.counters counters⟩⟩

end PlaneSketch.Document
