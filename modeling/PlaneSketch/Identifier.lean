import PlaneSketch.Hexadecimal

/-!
# Identifiers

Entities and constraints are named by numbers that are never handed out twice.  As text an
identifier is the number's 32 hexadecimal digits in five groups of 8, 4, 4, 4 and 12, so that
the order of identifiers is the order of their texts.

* `Identifier.text`, `Identifier.ofText?`: writing and reading the grouped form.
* `EntityId`, `ConstraintId`: names of figures and of constraints.
* `Endpoint`, `PointRef`: a point is named by its entity and the end of it.
-/

namespace PlaneSketch

namespace Identifier

/-- The lengths of the groups of digits. -/
def groups : List Nat := [8, 4, 4, 4, 12]

/-- The digits cut into groups with a hyphen between them. -/
def hyphenate : (lengths : List Nat) → List Char → List Char
  | [], _ => []
  | [length], digits => digits.take length
  | length :: rest, digits => digits.take length ++ '-' :: hyphenate rest (digits.drop length)

/-- The digits of a hyphenated text, unless a group has the wrong length or a hyphen is missing. -/
def unhyphenate? : (lengths : List Nat) → List Char → Option (List Char)
  | [], text => if text.isEmpty then some [] else none
  | [length], text => if text.length = length then some text else none
  | length :: rest, text =>
    match text.drop length with
    | '-' :: tail => (unhyphenate? rest tail).map (text.take length ++ ·)
    | _ => none

/-- The grouped hexadecimal form. -/
def text (number : Nat) : String := String.ofList (hyphenate groups (Hexadecimal.digits 32 number))

/-- The number of a grouped hexadecimal text; digits may have either case. -/
def ofText? (text : String) : Option Nat := unhyphenate? groups text.toList >>= Hexadecimal.value?

end Identifier

/-- The name of a segment or an arc. -/
structure EntityId where
  number : Nat
deriving DecidableEq, Repr

namespace EntityId

def text (id : EntityId) : String := Identifier.text id.number

def ofText? (text : String) : Option EntityId := (Identifier.ofText? text).map EntityId.mk

/-- The name handed out after `id`. -/
def succ (id : EntityId) : EntityId := ⟨id.number + 1⟩

end EntityId

/-- The name of a stored constraint. -/
structure ConstraintId where
  number : Nat
deriving DecidableEq, Repr

namespace ConstraintId

def text (id : ConstraintId) : String := Identifier.text id.number

/-- The name handed out `count` places after `id`. -/
def plus (id : ConstraintId) (count : Nat) : ConstraintId := ⟨id.number + count⟩

end ConstraintId

/-- The two ends of a segment or an arc. -/
inductive Endpoint where
  | start
  | stop
deriving DecidableEq, Repr

namespace Endpoint

/-- The place of an end among the points of its entity. -/
def offset : Endpoint → Nat
  | start => 0
  | stop => 1

def text : Endpoint → String
  | start => "start"
  | stop => "end"

end Endpoint

/-- One end of a segment or an arc. -/
structure PointRef where
  entity : EntityId
  endpoint : Endpoint
deriving DecidableEq, Repr

namespace PointRef

def start (entity : EntityId) : PointRef := ⟨entity, .start⟩

def stop (entity : EntityId) : PointRef := ⟨entity, .stop⟩

/-- The text of a point, given the text of its entity. -/
def textWith (name : EntityId → String) (p : PointRef) : String :=
  name p.entity ++ ":" ++ p.endpoint.text

def text (p : PointRef) : String := p.textWith EntityId.text

/-- Points are ordered by their entity, and the start of an entity comes before its end. -/
def le (p q : PointRef) : Bool :=
  p.entity.number < q.entity.number ||
    (p.entity.number == q.entity.number && p.endpoint.offset ≤ q.endpoint.offset)

/-- Adds a point to a list in increasing order, unless it is there already. -/
def insert (p : PointRef) : List PointRef → List PointRef
  | [] => [p]
  | q :: rest => if p = q then q :: rest else if p.le q then p :: q :: rest else q :: insert p rest

/-- The points of a list in increasing order, each of them once. -/
def sorted (points : List PointRef) : List PointRef := points.foldr insert []

end PointRef

end PlaneSketch
