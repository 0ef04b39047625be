import PlaneSketch.Constraint.Residual

/-!
# Linkage

Coincidence, horizontality, verticality and fixed points are not equations for the numeric
solver: coordinates that must agree are tied together and become one variable or one constant.

Every point has two slots, `2·i` for x and `2·i + 1` for y, where `i` is its canonical index.
A group of tied slots shares an auxiliary slot, appended after those of the points, to which all
of its members link directly.

* `Linkage.build`: ties groups, pins fixed points, lets the dragged point lead its group.
* `Linkage.representative`: the slot that holds a slot's value.
* `Linkage.gather`, `Linkage.scatter`: from geometry to the vector of variables and back.
* `Linkage.isInactive`: constraints with nothing left to adjust.
-/

namespace PlaneSketch

/-- How a slot gets its value. -/
inductive Link where
  /-- It holds a variable. -/
  | base
  /-- It holds a constant. -/
  | fixed
  /-- It is an auxiliary slot to which no point links. -/
  | orphan
  /-- It takes the value of another slot. -/
  | to (target : Nat)
deriving DecidableEq, Repr

/-- A slot: its link and the value it holds if others link to it or it links nowhere. -/
structure Slot (α : Type) where
  link : Link
  value : α
deriving Repr

/-- Where the value of a slot comes from: a place in the vector of variables, or a constant. -/
inductive Source (α : Type) where
  | free (index : Nat)
  | constant (value : α)
deriving Repr

/-- The value that a source has under a vector of variables. -/
def Source.value {α : Type} [Zero α] (vars : Array α) : Source α → α
  | .free index => vars[index]?.getD 0
  | .constant value => value

/-- The two coordinate axes. -/
inductive Axis where
  | x
  | y
deriving DecidableEq, Repr

namespace Axis

/-- The slot of a coordinate of the point with a canonical index. -/
def slot (point : Nat) : Axis → Nat
  | x => 2 * point
  | y => 2 * point + 1

end Axis

/-- The axes along which a kind ties its points together. -/
def ConstraintKind.tiedAxes : ConstraintKind → List Axis
  | .coincidence => [.x, .y]
  | .horizontality => [.y]
  | .verticality => [.x]
  | _ => []

/-- The canonical index of a point that must exist. -/
def Geometry.locate {α : Type} (g : Geometry α) (p : PointRef) : Except SketchError Nat :=
  match g.pointIndex? p with
  | some i => .ok i
  | none => .error (.unknownPoint p)

/-- The canonical indices of the points of a constraint. -/
def Constraint.locate {α : Type} (g : Geometry α) (c : Constraint α) :
    Except SketchError (List Nat) :=
  c.points.mapM g.locate

/-- The slots of all points, then the auxiliary ones. -/
abbrev Slots (α : Type) := List (Slot α)

namespace Slots

variable {α : Type}

def link? (slots : Slots α) (s : Nat) : Option Link := slots[s]?.map (·.link)

def value? (slots : Slots α) (s : Nat) : Option α := slots[s]?.map (·.value)

/-- The slot that holds the value of `s`. -/
def representative (slots : Slots α) (s : Nat) : Nat :=
  match slots.link? s with
  | some (.to target) => target
  | _ => s

/-- Every point coordinate by itself. -/
def initial (g : Geometry α) : Slots α :=
  g.points.flatMap fun p => [⟨.base, p.2.x⟩, ⟨.base, p.2.y⟩]

/-! ## Tying a group together -/

/-- The target of the first slot that is linked already. -/
def existingTarget? (slots : Slots α) (group : List Nat) : Option Nat :=
  group.findSome? fun s =>
    match slots.link? s with
    | some (.to target) => some target
    | _ => none

/-- The point that gives a new group its value: the first one that is not being dragged, and the
dragged one only if there is no other. -/
def seedPoint? (points : List Nat) (active : Option Nat) : Option Nat :=
  (points.find? fun p => some p != active).or points.head?

/-- Links one slot to `target`, together with all slots of the group it was in. -/
def attach (target : Nat) (slots : Slots α) (s : Nat) : Slots α :=
  match slots.link? s with
  | some (.to old) =>
    if old = target then slots
    else slots.map fun slot => if slot.link = .to old then { slot with link := .to target } else slot
  | _ => slots.modify s fun slot => { slot with link := .to target }

/-- Ties the coordinates of some points along one axis into one group. -/
def unify [Zero α] (points : List Nat) (active : Option Nat) (slots : Slots α) (axis : Axis) :
    Slots α :=
  let group := points.map axis.slot
  match slots.existingTarget? group with
  | some target => group.foldl (attach target) slots
  | none =>
    let seed := (seedPoint? points active).bind fun p => slots.value? (axis.slot p)
    group.foldl (attach slots.length) (slots ++ [⟨.base, seed.getD 0⟩])

/-! ## Constants and leading values -/

/-- Makes the group of a slot constant, with that slot's own value. -/
def pin (slots : Slots α) (s : Nat) : Slots α :=
  match slots.value? s with
  | some value => slots.set (slots.representative s) ⟨.fixed, value⟩
  | none => slots

/-- Gives the group of a slot that slot's own value, if the group is variable. -/
def lead (slots : Slots α) (s : Nat) : Slots α :=
  match slots.value? s with
  | some value =>
    slots.modify (slots.representative s) fun slot =>
      if slot.link = .base then { slot with value } else slot
  | none => slots

/-- Marks the auxiliary slots, those from `pointSlots` on, to which no point links. -/
def markOrphans (pointSlots : Nat) (slots : Slots α) : Slots α :=
  slots.mapIdx fun s slot =>
    if s < pointSlots ∨ (slots.take pointSlots).any (·.link = .to s) then slot
    else { slot with link := .orphan }

end Slots

/-- The linkage of a geometry under a list of constraints. -/
structure Linkage (α : Type) where
  slots : Slots α
  pointCount : Nat
  arcCount : Nat
deriving Repr

namespace Linkage

variable {α : Type}

/-! ## Building -/

/-- Ties the points of one constraint together, if its kind does so. -/
def tie [Zero α] (g : Geometry α) (active : Option Nat) (slots : Slots α) (c : Constraint α) :
    Except SketchError (Slots α) :=
  if c.kind.tiesCoordinates then
    (c.locate g).map fun points => c.kind.tiedAxes.foldl (Slots.unify points active) slots
  else .ok slots

/-- The slots of both coordinates of some points. -/
def bothSlots (points : List Nat) : List Nat :=
  points.flatMap fun p => [Axis.x.slot p, Axis.y.slot p]

/-- Pins the points of one constraint, if its kind is `fixed`. -/
def pinConstraint (g : Geometry α) (slots : Slots α) (c : Constraint α) :
    Except SketchError (Slots α) :=
  if c.kind = .fixed then (c.locate g).map fun points => (bothSlots points).foldl Slots.pin slots
  else .ok slots

/-- The linkage of a geometry under constraints.  The point `active`, if any, is being dragged:
it does not seed a new group, and its own coordinates win over those of a variable group. -/
def build [Zero α] (g : Geometry α) (constraints : List (Constraint α))
    (active : Option PointRef) : Except SketchError (Linkage α) := do
  let active ← active.mapM g.locate
  let tied ← constraints.foldlM (tie g active) (Slots.initial g)
  let pinned ← constraints.foldlM (pinConstraint g) tied
  let led := (bothSlots active.toList).foldl Slots.lead pinned
  return {
    slots := led.markOrphans (2 * g.pointCount)
    pointCount := g.pointCount
    arcCount := g.arcs.length }

/-! ## Reading -/

/-- The slot that holds the value of `s`. -/
def representative (l : Linkage α) (s : Nat) : Nat := l.slots.representative s

/-- The number of variables among the slots before `s`. -/
def freeBefore (l : Linkage α) (s : Nat) : Nat := (l.slots.take s).countP (·.link = .base)

/-- The number of variables among all slots. -/
def freeCount (l : Linkage α) : Nat := l.slots.countP (·.link = .base)

/-- The number of variables: one per free slot and one per arc offset. -/
def degreesOfFreedom (l : Linkage α) : Nat := l.freeCount + l.arcCount

/-- Where the value of a slot comes from; none when there is no such slot. -/
def source? (l : Linkage α) (s : Nat) : Option (Source α) :=
  l.slots[l.representative s]?.map fun slot =>
    if slot.link = .base then .free (l.freeBefore (l.representative s)) else .constant slot.value

/-- Whether both coordinates of the point with a canonical index are constant. -/
def isPointFixed (l : Linkage α) (point : Nat) : Bool :=
  [Axis.x, Axis.y].all fun axis =>
    l.slots.link? (l.representative (axis.slot point)) == some .fixed

/-- Whether an equation has nothing left to adjust: all its segments and points are constant.
An arc is never constant, since its offset stays free; literals do not count. -/
def isInactive (l : Linkage α) (g : Geometry α) (c : Constraint α) : Bool :=
  let fixed := fun p => (g.pointIndex? p).any l.isPointFixed
  c.kind.hasResidual && c.operands.all fun
    | .point p => fixed p
    | .segment id => fixed (.start id) && fixed (.stop id)
    | .arc _ => false
    | .value _ => true

/-! ## Variables -/

/-- The vector of variables: the free slots in order, then the offset of every arc. -/
def gather (l : Linkage α) (g : Geometry α) : Array α :=
  ((l.slots.filter (·.link = .base)).map (·.value) ++ g.arcs.map (·.figure.d)).toArray

/-- Where the coordinates of every point come from. -/
def places (l : Linkage α) : Array (Option (Source α × Source α)) :=
  Array.ofFn fun point : Fin l.pointCount => do
    let x ← l.source? (Axis.x.slot point)
    let y ← l.source? (Axis.y.slot point)
    return (x, y)

/-- The geometry with points taken from `places` and arc offsets from the variables after the
first `free` ones. -/
def place [Zero α] (places : Array (Option (Source α × Source α))) (free : Nat) (g : Geometry α)
    (vars : Array α) : Geometry α :=
  (g.mapPoints fun point old =>
    match places[point]? with
    | some (some (x, y)) => ⟨x.value vars, y.value vars⟩
    | _ => old).mapOffsets fun arc old => vars[free + arc]?.getD old

/-- Writes a vector of variables back into a geometry. -/
def scatter [Zero α] (l : Linkage α) (g : Geometry α) (vars : Array α) : Geometry α :=
  place l.places l.freeCount g vars

end Linkage

end PlaneSketch
