import PlaneSketch.Plane.Segment

/-!
# Arcs

An arc runs clockwise as drawn from `p1` to `p2`.  Its centre is not stored: it sits on the
perpendicular bisector of the chord at the signed offset `d` along `Arc.normal`, so that an arc
has five scalar degrees of freedom and its two endpoints are always equally far from the centre.

* `Arc.center`, `Arc.radius`, `Arc.sweep`, `Arc.middle`, `Arc.box`: derived quantities.
* `Arc.through?`: the arc over three points.
* `Arc.inverted`: the complementary arc of the same circle.
* `Arc.distanceTo`: the distance from a point.
-/

namespace PlaneSketch

open Scalar (machineEpsilon near smaller)

/-- The clockwise arc from `p1` to `p2` whose centre lies at offset `d` from the chord. -/
structure Arc (α : Type) where
  p1 : Vec2 α
  p2 : Vec2 α
  d : α
deriving Repr

namespace Arc

section Circle

variable {α : Type} [Scalar α]

/-- The unit normal of the chord, along which `d` is measured; zero for a collapsed chord. -/
def normal (a : Arc α) : Vec2 α :=
  ((a.p2 - a.p1).quarterCcw.unit? machineEpsilon).getD 0

def chordMidpoint (a : Arc α) : Vec2 α := midpoint a.p1 a.p2

def center (a : Arc α) : Vec2 α := a.chordMidpoint + a.d • a.normal

def radius (a : Arc α) : α := distance a.p1 a.center

/-- The lower and upper corner of the box around the full circle. -/
def box (a : Arc α) : Vec2 α × Vec2 α :=
  (⟨a.center.x - a.radius, a.center.y - a.radius⟩, ⟨a.center.x + a.radius, a.center.y + a.radius⟩)

/-- The arc over the rest of the same circle. -/
def inverted (a : Arc α) : Arc α := ⟨a.p2, a.p1, -a.d⟩

/-- The arc with the endpoints `p1` and `p2` that passes through `p`.  The centre is where the
perpendicular bisectors of the two chords meet; the endpoints are swapped where the clockwise
sweep asks for it.  There is none when the three points are nearly collinear. -/
def through? (p1 p2 p : Vec2 α) : Option (Arc α) :=
  let first := p - p1
  let second := p2 - p
  let midFirst := p1 + first / (2.0 : α)
  let midSecond := p + second / (2.0 : α)
  let bisectorFirst := Line.through midFirst (midFirst + first.quarterCcw)
  let bisectorSecond := Line.through midSecond (midSecond + second.quarterCcw)
  (bisectorFirst.intersect? bisectorSecond).map fun center =>
    let chord : Arc α := if 0 < (p1 - center).cross (p - center) then ⟨p1, p2, 0⟩ else ⟨p2, p1, 0⟩
    { chord with d := (center - chord.chordMidpoint).dot chord.normal }

end Circle

variable {α : Type} [Angular α]

/-- The clockwise angle from `p1` to `p2` about the centre. -/
def sweep (a : Arc α) : α := (a.p1 - a.center).clockwiseTo (a.p2 - a.center)

/-- The point halfway along the sweep. -/
def middle (a : Arc α) : Vec2 α :=
  a.center + (a.p1 - a.center).rotate (a.sweep / 2.0)

/-- The distance from `q`: to the circle when `q` lies in the sector of the arc, and to the
nearer endpoint otherwise. -/
def distanceTo (a : Arc α) (q : Vec2 α) : α :=
  let toFirst := a.p1 - a.center
  let toSecond := a.p2 - a.center
  let toPoint := q - a.center
  if near (toFirst.clockwiseTo toPoint + toPoint.clockwiseTo toSecond)
      (toFirst.clockwiseTo toSecond) then
    Scalar.abs (a.radius - toPoint.norm)
  else smaller (distance q a.p1) (distance q a.p2)

end Arc

end PlaneSketch
