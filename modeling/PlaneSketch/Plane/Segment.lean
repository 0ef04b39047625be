import PlaneSketch.Plane.Line

/-!
# Segments

A straight segment between two points, with the distance to a point measured to its nearest
point.  A segment shorter than the geometric tolerance counts as its first endpoint.
-/

namespace PlaneSketch

open Scalar (tolerance smaller)

/-- The straight segment from `p1` to `p2`. -/
structure Segment (α : Type) where
  p1 : Vec2 α
  p2 : Vec2 α
deriving Repr

namespace Segment

variable {α : Type} [Scalar α]

def vector (s : Segment α) : Vec2 α := s.p2 - s.p1

def length (s : Segment α) : α := s.vector.norm

def midpoint (s : Segment α) : Vec2 α := PlaneSketch.midpoint s.p1 s.p2

def line (s : Segment α) : Line α := Line.through s.p1 s.p2

/-- Whether `x` lies between `a` and `b`, in either order. -/
def between (a b x : α) : Bool := (a ≤ x && x ≤ b) || (b ≤ x && x ≤ a)

/-- Whether `p` is close to the carrier line and inside the bounding box of the endpoints. -/
def contains (s : Segment α) (p : Vec2 α) : Bool :=
  if s.length < tolerance then distance s.p1 p < tolerance
  else
    let offLine := (p - s.p1).cross s.vector / s.length
    Scalar.abs offLine < tolerance && between s.p1.x s.p2.x p.x && between s.p1.y s.p2.y p.y

/-- The distance from `p`: to the carrier line when the foot of the perpendicular lies on the
segment, and to the nearer endpoint otherwise. -/
def distanceTo (s : Segment α) (p : Vec2 α) : α :=
  if s.length < tolerance then distance s.p1 p
  else
    let direction := s.vector / s.length
    let offset := p - s.p1
    if s.contains (s.p1 + offset.dot direction • direction) then
      Scalar.abs (offset.cross direction)
    else smaller (distance p s.p1) (distance p s.p2)

end Segment

end PlaneSketch
