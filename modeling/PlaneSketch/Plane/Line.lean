import PlaneSketch.Plane.Vec2

/-!
# Lines

An infinite line in the implicit form `a·x + b·y = c`.  Two lines meet unless their determinant
is within the geometric tolerance of zero.
-/

namespace PlaneSketch

open Scalar (tolerance machineEpsilon)

/-- The line of all points with `a·x + b·y = c`. -/
structure Line (α : Type) where
  a : α
  b : α
  c : α
deriving Repr

namespace Line

variable {α : Type} [Scalar α]

/-- The line through two points; all coefficients vanish when they are equal. -/
def through (p q : Vec2 α) : Line α :=
  ⟨p.y - q.y, q.x - p.x, p.y * q.x - p.x * q.y⟩

def normal (l : Line α) : Vec2 α := ⟨l.a, l.b⟩

/-- The common point of two lines, by Cramer's rule; none when they are nearly parallel. -/
def intersect? (l k : Line α) : Option (Vec2 α) :=
  let det := l.a * k.b - l.b * k.a
  if Scalar.abs det < tolerance then none
  else some ⟨(l.c * k.b - l.b * k.c) / det, (l.a * k.c - l.c * k.a) / det⟩

/-- The foot of the perpendicular from `p`. -/
def project? (l : Line α) (p : Vec2 α) : Option (Vec2 α) :=
  l.intersect? (through p (p + l.normal))

/-- The distance from `p`; none for a line through two equal points. -/
def distance? (l : Line α) (p : Vec2 α) : Option α :=
  let norm := l.normal.norm
  if norm < machineEpsilon then none
  else some (Scalar.abs (l.a * p.x + l.b * p.y - l.c) / norm)

end Line

end PlaneSketch
