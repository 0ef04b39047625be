import PlaneSketch.Scalar

/-!
# Vectors of the plane

A `Vec2` is a point or the displacement between two points.  The sketch lives in screen
coordinates: the y axis points down, so a positive `cross a b` says that `b` lies clockwise
from `a` as drawn.

* `Vec2.dot`, `Vec2.cross`, `Vec2.norm`, `distance`, `midpoint`.
* `Vec2.quarterCcw`, `Vec2.quarterCw`, `Vec2.rotate`: turns as drawn.
* `foldAngle`, `Vec2.clockwiseTo`: angles in `[0, turn)`.
-/

namespace PlaneSketch

open Scalar (tolerance)

/-- A point of the plane, or a displacement. -/
structure Vec2 (α : Type) where
  x : α
  y : α
deriving Repr

/-- Brings an angle that `atan2` gives into `[0, turn)`. -/
def foldAngle {α : Type} [Angular α] (angle : α) : α :=
  if angle < 0 then angle + Angular.turn
  else if (Angular.turn : α) ≤ angle then angle - Angular.turn
  else angle

namespace Vec2

variable {α : Type} [Scalar α]

instance : Add (Vec2 α) := ⟨fun v w => ⟨v.x + w.x, v.y + w.y⟩⟩
instance : Sub (Vec2 α) := ⟨fun v w => ⟨v.x - w.x, v.y - w.y⟩⟩
instance : SMul α (Vec2 α) := ⟨fun k v => ⟨k * v.x, k * v.y⟩⟩
instance : HDiv (Vec2 α) α (Vec2 α) := ⟨fun v k => ⟨v.x / k, v.y / k⟩⟩
instance : Zero (Vec2 α) := ⟨⟨0, 0⟩⟩

def dot (v w : Vec2 α) : α := v.x * w.x + v.y * w.y

/-- The third component of the cross product in space. -/
def cross (v w : Vec2 α) : α := v.x * w.y - v.y * w.x

def normSq (v : Vec2 α) : α := v.x * v.x + v.y * v.y

def norm (v : Vec2 α) : α := Scalar.sqrt v.normSq

/-- The vector of length one in the same direction, unless the length is at most `threshold`. -/
def unit? (v : Vec2 α) (threshold : α) : Option (Vec2 α) :=
  if v.norm ≤ threshold then none else some (v / v.norm)

/-- A quarter turn counter-clockwise as drawn. -/
def quarterCcw (v : Vec2 α) : Vec2 α := ⟨v.y, -v.x⟩

/-- A quarter turn clockwise as drawn. -/
def quarterCw (v : Vec2 α) : Vec2 α := ⟨-v.y, v.x⟩

/-- Equality up to `tolerance`, by squared distance. -/
def near (v w : Vec2 α) : Bool := (v - w).normSq < tolerance * tolerance

/-- The vector turned clockwise as drawn by an angle. -/
def rotate {α : Type} [Angular α] (v : Vec2 α) (angle : α) : Vec2 α :=
  ⟨Angular.cos angle * v.x - Angular.sin angle * v.y,
   Angular.sin angle * v.x + Angular.cos angle * v.y⟩

/-- The clockwise angle swept when turning from `v` to `w`, in `[0, turn)`. -/
def clockwiseTo {α : Type} [Angular α] (v w : Vec2 α) : α :=
  foldAngle (Angular.atan2 (v.cross w) (v.dot w))

end Vec2

variable {α : Type} [Scalar α]

def distance (p q : Vec2 α) : α := (q - p).norm

def midpoint (p q : Vec2 α) : Vec2 α := ⟨(p.x + q.x) * 0.5, (p.y + q.y) * 0.5⟩

end PlaneSketch
