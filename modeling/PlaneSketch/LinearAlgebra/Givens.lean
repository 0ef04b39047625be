import PlaneSketch.LinearAlgebra.Floats

/-!
# Plane rotations

Rotations of two coordinates by an angle with a cosine that is not negative.
-/

namespace PlaneSketch

/-- A rotation, by its cosine and sine. -/
structure Givens where
  c : Float
  s : Float

namespace Givens

def identity : Givens := ⟨1, 0⟩

def inverse (g : Givens) : Givens := ⟨g.c, -g.s⟩

/-- The rotated pair of numbers. -/
def apply (g : Givens) (a b : Float) : Float × Float := (a * g.c - g.s * b, g.s * a + b * g.c)

/-- The absolute value of a number and its sign, 1 for zero. -/
def signed (x : Float) : Float × Float := if x >= 0 then (x, 1) else (-x, -1)

/-- The rotation whose cosine and sine are in the ratio of two numbers, with the signed length by
which they are divided. -/
def ofRatio (c s : Float) : Givens × Float :=
  let (modulus, sign) := signed c
  let length := (modulus * modulus + s * s).sqrt
  if 0 < length then (⟨modulus / length, s / (sign * length)⟩, sign * length) else (identity, 1)

/-- The rotation that makes the second number zero, with what the first becomes; none if the second
is zero. -/
def cancelSecond? (x y : Float) : Option (Givens × Float) :=
  if y == 0 then none
  else
    let (modulus, sign) := signed x
    let length := (modulus * modulus + y * y).sqrt
    some (⟨modulus / length, -sign * (y / length)⟩, sign * length)

/-- The rotation that makes the first number zero, with what the second becomes; none if the first
is zero. -/
def cancelFirst? (x y : Float) : Option (Givens × Float) :=
  if x == 0 then none
  else
    let (modulus, sign) := signed y
    let length := (modulus * modulus + x * x).sqrt
    some (⟨modulus / length, x * sign / length⟩, sign * length)

/-- Rotates two of several vectors, entry by entry. -/
def rotate (g : Givens) (p q : Nat) (vectors : Array FloatArray) : Array FloatArray :=
  let v := Floats.vector vectors p
  let w := Floats.vector vectors q
  let first := Floats.ofFn v.size fun i => (g.apply (v.get! i) (w.get! i)).1
  let second := Floats.ofFn v.size fun i => (g.apply (v.get! i) (w.get! i)).2
  (vectors.setIfInBounds p first).setIfInBounds q second

end Givens

end PlaneSketch
