import PlaneSketch.LinearAlgebra.Dense

/-!
# Arrays of floats

Vectors of machine floats of any length, for the decompositions that have to be fast.
-/

namespace PlaneSketch.Floats

/-- The array of a size whose entries a function gives. -/
def ofFn (size : Nat) (f : Nat → Float) : FloatArray :=
  (List.range size).foldl (fun out i => out.push (f i)) (FloatArray.emptyWithCapacity size)

/-- The array with a one at a place and zeros elsewhere. -/
def unit (size place : Nat) : FloatArray := ofFn size fun i => if i = place then 1 else 0

/-- A vector of an array of vectors, empty out of range. -/
def vector (vectors : Array FloatArray) (i : Nat) : FloatArray := vectors.getD i .empty

/-- The sum of products from the places `start` to `v.size`, from left to right, on top of `sum`. -/
def tail (v w : FloatArray) (start : Nat) (sum : Float) : Float :=
  (List.range (v.size - start)).foldl
    (fun sum i => sum + v.get! (start + i) * w.get! (start + i)) sum

/-- The sum of products, from left to right. -/
def dotInOrder (v w : FloatArray) : Float := tail v w 0 0

/-- The sum of the products at the first `count` places that leave the remainder `lane` by 8. -/
def lane (v w : FloatArray) (count lane : Nat) : Float :=
  (List.range count).foldl
    (fun sum k => sum + v.get! (8 * k + lane) * w.get! (8 * k + lane)) 0

/-- The sum of products, over eight partial sums. -/
def dot (v w : FloatArray) : Float :=
  let count := v.size / 8
  let pair := fun j => lane v w count j + lane v w count (j + 4)
  tail v w (8 * count) (if count = 0 then 0 else pair 0 + pair 1 + pair 2 + pair 3)

/-- The array divided by a number. -/
def divide (v : FloatArray) (x : Float) : FloatArray := ofFn v.size fun i => v.get! i / x

/-- The length of `(x, y)`, with one step of correction after the square root. -/
def hypot (x y : Float) : Float :=
  let a := Scalar.larger x.abs y.abs
  let b := Scalar.smaller x.abs y.abs
  if b <= a * 5.551115123125783e-17 then a + b
  else
    let h := (a * a + b * b).sqrt
    if h <= 2 * b then
      let delta := h - b
      h - (a * (2 * delta - a) + (delta - 2 * (a - b)) * delta) / (2 * h)
    else
      let delta := h - a
      h - (2 * delta * (a - 2 * b) + ((4 * delta - b) * b + delta * delta)) / (2 * h)

end PlaneSketch.Floats
