import PlaneSketch.LinearAlgebra.Dense

/-!
# Cholesky factorisation

A symmetric matrix is positive definite exactly when its Cholesky factorisation goes through,
that is, when every pivot is positive.  Only the lower triangle is read.  The factor is built row
by row; a row is the list of its entries up to the diagonal.
-/

namespace PlaneSketch.Cholesky

variable {α : Type} [Scalar α]

/-- `x` less the products of the entries of two rows of the factor, from left to right. -/
def reduce (x : α) (row other : List α) : α :=
  (row.zip other).foldl (fun rest p => rest - p.1 * p.2) x

/-- The entries of a new row to the left of its diagonal: one for each finished row, given the
entries of the matrix there.  `done` holds the entries found so far. -/
def leftEntries (done : List α) : List (List α) → List α → List α
  | finished :: rows, x :: rest =>
    let pivot := finished.getLast?.getD 1
    leftEntries (done ++ [reduce x finished done / pivot]) rows rest
  | _, _ => done

/-- The factor's rows below `rows`, given the lower triangle's rows; none at a pivot that is not
positive. -/
def factor? (rows : List (List α)) : List (List α) → Option (List (List α))
  | [] => some rows
  | lower :: rest =>
    let left := leftEntries [] rows lower
    let pivot := reduce (lower.getLast?.getD 0) left left
    if 0 < pivot then factor? (rows ++ [left ++ [Scalar.sqrt pivot]]) rest else none

/-- The rows of the lower triangle of a matrix, up to the diagonal. -/
def lowerRows {n : Nat} (a : Mat α n n) : List (List α) :=
  a.toList.mapIdx fun i row => row.toList.take (i + 1)

/-- Whether the factorisation of a matrix goes through. -/
def succeeds {n : Nat} (a : Mat α n n) : Bool := (factor? [] (lowerRows a)).isSome

end PlaneSketch.Cholesky
