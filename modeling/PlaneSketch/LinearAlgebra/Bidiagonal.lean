import PlaneSketch.LinearAlgebra.Givens

/-!
# Bidiagonal form

A matrix with at least as many rows as columns is the product of orthonormal columns, a matrix
with entries on the diagonal and just above it only, and orthonormal rows.  Reflections from the
left clear the columns below the diagonal, and reflections from the right clear the rows beyond
the entry after it.

The matrix is given by its columns.  The two functions `fromLeft` and `fromRight` say in which
order products are summed when a reflection is applied from that side.
-/

namespace PlaneSketch

/-- The bidiagonal form; `left` holds the orthonormal columns and `right` the orthonormal rows. -/
structure Bidiagonal where
  diagonal : FloatArray
  offDiagonal : FloatArray
  left : Array FloatArray
  right : Array FloatArray

namespace Bidiagonal

/-- A reflection that acts on the places from `start` on, by a unit vector or the zero vector, and
multiplies by `sign`; `image` is what becomes of the first entry of the vector it was made for. -/
structure Reflection where
  start : Nat
  axis : FloatArray
  image : Float
  active : Bool

/-- The sign of a number; that of zero is the sign of its representation. -/
def signOf (x : Float) : Float := if x < 0 then -1 else if 0 < x then 1 else if 1 / x < 0 then -1 else 1

/-- The reflection that clears all but the first of the entries of a vector from `start` on. -/
def reflectionFor (v : FloatArray) (start : Nat) : Reflection :=
  let part := Floats.ofFn (v.size - start) fun i => v.get! (start + i)
  let normSq := Floats.dot part part
  let norm := normSq.sqrt
  let (modulus, sign) := Givens.signed (part.get! 0)
  let factor := (normSq + modulus * norm) * 2
  let axis := part.set! 0 (part.get! 0 + sign * norm)
  if factor == 0 then ⟨start, axis, sign * norm, false⟩
  else
    let axis := Floats.divide axis factor.sqrt
    ⟨start, Floats.divide axis (Floats.dot axis axis).sqrt, -(sign * norm), true⟩

/-- The reflected vector, times the sign. -/
def Reflection.apply (sum : FloatArray → FloatArray → Float) (h : Reflection) (x : FloatArray) :
    FloatArray :=
  let part := Floats.ofFn h.axis.size fun i => x.get! (h.start + i)
  let sign := signOf h.image
  let factor := sum h.axis part * (sign * (-2))
  Floats.ofFn x.size fun i =>
    if i < h.start then x.get! i
    else factor * h.axis.get! (i - h.start) + sign * x.get! i

/-- Clears column `j` by a reflection from the left. -/
def clearColumn (fromLeft : FloatArray → FloatArray → Float) (j : Nat)
    (columns : Array FloatArray) : Reflection × Array FloatArray :=
  let h := reflectionFor (Floats.vector columns j) j
  (h, if h.active then columns.mapIdx fun k c => if k ≤ j then c else h.apply fromLeft c
      else columns)

/-- Row `i` of a matrix given by its columns. -/
def row (columns : Array FloatArray) (i : Nat) : FloatArray :=
  Floats.ofFn columns.size fun j => (Floats.vector columns j).get! i

/-- Clears row `i` beyond the diagonal and the next entry by a reflection from the right. -/
def clearRow (fromRight : FloatArray → FloatArray → Float) (i : Nat)
    (columns : Array FloatArray) : Reflection × Array FloatArray :=
  let h := reflectionFor (row columns i) (i + 1)
  if h.active then
    let height := (Floats.vector columns 0).size
    let rows := Array.ofFn fun k : Fin height =>
      if k.val ≤ i then row columns k else h.apply fromRight (row columns k)
    (h, Array.ofFn fun j : Fin columns.size =>
      Floats.ofFn height fun k => (Floats.vector rows k).get! j)
  else (h, columns)

/-- Clears columns and rows in turn, `count` of each from `j` on, and then the last column. -/
def clearFrom (fromLeft fromRight : FloatArray → FloatArray → Float) :
    (count j : Nat) → Array FloatArray → List Reflection × List Reflection
  | 0, j, columns => ([(clearColumn fromLeft j columns).1], [])
  | count + 1, j, columns =>
    let (left, columns) := clearColumn fromLeft j columns
    let (right, columns) := clearRow fromRight j columns
    let (lefts, rights) := clearFrom fromLeft fromRight count (j + 1) columns
    (left :: lefts, right :: rights)

/-- The first `count` unit vectors of a size, with reflections applied to them from the last to the
first, each to the vectors from its own number on. -/
def unfold (sum : FloatArray → FloatArray → Float) (count size : Nat)
    (reflections : List Reflection) : Array FloatArray :=
  let units := Array.ofFn fun j : Fin count => Floats.unit size j
  reflections.zipIdx.foldr (fun (h, i) vectors =>
    if Floats.dot h.axis h.axis == 0 then vectors
    else vectors.mapIdx fun k v => if k < i then v else h.apply sum v) units

/-- The bidiagonal form of a matrix with columns of the length `height`. -/
def ofColumns (fromLeft fromRight : FloatArray → FloatArray → Float) (height : Nat)
    (columns : Array FloatArray) : Bidiagonal :=
  let dim := columns.size
  let (lefts, rights) := clearFrom fromLeft fromRight (dim - 1) 0 columns
  let images := fun hs : List Reflection =>
    (⟨(hs.map fun h => h.image.abs).toArray⟩ : FloatArray)
  { diagonal := images lefts
    offDiagonal := images rights
    left := unfold fromLeft dim height lefts
    right := unfold fromRight dim dim rights }

end Bidiagonal

end PlaneSketch
