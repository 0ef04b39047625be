import PlaneSketch.LinearAlgebra.Bidiagonal
import PlaneSketch.LinearAlgebra.Cholesky
import PlaneSketch.LinearAlgebra.Kernel

/-!
# Least squares by singular values

The least-squares solution of least norm on machine floats.  The matrix is brought to bidiagonal
form, which plane rotations then make diagonal, by the implicit QR method with Wilkinson shifts.
Singular values up to `10⁻¹²` of the largest one count as zero.

* `Svd.split`: the part of the bidiagonal form that is not diagonal yet.
* `Svd.sweep`, `Svd.solvePair`: one pass of the method, and the direct solution of two rows.
* `Svd.diagonalise`, `Svd.decompose`: the singular values and vectors.
* `Svd.solve`: least squares for a matrix of any shape.
* `Kernel.float`: the kernel on machine floats.
-/

namespace PlaneSketch

namespace Svd

/-- Numbers up to this size are negligible beside one. -/
def negligible : Float := 2.220446049250313e-16 * 5

/-! ## Access -/

abbrev State := Bidiagonal

def diag (s : State) (i : Nat) : Float := s.diagonal.get! i

def off (s : State) (i : Nat) : Float := s.offDiagonal.get! i

def setDiag (i : Nat) (x : Float) (s : State) : State :=
  { s with diagonal := s.diagonal.set! i x }

def setOff (i : Nat) (x : Float) (s : State) : State :=
  { s with offDiagonal := s.offDiagonal.set! i x }

def rotateLeft (g : Givens) (p q : Nat) (s : State) : State :=
  { s with left := g.rotate p q s.left }

def rotateRight (g : Givens) (p q : Nat) (s : State) : State :=
  { s with right := g.rotate p q s.right }

/-! ## Splitting at zeros -/

/-- Moves the entry `x` of row `i`, whose diagonal entry is zero, along the row from column `k + 1`
on, by rotations with the rows below, up to row `k + count`. -/
def chaseRow (i : Nat) : (count k : Nat) → (x : Float) → State → State
  | 0, _, _, s => s
  | count + 1, k, x, s =>
    match Givens.cancelFirst? x (diag s (k + 1)) with
    | none => s
    | some (g, norm) =>
      let s := rotateLeft g i (k + 1) (setDiag (k + 1) norm s)
      if count = 0 then s
      else
        let next := off s (k + 1)
        chaseRow i count (k + 1) (-g.s * next) (setOff (k + 1) (next * g.c) s)

/-- Clears the entry beside a diagonal entry that is zero, in row `i`, with the rows up to
`stop`. -/
def clearBeside (i stop : Nat) (s : State) : State :=
  chaseRow i (stop - i) i (off s i) (setOff i 0 s)

/-- Moves the entry `y` of column `i + 1`, whose diagonal entry is zero, up the column from row
`k - 1` on, by rotations with the columns before it. -/
def chaseColumn (i : Nat) : (k : Nat) → (y : Float) → State → State
  | 0, _, s => s
  | k + 1, y, s =>
    match Givens.cancelSecond? (diag s k) y with
    | none => s
    | some (g, norm) =>
      let s := rotateRight g k (i + 1) (setDiag k norm s)
      if k = 0 then s
      else
        let next := off s (k - 1)
        chaseColumn i k (g.s * next) (setOff (k - 1) (next * g.c) s)

/-- Clears the entry above a diagonal entry that is zero, in row `i`. -/
def clearAbove (i : Nat) (s : State) : State :=
  chaseColumn i (i + 1) (off s i) (setOff i 0 s)

/-- Clears both entries next to the diagonal entry `m`, which is negligible. -/
def clearAround (m stop : Nat) (s : State) : State :=
  let s := clearBeside m stop (setDiag m 0 s)
  if m = 0 then s else clearAbove (m - 1) s

/-- Whether the entry next to the diagonal in row `m` is negligible beside its neighbours. -/
def isDecoupled (m : Nat) (s : State) : Bool :=
  (off s m).abs <= negligible * ((diag s (m + 1)).abs + (diag s m).abs)

/-- Drops the last rows that are diagonal already; gives the last row that is left. -/
def dropDone : (last : Nat) → State → State × Nat
  | 0, s => (s, 0)
  | m + 1, s =>
    if off s m == 0 || isDecoupled m s then dropDone m (setOff m 0 s)
    else if (diag s m).abs <= negligible then dropDone m (clearAround m (m + 1) s)
    else if (diag s (m + 1)).abs <= negligible then
      dropDone m (clearAbove m (setDiag (m + 1) 0 s))
    else (s, m + 1)

/-- The first row of the block that ends in row `last` and is coupled throughout. -/
def blockStart (last : Nat) : (first : Nat) → State → State × Nat
  | 0, s => (s, 0)
  | m + 1, s =>
    if isDecoupled m s then (setOff m 0 s, m + 1)
    else if (diag s m).abs <= negligible then (clearAround m last s, m + 1)
    else blockStart last m s

/-- The last block that is not diagonal yet, by its first and last row; both are zero if there is
none. -/
def split (last : Nat) (s : State) : State × Nat × Nat :=
  let (s, last) := dropDone last s
  if last = 0 then (s, 0, 0)
  else
    let (s, first) := blockStart last (last - 1) s
    (s, first, last)

/-! ## The implicit QR method -/

/-- The eigenvalue of a symmetric matrix of two rows that is closer to its last entry. -/
def wilkinsonShift (tmm tnn tmn : Float) : Float :=
  let square := tmn * tmn
  if square == 0 then tnn
  else
    let d := (tmm - tnn) * 0.5
    tnn - square / (d + Bidiagonal.signOf d * (d * d + square).sqrt)

/-- Chases the bulge `(x, y)` from row `k` down through `count` rows. -/
def chaseBulge (first : Nat) : (count k : Nat) → (x y : Float) → State → State
  | 0, _, _, _, s => s
  | count + 1, k, x, y, s =>
    match Givens.cancelSecond? x y with
    | none => s
    | some (g, norm) =>
      let beyond := if count = 0 then 0 else off s (k + 1)
      let (a00, a01) := g.apply (diag s k) (off s k)
      let (a10, a11) := g.apply 0 (diag s (k + 1))
      let s := if first < k then setOff (k - 1) norm s else s
      let (h, head) := (Givens.cancelSecond? a00 a10).getD (Givens.identity, a00)
      let (b01, b11) := h.apply a01 a11
      let (b02, b12) := h.apply 0 beyond
      let s := rotateLeft h k (k + 1) (rotateRight g k (k + 1) s)
      let s := setOff k b01 (setDiag (k + 1) b11 (setDiag k head s))
      let s := if count = 0 then s else setOff (k + 1) b12 s
      chaseBulge first count (k + 1) b01 b02 s

/-- One pass over the block from row `first` to row `last`. -/
def sweep (first last : Nat) (s : State) : State :=
  let m := last - 1
  let dm := diag s m
  let dn := diag s last
  let fm := off s m
  let shift :=
    wilkinsonShift (dm * dm + off s (m - 1) * off s (m - 1)) (dn * dn + fm * fm) (dm * fm)
  chaseBulge first (last - first) first (diag s first * diag s first - shift)
    (diag s first * off s first) s

/-- Makes a block of the two rows `k` and `k + 1` diagonal. -/
def solvePair (k : Nat) (s : State) : State :=
  let m11 := diag s k
  let m12 := off s k
  let m22 := diag s (k + 1)
  let denom := Floats.hypot (m11 + m22) m12 + Floats.hypot (m11 - m22) m12
  let near := m11 * m22 * 2 / denom
  let far := 0.5 * denom
  let (g, lengthG) := Givens.ofRatio (m11 * m12) (near * near - m11 * m11)
  let near := near * lengthG
  let far := far * lengthG
  let (h, lengthH) := Givens.ofRatio ((m11 * g.c + m12 * g.s) / near) (m22 * g.s / near)
  let s := setOff k 0 (setDiag (k + 1) (far * lengthH) (setDiag k (near * lengthH) s))
  rotateRight g.inverse k (k + 1) (rotateLeft h.inverse k (k + 1) s)

/-- Passes over the block from row `first` to row `last`, and over those that it splits into, at
most `budget` times. -/
def iterate : (budget first last : Nat) → State → State
  | 0, _, _, s => s
  | budget + 1, first, last, s =>
    if first = last then s
    else
      let (s, last) :=
        if first + 1 < last then (sweep first last s, last) else (solvePair first s, last - 1)
      let (s, first, last) := split last s
      iterate budget first last s

/-- More passes than the method takes in practice. -/
def budgetFor (dim : Nat) : Nat := 1000 + 100 * dim

/-- Singular values and vectors, from the bidiagonal form. -/
def diagonalise (s : State) : State :=
  let dim := s.diagonal.size
  let (s, first, last) := split (dim - 1) s
  iterate (budgetFor dim) first last s

/-! ## Least squares -/

/-- A singular value with its left and right vector. -/
structure Triple where
  value : Float
  left : FloatArray
  right : FloatArray

/-- The triple of row `i` of a diagonal form whose values are `scale` times too small.  The sign of
the value goes to the left vector. -/
def triple (scale : Float) (s : State) (i : Nat) : Triple :=
  let value := diag s i * scale
  let left := Floats.vector s.left i
  if value < 0 then ⟨-value, Floats.ofFn left.size fun k => -left.get! k, Floats.vector s.right i⟩
  else ⟨value, left, Floats.vector s.right i⟩

/-- The triples of a diagonal form, largest first. -/
def triples (scale : Float) (s : State) : List Triple :=
  ((List.range s.diagonal.size).map (triple scale s)).mergeSort fun s t => t.value <= s.value

/-- The smallest positive normal number. -/
def smallestNormal : Float := 2.2250738585072014e-308

/-- The columns of a matrix divided by `scale`. -/
def scaledColumns {m n : Nat} (scale : Float) (a : Mat Float m n) : Array FloatArray :=
  Array.ofFn fun j : Fin n => ⟨Array.ofFn fun i : Fin m => a.entry i j / scale⟩

/-- What the entries of a matrix are divided by: the largest absolute value among them, or 1. -/
def scaleOf {m n : Nat} (a : Mat Float m n) : Float :=
  let largest := a.foldl (fun most row => Scalar.larger most (maxAbs row)) 0
  if 0 < largest then largest else 1

/-- The triples of a matrix of finite entries.  A matrix with more columns than rows is decomposed
through its transpose. -/
def decompose {m n : Nat} (a : Mat Float m n) : List Triple :=
  let scale := scaleOf a
  if n ≤ m then
    triples scale (diagonalise
      (Bidiagonal.ofColumns Floats.dot Floats.dotInOrder m (scaledColumns scale a)))
  else
    (triples scale (diagonalise
      (Bidiagonal.ofColumns Floats.dotInOrder Floats.dot n (scaledColumns scale a.transpose)))).map
        fun t => { t with left := t.right, right := t.left }

/-- The bound up to which the values of sorted triples count as zero. -/
def cutOff (triples : List Triple) : Float :=
  1e-12 * Scalar.larger ((triples.head?.map (·.value)).getD 0) smallestNormal

/-- The factor of each right vector in the solution for a right side. -/
def weights (triples : List Triple) (b : FloatArray) : FloatArray :=
  let cut := cutOff triples
  ⟨(triples.map fun t => if cut < t.value then Floats.dot t.left b / t.value else 0).toArray⟩

/-- The vector of least norm among those that minimise `‖a·x - b‖`.  A matrix with an entry that
is not finite gives a vector of NaN. -/
def solve {m n : Nat} (a : Mat Float m n) (b : Vector Float m) : Vector Float n :=
  if m = 0 ∨ n = 0 then 0
  else if !a.all allFinite then Vector.replicate n (0 / 0)
  else
    let triples := decompose a
    let weights := weights triples ⟨b.toArray⟩
    Vector.ofFn fun j : Fin n =>
      Floats.dot ⟨(triples.map fun t => t.right.get! j).toArray⟩ weights

end Svd

/-- The kernel on machine floats. -/
def Kernel.float : Kernel Float where
  leastSquares := Svd.solve
  isPositiveDefinite := Cholesky.succeeds

end PlaneSketch
