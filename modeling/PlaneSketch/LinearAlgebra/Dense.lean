import PlaneSketch.Scalar

/-!
# Dense vectors and matrices

Vectors of a fixed length and matrices of a fixed shape, stored by rows.  Entry by entry:
`(a.mulVec v)[i] = a[i] · v`, `a.transpose[j][i] = a[i][j]`, and so on.
-/

namespace PlaneSketch

/-- A matrix with `m` rows of length `n`. -/
abbrev Mat (α : Type) (m n : Nat) := Vector (Vector α n) m

section Vectors

variable {α : Type} [Scalar α] {n : Nat}

/-- The sum of the entries, from left to right. -/
def total (v : Vector α n) : α := v.foldl (· + ·) 0

/-- The sum of the products of entries, from left to right. -/
def dotInOrder (v w : Vector α n) : α := total (Vector.zipWith (· * ·) v w)

/-- Eight partial sums. -/
structure Lanes (α : Type) where
  a : α
  b : α
  c : α
  d : α
  e : α
  f : α
  g : α
  h : α

/-- The sum of numbers on top of eight partial sums, to which they are added in turn, eight at a
time; the last ones, fewer than eight, are added at the end. -/
def Lanes.totalOf (s : Lanes α) : List α → α
  | a :: b :: c :: d :: e :: f :: g :: h :: rest =>
    Lanes.totalOf
      ⟨s.a + a, s.b + b, s.c + c, s.d + d, s.e + e, s.f + f, s.g + g, s.h + h⟩ rest
  | rest => rest.foldl (· + ·) ((s.a + s.e) + (s.b + s.f) + (s.c + s.g) + (s.d + s.h))

/-- The sum of the products of entries, over eight partial sums. -/
def dot (v w : Vector α n) : α :=
  Lanes.totalOf ⟨0, 0, 0, 0, 0, 0, 0, 0⟩ (Vector.zipWith (· * ·) v w).toList

/-- The sum of the absolute values. -/
def norm1 (v : Vector α n) : α := total (v.map Scalar.abs)

/-- The largest absolute value; an entry that is NaN is passed over. -/
def maxAbs (v : Vector α n) : α := v.foldl (fun most x => Scalar.larger most (Scalar.abs x)) 0

def allFinite (v : Vector α n) : Bool := v.all Scalar.isFinite

end Vectors

namespace Mat

variable {α : Type} [Scalar α] {m n : Nat}

/-- The entry in a row and a column. -/
def entry (a : Mat α m n) (i : Fin m) (j : Fin n) : α := a[i][j]

def ofFn (f : Fin m → Fin n → α) : Mat α m n := Vector.ofFn fun i => Vector.ofFn fun j => f i j

def identity (n : Nat) : Mat α n n := ofFn fun i j => if i = j then 1 else 0

def transpose (a : Mat α m n) : Mat α n m := ofFn fun j i => a.entry i j

def mulVec (a : Mat α m n) (v : Vector α n) : Vector α m := a.map (dotInOrder · v)

/-- The matrix of all products of an entry of `v` and an entry of `w`. -/
def outer (v : Vector α m) (w : Vector α n) : Mat α m n := v.map fun x => w.map (x * ·)

/-- The matrix with `delta` added on the diagonal. -/
def shift (a : Mat α n n) (delta : α) : Mat α n n := a + delta * (identity n : Mat α n n)

/-- Four matrices put together into one. -/
def blocks {k l : Nat} (a : Mat α m n) (b : Mat α m l) (c : Mat α k n) (d : Mat α k l) :
    Mat α (m + k) (n + l) :=
  (Vector.zipWith (· ++ ·) a b : Vector (Vector α (n + l)) m) ++ Vector.zipWith (· ++ ·) c d

end Mat

end PlaneSketch
