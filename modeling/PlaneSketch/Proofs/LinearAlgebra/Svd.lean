import PlaneSketch.LinearAlgebra.Svd
import PlaneSketch.Proofs.Scalar.Float

/-!
# NaN on the right side of a linear system

A least-squares solution adds up a right vector for each singular value that is not cut off, by the
product of its left vector with the right side.  The left vectors are as long as the right side,
whatever the entries are, so NaN anywhere on the right side makes all of the solution NaN as soon
as one singular value is kept.

* `Floats.isNumber_of_isNumber_dot`: a product of vectors misses no entry of the second one.
* `Svd.Shaped`: the number of left vectors and their length, which rotations do not change;
  `Svd.shaped_ofColumns`, `Svd.Shaped.diagonalise`: they are those of the columns of the matrix.
* `Svd.not_allFinite_solve`: **a right side with NaN has no finite solution** by a matrix of which
  a singular value is kept.
-/

namespace PlaneSketch

open Scalar

/-! ## Arrays of floats -/

namespace Floats

theorem size_push (v : FloatArray) (x : Float) : (v.push x).size = v.size + 1 := by
  cases v
  exact Array.size_push _

theorem size_set! (v : FloatArray) (i : Nat) (x : Float) : (v.set! i x).size = v.size := by
  cases v
  exact Array.size_setIfInBounds

theorem size_foldl_push (f : Nat → Float) (l : List Nat) (v : FloatArray) :
    (l.foldl (fun out i => out.push (f i)) v).size = v.size + l.length := by
  induction l generalizing v with
  | nil => rfl
  | cons i l ih =>
    rw [List.foldl_cons, ih, size_push, List.length_cons]
    omega

theorem size_ofFn (size : Nat) (f : Nat → Float) : (ofFn size f).size = size := by
  rw [ofFn, size_foldl_push, List.length_range]
  exact Nat.zero_add size

/-! ### Sums of products -/

variable {v w : FloatArray}

theorem isNumber_of_isNumber_tail {start : Nat} {sum : Float}
    (h : IsNumber (tail v w start sum)) :
    IsNumber sum ∧ ∀ i, start ≤ i → i < v.size → IsNumber (w.get! i) := by
  obtain ⟨hSum, hTerms⟩ := isNumber_of_isNumber_foldl h
  refine ⟨hSum, fun i hStart hSize => ?_⟩
  have hTerm := hTerms (i - start) (List.mem_range.mpr (by omega))
  rw [Nat.add_sub_cancel' hStart] at hTerm
  exact (isNumber_mul hTerm).2

theorem isNumber_of_isNumber_lane {count j k : Nat} (h : IsNumber (lane v w count j))
    (hk : k < count) : IsNumber (w.get! (8 * k + j)) :=
  (isNumber_mul ((isNumber_of_isNumber_foldl h).2 k (List.mem_range.mpr hk))).2

/-- A product of vectors misses no entry of the second one. -/
theorem isNumber_of_isNumber_dot {i : Nat} (h : IsNumber (dot v w)) (hi : i < v.size) :
    IsNumber (w.get! i) := by
  obtain ⟨hLanes, hTail⟩ := isNumber_of_isNumber_tail h
  by_cases hPlace : i < 8 * (v.size / 8)
  · rw [if_neg (by omega)] at hLanes
    obtain ⟨h012, h3⟩ := isNumber_add hLanes
    obtain ⟨h01, h2⟩ := isNumber_add h012
    obtain ⟨h0, h1⟩ := isNumber_add h01
    have hPair : ∀ j < 4, IsNumber (lane v w (v.size / 8) j + lane v w (v.size / 8) (j + 4)) := by
      intro j hj
      interval_cases j
      · exact h0
      · exact h1
      · exact h2
      · exact h3
    -- the place `i` is the one of number `i / 8` in its lane
    have hLane : IsNumber (lane v w (v.size / 8) (i % 8)) := by
      by_cases hHalf : i % 8 < 4
      · exact (isNumber_add (hPair _ hHalf)).1
      · have hSecond := (isNumber_add (hPair (i % 8 - 4) (by omega))).2
        rwa [Nat.sub_add_cancel (by omega)] at hSecond
    have hEntry := isNumber_of_isNumber_lane hLane (k := i / 8) (by omega)
    rwa [Nat.div_add_mod] at hEntry
  · exact hTail i (by omega) hi

/-! ### Vectors of one length -/

/-- An array of `count` vectors of the length `height`. -/
structure Tall (count height : Nat) (vectors : Array FloatArray) : Prop where
  size : vectors.size = count
  size_of_mem : ∀ v ∈ vectors, v.size = height

namespace Tall

variable {count height : Nat} {vectors : Array FloatArray}

theorem size_vector (h : Tall count height vectors) {i : Nat} (hi : i < count) :
    (vector vectors i).size = height := by
  have hSize : i < vectors.size := hi.trans_eq h.size.symm
  have hVector : vector vectors i = vectors[i] := by
    rw [vector, Array.getD_eq_getD_getElem?, Array.getElem?_eq_getElem hSize,
      Option.getD_some]
  rw [hVector]
  exact h.size_of_mem _ (Array.getElem_mem hSize)

theorem setIfInBounds (h : Tall count height vectors) (i : Nat) {v : FloatArray}
    (hv : v.size = height) : Tall count height (vectors.setIfInBounds i v) := by
  refine ⟨Array.size_setIfInBounds.trans h.size, fun w hw => ?_⟩
  rcases Array.mem_or_eq_of_mem_setIfInBounds hw with hw | rfl
  · exact h.size_of_mem w hw
  · exact hv

/-- A rotation takes both vectors to be as long as the first one. -/
theorem rotate (h : Tall count height vectors) (g : Givens) {p : Nat} (hp : p < count) (q : Nat) :
    Tall count height (g.rotate p q vectors) := by
  rw [Givens.rotate]
  refine (h.setIfInBounds p ?_).setIfInBounds q ?_
  · rw [size_ofFn, h.size_vector hp]
  · rw [size_ofFn, h.size_vector hp]

theorem mapIdx (h : Tall count height vectors) {f : Nat → FloatArray → FloatArray}
    (hf : ∀ k v, (f k v).size = v.size) : Tall count height (vectors.mapIdx f) := by
  refine ⟨Array.size_mapIdx.trans h.size, fun w hw => ?_⟩
  obtain ⟨k, hk, rfl⟩ := Array.mem_mapIdx.mp hw
  rw [hf]
  exact h.size_of_mem _ (Array.getElem_mem hk)

theorem unfold (sum : FloatArray → FloatArray → Float) (count height : Nat)
    (reflections : List Bidiagonal.Reflection) :
    Tall count height (Bidiagonal.unfold sum count height reflections) := by
  rw [Bidiagonal.unfold]
  induction reflections.zipIdx with
  | nil =>
    refine ⟨Array.size_ofFn, fun v hv => ?_⟩
    obtain ⟨j, rfl⟩ := Array.mem_ofFn.mp hv
    exact size_ofFn ..
  | cons reflection rest ih =>
    obtain ⟨r, i⟩ := reflection
    rw [List.foldr_cons]
    simp only
    split
    · exact ih
    · refine ih.mapIdx fun k v => ?_
      split
      · rfl
      · exact size_ofFn ..

end Tall

end Floats

namespace Svd

/-! ## The shape of a form -/

/-- A form of `dim` rows, with as many left vectors of the length `height`. -/
structure Shaped (dim height : Nat) (s : State) : Prop where
  diagonal : s.diagonal.size = dim
  left : Floats.Tall dim height s.left

namespace Shaped

variable {dim height : Nat} {s : State}

theorem setDiag (h : Shaped dim height s) (i : Nat) (x : Float) :
    Shaped dim height (Svd.setDiag i x s) :=
  ⟨(Floats.size_set! ..).trans h.diagonal, h.left⟩

theorem setOff (h : Shaped dim height s) (i : Nat) (x : Float) :
    Shaped dim height (Svd.setOff i x s) :=
  ⟨h.diagonal, h.left⟩

theorem rotateLeft (h : Shaped dim height s) (g : Givens) {p : Nat} (hp : p < dim) (q : Nat) :
    Shaped dim height (Svd.rotateLeft g p q s) :=
  ⟨h.diagonal, h.left.rotate g hp q⟩

theorem rotateRight (h : Shaped dim height s) (g : Givens) (p q : Nat) :
    Shaped dim height (Svd.rotateRight g p q s) :=
  ⟨h.diagonal, h.left⟩

/-! ### Splitting at zeros -/

theorem chaseRow {i : Nat} (hi : i < dim) (h : Shaped dim height s) (count k : Nat) (x : Float) :
    Shaped dim height (Svd.chaseRow i count k x s) := by
  induction count generalizing k x s with
  | zero => exact h
  | succ count ih =>
    rw [Svd.chaseRow]
    split
    · exact h
    · next g norm _ =>
      have hRotated := (h.setDiag (k + 1) norm).rotateLeft g hi (k + 1)
      simp only
      split
      · exact hRotated
      · exact ih (hRotated.setOff ..) ..

theorem chaseColumn (i : Nat) (h : Shaped dim height s) (k : Nat) (y : Float) :
    Shaped dim height (Svd.chaseColumn i k y s) := by
  induction k generalizing y s with
  | zero => exact h
  | succ k ih =>
    rw [Svd.chaseColumn]
    split
    · exact h
    · next g norm _ =>
      have hRotated := (h.setDiag k norm).rotateRight g k (i + 1)
      simp only
      split
      · exact hRotated
      · exact ih (hRotated.setOff ..) _

theorem clearAbove (h : Shaped dim height s) (i : Nat) : Shaped dim height (Svd.clearAbove i s) :=
  (h.setOff i 0).chaseColumn i (i + 1) _

theorem clearAround (h : Shaped dim height s) {m : Nat} (hm : m < dim) (stop : Nat) :
    Shaped dim height (Svd.clearAround m stop s) := by
  have hBeside : Shaped dim height (clearBeside m stop (Svd.setDiag m 0 s)) :=
    chaseRow hm ((h.setDiag m 0).setOff m 0) (stop - m) m _
  rw [Svd.clearAround]
  split
  · exact hBeside
  · exact hBeside.clearAbove _

theorem dropDone {last : Nat} (h : Shaped dim height s) (hLast : last < dim) :
    Shaped dim height (Svd.dropDone last s).1 ∧ (Svd.dropDone last s).2 ≤ last := by
  induction last generalizing s with
  | zero => exact ⟨h, le_refl 0⟩
  | succ m ih =>
    have hm : m < dim := Nat.lt_of_succ_lt hLast
    have hStep : ∀ {t : State}, Shaped dim height t →
        Shaped dim height (Svd.dropDone m t).1 ∧ (Svd.dropDone m t).2 ≤ m + 1 :=
      fun ht => ⟨(ih ht hm).1, Nat.le_succ_of_le (ih ht hm).2⟩
    rw [Svd.dropDone]
    split
    · exact hStep (h.setOff m 0)
    · split
      · exact hStep (h.clearAround hm (m + 1))
      · split
        · exact hStep ((h.setDiag (m + 1) 0).clearAbove m)
        · exact ⟨h, le_refl (m + 1)⟩

theorem blockStart {first : Nat} (last : Nat) (h : Shaped dim height s) (hFirst : first < dim) :
    Shaped dim height (Svd.blockStart last first s).1 ∧
      (Svd.blockStart last first s).2 ≤ first := by
  induction first generalizing s with
  | zero => exact ⟨h, le_refl 0⟩
  | succ m ih =>
    have hm : m < dim := Nat.lt_of_succ_lt hFirst
    rw [Svd.blockStart]
    split
    · exact ⟨h.setOff m 0, le_refl (m + 1)⟩
    · split
      · exact ⟨h.clearAround hm last, le_refl (m + 1)⟩
      · exact ⟨(ih h hm).1, Nat.le_succ_of_le (ih h hm).2⟩

theorem split {last : Nat} (h : Shaped dim height s) (hLast : last < dim) :
    Shaped dim height (Svd.split last s).1 ∧
      (Svd.split last s).2.1 ≤ (Svd.split last s).2.2 ∧ (Svd.split last s).2.2 < dim := by
  obtain ⟨hDropped, hLe⟩ := h.dropDone hLast
  rw [Svd.split]
  simp only
  split
  · exact ⟨hDropped, le_refl 0, Nat.zero_lt_of_lt hLast⟩
  · have hBefore : (Svd.dropDone last s).2 - 1 < dim := by omega
    obtain ⟨hStart, hFirst⟩ := hDropped.blockStart (Svd.dropDone last s).2 hBefore
    exact ⟨hStart, hFirst.trans (Nat.sub_le ..), hLe.trans_lt hLast⟩

/-! ### The implicit QR method -/

theorem chaseBulge (first : Nat) {count k : Nat} (h : Shaped dim height s) (hk : k + count < dim)
    (x y : Float) : Shaped dim height (Svd.chaseBulge first count k x y s) := by
  induction count generalizing k x y s with
  | zero => exact h
  | succ count ih =>
    rw [Svd.chaseBulge]
    split
    · exact h
    · next g norm _ =>
      simp only
      refine ih ?_ (by omega) ..
      have hStart : Shaped dim height (if first < k then Svd.setOff (k - 1) norm s else s) := by
        split
        · exact h.setOff ..
        · exact h
      have hRow : k < dim := by omega
      have hRotated := fun h => (hStart.rotateRight g k (k + 1)).rotateLeft h hRow (k + 1)
      split
      · exact (((hRotated _).setDiag ..).setDiag ..).setOff ..
      · exact ((((hRotated _).setDiag ..).setDiag ..).setOff ..).setOff ..

theorem sweep {first last : Nat} (h : Shaped dim height s) (hFirst : first ≤ last)
    (hLast : last < dim) : Shaped dim height (Svd.sweep first last s) :=
  h.chaseBulge first (by omega) ..

theorem solvePair {k : Nat} (h : Shaped dim height s) (hk : k < dim) :
    Shaped dim height (Svd.solvePair k s) :=
  ((((h.setDiag ..).setDiag ..).setOff ..).rotateLeft _ hk _).rotateRight ..

theorem iterate (budget : Nat) {first last : Nat} (h : Shaped dim height s)
    (hFirst : first ≤ last) (hLast : last < dim) :
    Shaped dim height (Svd.iterate budget first last s) := by
  induction budget generalizing first last s with
  | zero => exact h
  | succ budget ih =>
    rw [Svd.iterate]
    split
    · exact h
    · simp only
      split
      · obtain ⟨hSplit, hLe, hLt⟩ := (h.sweep hFirst hLast).split hLast
        exact ih hSplit hLe hLt
      · obtain ⟨hSplit, hLe, hLt⟩ :=
          (h.solvePair (hFirst.trans_lt hLast)).split (show last - 1 < dim by omega)
        exact ih hSplit hLe hLt

/-- Neither the number of left vectors nor their length changes on the way to a diagonal form. -/
theorem diagonalise (h : Shaped dim height s) (hDim : 0 < dim) :
    Shaped dim height (Svd.diagonalise s) := by
  obtain ⟨hSplit, hLe, hLt⟩ := h.split (show s.diagonal.size - 1 < dim by rw [h.diagonal]; omega)
  exact hSplit.iterate _ hLe hLt

/-! ### The triples -/

theorem size_left {scale : Float} {t : Triple} (h : Shaped dim height s)
    (ht : t ∈ triples scale s) : t.left.size = height := by
  obtain ⟨i, hi, rfl⟩ := List.mem_map.mp (List.mem_mergeSort.mp ht)
  have hSize : (Floats.vector s.left i).size = height :=
    h.left.size_vector ((List.mem_range.mp hi).trans_eq h.diagonal)
  rw [triple]
  split
  · exact (Floats.size_ofFn ..).trans hSize
  · exact hSize

end Shaped

theorem length_clearFrom (fromLeft fromRight : FloatArray → FloatArray → Float) (count j : Nat)
    (columns : Array FloatArray) :
    (Bidiagonal.clearFrom fromLeft fromRight count j columns).1.length = count + 1 := by
  induction count generalizing j columns with
  | zero => rfl
  | succ count ih =>
    rw [Bidiagonal.clearFrom]
    exact congrArg (· + 1) (ih ..)

/-- The bidiagonal form of a matrix has a left vector for each column, as long as the columns. -/
theorem shaped_ofColumns (fromLeft fromRight : FloatArray → FloatArray → Float) (height : Nat)
    {columns : Array FloatArray} (h : 0 < columns.size) :
    Shaped columns.size height (Bidiagonal.ofColumns fromLeft fromRight height columns) := by
  refine ⟨?_, Floats.Tall.unfold ..⟩
  have hLength := length_clearFrom fromLeft fromRight (columns.size - 1) 0 columns
  rw [Nat.sub_add_cancel h] at hLength
  exact (List.length_map _).trans hLength

/-! ## Least squares -/

variable {m n : Nat}

theorem size_left_of_mem_decompose {a : Mat Float m n} (hPos : 0 < n) (hTall : n ≤ m) {t : Triple}
    (ht : t ∈ decompose a) : t.left.size = m := by
  have hSize : (scaledColumns (scaleOf a) a).size = n := Array.size_ofFn
  rw [decompose, if_pos hTall] at ht
  have hShaped := shaped_ofColumns Floats.dot Floats.dotInOrder m (hPos.trans_eq hSize.symm)
  exact (hShaped.diagonalise (hPos.trans_eq hSize.symm)).size_left ht

/-- A weight that is not cut off takes in every entry of the right side. -/
theorem isNumber_of_isNumber_weights {triples : List Triple} {b : FloatArray} {i j : Nat}
    (hi : i < triples.length) (hCut : cutOff triples < triples[i].value)
    (h : IsNumber ((weights triples b).get! i)) (hj : j < triples[i].left.size) :
    IsNumber (b.get! j) := by
  have hGet : (weights triples b).get! i =
      Floats.dot triples[i].left b / triples[i].value := by
    simp [weights, FloatArray.get!, hi, hCut]
  rw [hGet] at h
  exact Floats.isNumber_of_isNumber_dot (isNumber_div h).1 hj

/-- At least one singular value of a matrix is not cut off. -/
def Keeps (a : Mat Float m n) : Prop := ∃ t ∈ decompose a, cutOff (decompose a) < t.value

/-- **A right side with NaN has no finite solution** by a matrix of which a singular value is
kept. -/
theorem not_allFinite_solve {a : Mat Float m n} {b : Vector Float m} (hPos : 0 < n) (hTall : n ≤ m)
    (hKeeps : Keeps a) {c : Float} (hc : c ∈ b) (hNaN : ¬ IsNumber c) :
    ¬ allFinite (solve a b) = true := by
  intro hFinite
  rw [allFinite, Vector.all_eq_true_iff_forall_mem] at hFinite
  have hEntry : IsNumber (solve a b)[0] :=
    isNumber_of_isFinite (hFinite _ (Vector.getElem_mem hPos))
  have hShape : ¬ (m = 0 ∨ n = 0) := by omega
  simp only [solve, if_neg hShape] at hEntry
  split at hEntry
  · rw [Vector.getElem_replicate] at hEntry
    exact absurd hEntry (by decide +kernel)
  · rw [Vector.getElem_ofFn] at hEntry
    obtain ⟨t, ht, hCut⟩ := hKeeps
    obtain ⟨i, hi, rfl⟩ := List.getElem_of_mem ht
    obtain ⟨j, hj, rfl⟩ := Vector.getElem_of_mem hc
    have hWeight : IsNumber ((weights (decompose a) ⟨b.toArray⟩).get! i) :=
      Floats.isNumber_of_isNumber_dot hEntry (by simpa [FloatArray.size] using hi)
    have hNumber := isNumber_of_isNumber_weights hi hCut hWeight
      (hj.trans_eq (size_left_of_mem_decompose hPos hTall ht).symm)
    have hGet : (⟨b.toArray⟩ : FloatArray).get! j = b[j] := by
      simp [FloatArray.get!, hj]
    exact hNaN (hGet ▸ hNumber)

end Svd

end PlaneSketch
