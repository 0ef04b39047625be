import Mathlib.Data.List.GetD
import PlaneSketch.LinearAlgebra.Cholesky
import PlaneSketch.Proofs.LinearAlgebra.Update

/-!
# Cholesky factorisation in exact arithmetic

The factorisation is read as a way to complete squares.  The rows found so far turn the quadratic
form of the leading rows and columns into a sum of squares; with one row more there is one square
more, and its coefficient is the new pivot.  A pivot that is not positive shows up in the value of
the form where all the other squares vanish, and there is such a place since the rows found so far
form a triangle with a positive diagonal.

* `form`, `PositiveForm`: the quadratic form of the leading rows and columns of a table.
* `map_product_leftEntries`: the products of the finished rows and a new one are the entries of the
  table.
* `form_succ_eq`: **completing the squares**; `positiveForm_succ_iff`: **the form with one row more
  is positive just if it was and the pivot is.**
* `Factors`: what the rows found so far have; `isSome_factor?_iff`: the run.
* `succeeds_iff`: **the factorisation of a symmetric matrix goes through just if it is positive
  definite.**
* `Kernel.cholesky`: the exact kernel with the factorisation for its test.
-/

namespace PlaneSketch

namespace Cholesky

open Finset (range sum_range_succ sum_congr)

/-! ## Forms -/

section Forms

variable {a : Nat → Nat → ℝ} {n : Nat} {v w : Nat → ℝ}

/-- The quadratic form of the first `n` rows and columns of a table. -/
def form (a : Nat → Nat → ℝ) (n : Nat) (v : Nat → ℝ) : ℝ :=
  ∑ i ∈ range n, ∑ j ∈ range n, v i * a i j * v j

/-- The form of the first `n` rows and columns is positive off the origin. -/
def PositiveForm (a : Nat → Nat → ℝ) (n : Nat) : Prop :=
  ∀ v : Nat → ℝ, (∃ i < n, v i ≠ 0) → 0 < form a n v

theorem form_congr (h : ∀ i < n, v i = w i) : form a n v = form a n w := by
  refine sum_congr rfl fun i hi => sum_congr rfl fun j hj => ?_
  rw [h i (Finset.mem_range.mp hi), h j (Finset.mem_range.mp hj)]

theorem form_succ (hSymmetric : ∀ i j, a i j = a j i) (n : Nat) (v : Nat → ℝ) :
    form a (n + 1) v = form a n v + 2 * v n * ∑ j ∈ range n, v j * a n j + a n n * v n ^ 2 := by
  have hColumn : ∑ i ∈ range n, v i * a i n * v n = v n * ∑ j ∈ range n, v j * a n j := by
    rw [Finset.mul_sum]
    exact sum_congr rfl fun i _ => by rw [hSymmetric i n, mul_comm]
  have hRow : ∑ j ∈ range n, v n * a n j * v j = v n * ∑ j ∈ range n, v j * a n j := by
    rw [Finset.mul_sum]
    exact sum_congr rfl fun j _ => by rw [mul_assoc, mul_comm (a n j)]
  rw [form, sum_range_succ, sum_range_succ, hRow]
  simp only [sum_range_succ _ n, Finset.sum_add_distrib, hColumn]
  rw [form]
  ring

theorem form_update (n : Nat) (v : Nat → ℝ) (x : ℝ) :
    form a n (Function.update v n x) = form a n v :=
  form_congr fun _ hi => Function.update_of_ne (ne_of_lt hi) _ _

/-- A form is positive on fewer rows and columns. -/
theorem antitone_positiveForm (hSymmetric : ∀ i j, a i j = a j i) :
    Antitone (PositiveForm a) := by
  refine antitone_nat_of_succ_le fun n hPositive v hv => ?_
  obtain ⟨i, hi, hNe⟩ := hv
  have hForm := hPositive (Function.update v n 0)
    ⟨i, Nat.lt_succ_of_lt hi, by rwa [Function.update_of_ne (ne_of_lt hi)]⟩
  rwa [form_succ hSymmetric, form_update, Function.update_self, mul_zero, zero_mul, add_zero,
    zero_pow two_ne_zero, mul_zero, add_zero] at hForm

end Forms

/-! ## Products of rows -/

section Products

variable {u v : List ℝ}

/-- The sum of the products of the entries that two rows have in common. -/
def product (u v : List ℝ) : ℝ := (List.zipWith (· * ·) u v).sum

theorem product_append (hLength : u.length = v.length) (u' v' : List ℝ) :
    product (u ++ u') (v ++ v') = product u v + product u' v' := by
  rw [product, List.zipWith_append hLength, List.sum_append]
  rfl

theorem product_eq_sum {m : Nat} (hm : v.length ≤ m) :
    product u v = ∑ k ∈ range m, u.getD k 0 * v.getD k 0 := by
  induction v generalizing u m with
  | nil => simp [product]
  | cons y v ih =>
    cases u with
    | nil => simp [product]
    | cons x u =>
      obtain ⟨m, rfl⟩ := Nat.exists_eq_add_one_of_ne_zero (Nat.ne_zero_of_lt hm)
      rw [Finset.sum_range_succ']
      simpa [product, add_comm] using ih (u := u) (Nat.le_of_succ_le_succ hm)

theorem reduce_eq (x : ℝ) (u v : List ℝ) : reduce x u v = x - product u v := by
  induction u generalizing x v with
  | nil => simp [reduce, product]
  | cons y u ih =>
    cases v with
    | nil => simp [reduce, product]
    | cons z v =>
      have hStep : reduce x (y :: u) (z :: v) = reduce (x - y * z) u v := rfl
      rw [hStep, ih, sub_sub]
      rfl

end Products

/-! ## Triangles -/

/-- A row of a length that ends with a positive entry. -/
def HasPivot (length : Nat) (row : List ℝ) : Prop :=
  ∃ left pivot, row = left ++ [pivot] ∧ left.length = length ∧ 0 < pivot

/-- Each row is longer by one than the row before and ends with a positive entry. -/
def IsTriangle : Nat → List (List ℝ) → Prop
  | _, [] => True
  | length, row :: rows => HasPivot length row ∧ IsTriangle (length + 1) rows

theorem isTriangle_concat {rows : List (List ℝ)} {row : List ℝ} {length : Nat} :
    IsTriangle length (rows ++ [row]) ↔
      IsTriangle length rows ∧ HasPivot (length + rows.length) row := by
  induction rows generalizing length with
  | nil => simp [IsTriangle]
  | cons first rows ih =>
    rw [List.cons_append, IsTriangle, IsTriangle, ih, and_assoc, List.length_cons,
      Nat.add_assoc length 1, Nat.add_comm 1]

/-- **The products of the finished rows and a new one are the entries of the table.** -/
theorem map_product_leftEntries {rows : List (List ℝ)} (done entries rest : List ℝ)
    (hRows : IsTriangle done.length rows) (hEntries : entries.length = rows.length) :
    ∃ found, leftEntries done rows (entries ++ rest) = done ++ found ∧
      found.length = rows.length ∧ rows.map (product · (done ++ found)) = entries := by
  induction rows generalizing done entries with
  | nil =>
    obtain rfl := List.length_eq_zero_iff.mp hEntries
    exact ⟨[], by simp [leftEntries], rfl, rfl⟩
  | cons row rows ih =>
    obtain ⟨x, entries, rfl⟩ := List.exists_cons_of_length_eq_add_one hEntries
    obtain ⟨⟨left, pivot, rfl, hLeft, hPivot⟩, hRows⟩ := hRows
    obtain ⟨y, hy⟩ : ∃ y, y = reduce x (left ++ [pivot]) done / pivot := ⟨_, rfl⟩
    obtain ⟨found, hFound, hLength, hProducts⟩ := ih (done ++ [y]) entries
      (by rwa [List.length_append]) (Nat.succ.inj hEntries)
    rw [List.append_assoc, List.singleton_append] at hFound hProducts
    refine ⟨y :: found, ?_, congrArg Nat.succ hLength, ?_⟩
    · rw [List.cons_append, leftEntries]
      simp only [List.getLast?_concat, Option.getD_some]
      rw [← hy, hFound]
    · have hDone : product (left ++ [pivot]) done = product left done := by
        simpa [product] using product_append hLeft [pivot] []
      have hFirst : product (left ++ [pivot]) (done ++ y :: found) = x := by
        rw [product_append hLeft, product, product, List.zipWith_cons_cons, List.zipWith_nil_left,
          List.sum_singleton, hy, mul_div_cancel₀ _ (ne_of_gt hPivot), reduce_eq, hDone]
        exact add_sub_cancel _ _
      rw [List.map_cons, hFirst, hProducts]

/-! ## Combinations of rows -/

section Combinations

variable {rows : List (List ℝ)} {v w : Nat → ℝ} {k : Nat}

/-- An entry of the combination of rows with given coefficients. -/
def combination (rows : List (List ℝ)) (v : Nat → ℝ) (k : Nat) : ℝ :=
  ∑ i ∈ range rows.length, v i * (rows.getD i []).getD k 0

theorem combination_congr (h : ∀ i < rows.length, v i = w i) (k : Nat) :
    combination rows v k = combination rows w k :=
  sum_congr rfl fun i hi => by rw [h i (Finset.mem_range.mp hi)]

theorem combination_update (rows : List (List ℝ)) (v : Nat → ℝ) (x : ℝ) (k : Nat) :
    combination rows (Function.update v rows.length x) k = combination rows v k :=
  combination_congr (fun _ hi => Function.update_of_ne (ne_of_lt hi) _ _) k

theorem combination_concat (rows : List (List ℝ)) (row : List ℝ) (v : Nat → ℝ) (k : Nat) :
    combination (rows ++ [row]) v k =
      combination rows v k + v rows.length * row.getD k 0 := by
  rw [combination, List.length_append, List.length_singleton, sum_range_succ, combination]
  refine congrArg₂ (· + ·) (sum_congr rfl fun i hi => ?_) ?_
  · rw [List.getD_append _ _ _ _ (Finset.mem_range.mp hi)]
  · rw [List.getD_append_right _ _ _ _ (Nat.le_refl _), Nat.sub_self]
    rfl

/-- The products of a row and the rows of a combination. -/
theorem sum_mul_product (rows : List (List ℝ)) (v : Nat → ℝ) {left : List ℝ} {m : Nat}
    (hm : left.length ≤ m) :
    ∑ i ∈ range rows.length, v i * product (rows.getD i []) left =
      ∑ k ∈ range m, combination rows v k * left.getD k 0 := by
  simp only [product_eq_sum hm, combination, Finset.mul_sum, Finset.sum_mul]
  rw [Finset.sum_comm]
  exact sum_congr rfl fun k _ => sum_congr rfl fun i _ => (mul_assoc _ _ _).symm

theorem combination_eq_zero (hRows : IsTriangle 0 rows) (hk : rows.length ≤ k) :
    combination rows v k = 0 := by
  induction rows using List.reverseRecOn with
  | nil => rfl
  | append_singleton rows row ih =>
    obtain ⟨hAbove, left, pivot, rfl, hLeft, -⟩ := isTriangle_concat.mp hRows
    rw [List.length_append, List.length_singleton] at hk
    have hEnd : (left ++ [pivot]).getD k 0 = 0 := by
      refine List.getD_eq_default _ _ ?_
      simp only [List.length_append, List.length_singleton]
      omega
    rw [combination_concat, ih hAbove (by omega), hEnd, mul_zero, add_zero]

/-- The rows of a triangle can be combined to any row that is no longer than they are. -/
theorem exists_combination (hRows : IsTriangle 0 rows) (t : Nat → ℝ) :
    ∃ v, ∀ k < rows.length, combination rows v k = t k := by
  induction rows using List.reverseRecOn generalizing t with
  | nil => exact ⟨fun _ => 0, fun k hk => absurd hk (Nat.not_lt_zero k)⟩
  | append_singleton rows row ih =>
    obtain ⟨hAbove, left, pivot, rfl, hLeft, hPivot⟩ := isTriangle_concat.mp hRows
    rw [Nat.zero_add] at hLeft
    -- the last coefficient first, then the others for what is left of the entries
    obtain ⟨x, hx⟩ : ∃ x, x = t rows.length / pivot := ⟨_, rfl⟩
    obtain ⟨w, hw⟩ := ih hAbove fun k => t k - x * left.getD k 0
    refine ⟨Function.update w rows.length x, fun k hk => ?_⟩
    rw [combination_concat, combination_update, Function.update_self]
    rw [List.length_append, List.length_singleton] at hk
    rcases Nat.lt_succ_iff_lt_or_eq.mp hk with hk | hk
    · rw [hw k hk, List.getD_append _ _ _ _ (hLeft ▸ hk), sub_add_cancel]
    · rw [combination_eq_zero hAbove (le_of_eq hk.symm), zero_add,
        List.getD_append_right _ _ _ _ (hLeft ▸ le_of_eq hk.symm), hLeft, hk, Nat.sub_self, hx]
      exact div_mul_cancel₀ _ (ne_of_gt hPivot)

end Combinations

/-! ## Completing the squares -/

section Squares

variable {a : Nat → Nat → ℝ} {rows : List (List ℝ)} {left : List ℝ}

/-- The rows of a factor: a triangle that turns the form into a sum of squares. -/
structure Factors (a : Nat → Nat → ℝ) (rows : List (List ℝ)) : Prop where
  triangle : IsTriangle 0 rows
  form_eq : ∀ v, form a rows.length v = ∑ k ∈ range rows.length, combination rows v k ^ 2

/-- A row to the left of the diagonal that belongs to the next row of a table. -/
structure Extends (a : Nat → Nat → ℝ) (rows : List (List ℝ)) (left : List ℝ) : Prop where
  length : left.length = rows.length
  products : rows.map (product · left) = (List.range rows.length).map (a rows.length)

theorem Extends.product_eq (h : Extends a rows left) {j : Nat} (hj : j < rows.length) :
    product (rows.getD j []) left = a rows.length j := by
  have hEntry := congrArg (fun l : List ℝ => l[j]?) h.products
  simp only [List.getElem?_map, List.getElem?_eq_getElem hj, List.getElem?_range hj,
    Option.map_some, Option.some.injEq] at hEntry
  rwa [List.getD_eq_getElem _ _ hj]

/-- **Completing the squares**: the pivot is the coefficient of the last one. -/
theorem form_succ_eq (hSymmetric : ∀ i j, a i j = a j i) (hRows : Factors a rows)
    (hLeft : Extends a rows left) (v : Nat → ℝ) :
    form a (rows.length + 1) v =
      ∑ k ∈ range rows.length, (combination rows v k + v rows.length * left.getD k 0) ^ 2 +
        (a rows.length rows.length - product left left) * v rows.length ^ 2 := by
  have hMixed : ∑ j ∈ range rows.length, v j * a rows.length j =
      ∑ k ∈ range rows.length, combination rows v k * left.getD k 0 := by
    rw [← sum_mul_product rows v (le_of_eq hLeft.length)]
    exact sum_congr rfl fun j hj => by rw [hLeft.product_eq (Finset.mem_range.mp hj)]
  have hSquares :
      ∑ k ∈ range rows.length, (combination rows v k + v rows.length * left.getD k 0) ^ 2 =
        form a rows.length v +
          2 * v rows.length * ∑ k ∈ range rows.length, combination rows v k * left.getD k 0 +
          v rows.length ^ 2 * product left left := by
    rw [hRows.form_eq, product_eq_sum (le_of_eq hLeft.length), Finset.mul_sum, Finset.mul_sum,
      ← Finset.sum_add_distrib, ← Finset.sum_add_distrib]
    exact sum_congr rfl fun k _ => by ring
  rw [form_succ hSymmetric, hMixed, hSquares]
  ring

/-- **The form with one row more is positive just if it was and the pivot is.** -/
theorem positiveForm_succ_iff (hSymmetric : ∀ i j, a i j = a j i) (hRows : Factors a rows)
    (hLeft : Extends a rows left) :
    PositiveForm a (rows.length + 1) ↔
      PositiveForm a rows.length ∧ 0 < a rows.length rows.length - product left left := by
  constructor
  · intro hPositive
    refine ⟨antitone_positiveForm hSymmetric (Nat.le_succ _) hPositive, ?_⟩
    -- all the other squares vanish for these coefficients
    obtain ⟨w, hw⟩ := exists_combination hRows.triangle fun k => -left.getD k 0
    have hForm := hPositive (Function.update w rows.length 1)
      ⟨rows.length, Nat.lt_succ_self _, by rw [Function.update_self]; exact one_ne_zero⟩
    rw [form_succ_eq hSymmetric hRows hLeft, Function.update_self, Finset.sum_eq_zero, zero_add,
      one_pow, mul_one] at hForm
    · exact hForm
    · intro k hk
      rw [combination_update, hw k (Finset.mem_range.mp hk), one_mul, neg_add_cancel,
        zero_pow two_ne_zero]
  · rintro ⟨hPositive, hPivot⟩ v ⟨i, hi, hNe⟩
    by_cases hLast : v rows.length = 0
    · have hLess : i < rows.length :=
        lt_of_le_of_ne (Nat.lt_succ_iff.mp hi) fun h => hNe (h ▸ hLast)
      rw [form_succ hSymmetric, hLast, mul_zero, zero_mul, add_zero, zero_pow two_ne_zero, mul_zero,
        add_zero]
      exact hPositive v ⟨i, hLess, hNe⟩
    · rw [form_succ_eq hSymmetric hRows hLeft]
      exact add_pos_of_nonneg_of_pos (Finset.sum_nonneg fun k _ => sq_nonneg _)
        (mul_pos hPivot (sq_pos_of_ne_zero hLast))

theorem Factors.concat (hSymmetric : ∀ i j, a i j = a j i) (hRows : Factors a rows)
    (hLeft : Extends a rows left) {pivot : ℝ} (hPivot : 0 < pivot)
    (hSquare : pivot ^ 2 = a rows.length rows.length - product left left) :
    Factors a (rows ++ [left ++ [pivot]]) := by
  constructor
  · refine isTriangle_concat.mpr ⟨hRows.triangle, left, pivot, rfl, ?_, hPivot⟩
    rw [hLeft.length, Nat.zero_add]
  · intro v
    rw [List.length_append, List.length_singleton, form_succ_eq hSymmetric hRows hLeft,
      sum_range_succ, ← hSquare]
    refine congrArg₂ (· + ·) (sum_congr rfl fun k hk => ?_) ?_
    · rw [combination_concat, List.getD_append _ _ _ _ (hLeft.length ▸ Finset.mem_range.mp hk)]
    · rw [combination_concat, combination_eq_zero hRows.triangle (Nat.le_refl _), zero_add,
        List.getD_append_right _ _ _ _ (le_of_eq hLeft.length), hLeft.length, Nat.sub_self,
        mul_comm, ← mul_pow]
      rfl

end Squares

/-! ## The run -/

section Run

variable {a : Nat → Nat → ℝ} {rows : List (List ℝ)}

/-- A row of the lower triangle of a table. -/
def lowerRow (a : Nat → Nat → ℝ) (i : Nat) : List ℝ := (List.range (i + 1)).map (a i)

theorem factors_nil : Factors a [] := ⟨trivial, fun _ => rfl⟩

/-- What one row does: it is solved for and goes on if its pivot is positive. -/
theorem exists_extends (hRows : Factors a rows) (rest : List (List ℝ)) :
    ∃ left, Extends a rows left ∧ factor? rows (lowerRow a rows.length :: rest) =
      if 0 < a rows.length rows.length - product left left then
        factor? (rows ++ [left ++ [√(a rows.length rows.length - product left left)]]) rest
      else none := by
  have hLower : lowerRow a rows.length =
      (List.range rows.length).map (a rows.length) ++ [a rows.length rows.length] := by
    rw [lowerRow, List.range_succ, List.map_append, List.map_singleton]
  obtain ⟨left, hLeft, hLength, hProducts⟩ := map_product_leftEntries []
    ((List.range rows.length).map (a rows.length)) [a rows.length rows.length] hRows.triangle
    (by rw [List.length_map, List.length_range])
  rw [List.nil_append] at hLeft hProducts
  refine ⟨left, ⟨hLength, hProducts⟩, ?_⟩
  rw [factor?, hLower]
  simp only [hLeft, List.getLast?_concat, Option.getD_some, reduce_eq]
  rfl

/-- **The factorisation goes through the rows of a table that follow just if its form stays
positive.** -/
theorem isSome_factor?_iff (hSymmetric : ∀ i j, a i j = a j i) (hRows : Factors a rows)
    (hPositive : PositiveForm a rows.length) (count : Nat) :
    (factor? rows ((List.range' rows.length count).map (lowerRow a))).isSome = true ↔
      PositiveForm a (rows.length + count) := by
  induction count generalizing rows with
  | zero => exact ⟨fun _ => hPositive, fun _ => rfl⟩
  | succ count ih =>
    rw [List.range'_succ, List.map_cons]
    obtain ⟨left, hLeft, hFactor⟩ := exists_extends hRows ((List.range' (rows.length + 1) count).map
      (lowerRow a))
    have hIff := positiveForm_succ_iff hSymmetric hRows hLeft
    rw [hFactor]
    split
    · next hPivot =>
      have hStep := ih (hRows.concat hSymmetric hLeft (Real.sqrt_pos.mpr hPivot)
        (Real.sq_sqrt (le_of_lt hPivot)))
      rw [List.length_append, List.length_singleton, Nat.add_assoc, Nat.add_comm 1] at hStep
      exact hStep (hIff.mpr ⟨hPositive, hPivot⟩)
    · next hPivot =>
      refine iff_of_false (by simp) fun hForm => hPivot (hIff.mp ?_).2
      exact antitone_positiveForm hSymmetric (by omega) hForm

end Run

/-! ## Matrices -/

section Matrices

variable {n : Nat} {a : Mat ℝ n n}

/-- The entries of a matrix, with zeros beyond. -/
def table (a : Mat ℝ n n) (i j : Nat) : ℝ :=
  if h : i < n ∧ j < n then a.entry ⟨i, h.1⟩ ⟨j, h.2⟩ else 0

theorem table_entry (a : Mat ℝ n n) (i j : Fin n) : table a i j = a.entry i j :=
  dif_pos ⟨i.isLt, j.isLt⟩

theorem table_comm (hSymmetric : a.IsSymmetric) (i j : Nat) : table a i j = table a j i := by
  rw [table, table]
  split
  · next h => rw [dif_pos h.symm, hSymmetric.entry_comm]
  · next h => rw [dif_neg fun h' => h h'.symm]

theorem lowerRows_eq (a : Mat ℝ n n) :
    lowerRows a = (List.range' 0 n).map (lowerRow (table a)) := by
  refine List.ext_getElem (by simp [lowerRows]) fun i hi hi' => ?_
  have hn : i < n := by simpa [lowerRows] using hi
  simp only [lowerRows, List.getElem_mapIdx, List.getElem_map, List.getElem_range', lowerRow]
  refine List.ext_getElem (by simp; omega) fun j hj hj' => ?_
  have hm : j < n := by
    rw [List.length_take, Vector.length_toList] at hj
    omega
  simp [table, hn, hm, Mat.entry]

theorem form_table (a : Mat ℝ n n) {v : Vector ℝ n} {w : Nat → ℝ}
    (h : ∀ i : Fin n, v.get i = w i) : form (table a) n w = dotInOrder v (a.mulVec v) := by
  rw [dotInOrder_real, form, Finset.sum_range]
  refine sum_congr rfl fun i _ => ?_
  rw [get_mulVec, Finset.sum_range, Finset.mul_sum]
  exact sum_congr rfl fun j _ => by rw [table_entry, h i, h j, mul_assoc]

theorem positiveForm_table_iff : PositiveForm (table a) n ↔ a.IsPositiveDefinite := by
  constructor
  · intro hPositive v hv
    obtain ⟨w, hw⟩ : ∃ w : Nat → ℝ, ∀ i : Fin n, v.get i = w i :=
      ⟨fun i => if hi : i < n then v.get ⟨i, hi⟩ else 0, fun i => by simp⟩
    rw [← form_table a hw]
    refine hPositive w ?_
    by_contra hNot
    push Not at hNot
    refine hv (Vector.ext fun i hi => ?_)
    rw [Vector.getElem_zero]
    exact (hw ⟨i, hi⟩).trans (hNot i hi)
  · rintro hPositive w ⟨i, hi, hNe⟩
    obtain ⟨v, hv⟩ : ∃ v : Vector ℝ n, ∀ i : Fin n, v.get i = w i :=
      ⟨Vector.ofFn fun i => w i, fun i => Vector.getElem_ofFn i.isLt⟩
    rw [form_table a hv]
    refine hPositive v fun hZero => hNe ?_
    rw [← hv ⟨i, hi⟩, hZero]
    exact Vector.getElem_zero i hi

/-- **The factorisation of a symmetric matrix goes through just if it is positive definite.** -/
theorem succeeds_iff (hSymmetric : a.IsSymmetric) :
    succeeds a = true ↔ a.IsPositiveDefinite := by
  have hEmpty : PositiveForm (table a) 0 := fun v hv =>
    absurd hv (by simp)
  rw [succeeds, lowerRows_eq, ← positiveForm_table_iff]
  simpa using isSome_factor?_iff (table_comm hSymmetric) factors_nil hEmpty n

end Matrices

end Cholesky

/-- The kernel that makes no error, with the factorisation for its test. -/
noncomputable def Kernel.cholesky : Kernel ℝ :=
  { Kernel.exact with isPositiveDefinite := Cholesky.succeeds }

theorem Kernel.isExact_cholesky : Kernel.cholesky.IsExact :=
  ⟨isLeastSquares_exact, Cholesky.succeeds_iff⟩

end PlaneSketch
