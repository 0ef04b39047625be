import Mathlib.Data.List.Induction
import PlaneSketch.LinearAlgebra.Dense

/-!
# The order of the scalars

Scalars come without laws, so that machine floats are among them.  What is said here of their order
holds of floats too: a scalar that is not a number compares with nothing, and the numbers are in a
total preorder.

* `Scalar.Ordered`: the laws of comparison.
* `Scalar.Total`: every scalar is a number, and sums and products respect the order.
* `le_larger_left`, `le_larger_right`: `larger` is a maximum that passes over what is no number.
* `isNumber_maxAbs`, `abs_le_maxAbs`: so is `maxAbs`, which is always a number.
-/

namespace PlaneSketch

namespace Scalar

/-- Whether a scalar is a number, that is, not NaN. -/
def IsNumber {α : Type} [Scalar α] (a : α) : Prop := a ≤ a

instance {α : Type} [Scalar α] (a : α) : Decidable (IsNumber a) :=
  inferInstanceAs (Decidable (a ≤ a))

/-- The numbers are in a total preorder, and nothing else compares with anything. -/
class Ordered (α : Type) [Scalar α] : Prop where
  trans {a b c : α} : a ≤ b → b ≤ c → a ≤ c
  left {a b : α} : a ≤ b → IsNumber a
  right {a b : α} : a ≤ b → IsNumber b
  total {a b : α} : IsNumber a → IsNumber b → a ≤ b ∨ b ≤ a
  lt_iff {a b : α} : a < b ↔ a ≤ b ∧ ¬ b ≤ a
  zero : IsNumber (0 : α)

/-- Every scalar is a number, and sums and products respect the order. -/
class Total (α : Type) [Scalar α] : Prop extends Ordered α where
  isNumber (a : α) : IsNumber a
  add_le_add_left (c : α) {a b : α} : a ≤ b → c + a ≤ c + b
  mul_le_mul_left {a b c : α} : 0 ≤ c → a ≤ b → c * a ≤ c * b

variable {α : Type} [Scalar α] [Ordered α] {a b c : α}

theorem lt_irrefl (a : α) : ¬ a < a := fun h => (Ordered.lt_iff.mp h).2 (Ordered.lt_iff.mp h).1

theorem le_of_lt (h : a < b) : a ≤ b := (Ordered.lt_iff.mp h).1

theorem lt_of_lt_of_le (h : a < b) (h' : b ≤ c) : a < c := by
  obtain ⟨hLe, hNot⟩ := Ordered.lt_iff.mp h
  exact Ordered.lt_iff.mpr ⟨Ordered.trans hLe h', fun hBack => hNot (Ordered.trans h' hBack)⟩

theorem lt_of_le_of_lt (h : a ≤ b) (h' : b < c) : a < c := by
  obtain ⟨hLe, hNot⟩ := Ordered.lt_iff.mp h'
  exact Ordered.lt_iff.mpr ⟨Ordered.trans h hLe, fun hBack => hNot (Ordered.trans hBack h)⟩

theorem lt_trans (h : a < b) (h' : b < c) : a < c := lt_of_lt_of_le h (le_of_lt h')

theorem le_of_not_lt (ha : IsNumber a) (hb : IsNumber b) (h : ¬ b < a) : a ≤ b := by
  rcases Ordered.total ha hb with hLe | hLe
  · exact hLe
  · by_contra hNot
    exact h (Ordered.lt_iff.mpr ⟨hLe, hNot⟩)

/-! ## The maximum that passes over what is no number -/

theorem le_larger_left (ha : IsNumber a) (b : α) : a ≤ larger a b := by
  rw [larger]
  split
  · exact ha
  · next hLess =>
    split
    · next hb => exact (Ordered.total ha hb).resolve_right hLess
    · exact ha

omit [Ordered α] in
theorem le_larger_right (a : α) (hb : IsNumber b) : b ≤ larger a b := by
  rw [larger]
  split
  · next hLe => exact hLe
  · rw [if_pos (show b ≤ b from hb)]
    exact hb

theorem isNumber_larger (ha : IsNumber a) (b : α) : IsNumber (larger a b) :=
  Ordered.right (le_larger_left ha b)

omit [Ordered α] in
theorem larger_eq_or (a b : α) : larger a b = a ∨ larger a b = b := by
  rw [larger]
  split
  · exact Or.inl rfl
  · split
    · exact Or.inr rfl
    · exact Or.inl rfl

omit [Ordered α] in
theorem larger_le (ha : a ≤ c) (hb : b ≤ c) : larger a b ≤ c := by
  rcases larger_eq_or a b with h | h
  · rwa [h]
  · rwa [h]

theorem isNumber_foldl_larger (l : List α) {most : α} (h : IsNumber most) :
    IsNumber (l.foldl (fun most x => larger most (Scalar.abs x)) most) := by
  induction l generalizing most with
  | nil => exact h
  | cons x l ih => exact ih (isNumber_larger h _)

theorem le_foldl_larger (l : List α) {most : α} (h : IsNumber most) :
    most ≤ l.foldl (fun most x => larger most (Scalar.abs x)) most := by
  induction l generalizing most with
  | nil => exact h
  | cons x l ih =>
    exact Ordered.trans (le_larger_left h (Scalar.abs x)) (ih (isNumber_larger h _))

theorem abs_le_foldl_larger {l : List α} {x : α} (hx : x ∈ l) (hNumber : IsNumber (Scalar.abs x))
    {most : α} (h : IsNumber most) :
    Scalar.abs x ≤ l.foldl (fun most x => larger most (Scalar.abs x)) most := by
  induction l generalizing most with
  | nil => exact absurd hx List.not_mem_nil
  | cons y l ih =>
    rcases List.mem_cons.mp hx with rfl | hx
    · exact Ordered.trans (le_larger_right most hNumber) (le_foldl_larger l (isNumber_larger h _))
    · exact ih hx (isNumber_larger h _)

omit [Ordered α] in
theorem foldl_larger_le {l : List α} {most : α} (h : most ≤ c)
    (hl : ∀ x ∈ l, Scalar.abs x ≤ c) :
    l.foldl (fun most x => larger most (Scalar.abs x)) most ≤ c := by
  induction l generalizing most with
  | nil => exact h
  | cons x l ih =>
    obtain ⟨hx, hl⟩ := List.forall_mem_cons.mp hl
    exact ih (larger_le h hx) hl

end Scalar

open Scalar

variable {α : Type} [Scalar α] {n : Nat}

theorem maxAbs_eq_foldl (v : Vector α n) :
    maxAbs v = v.toList.foldl (fun most x => larger most (Scalar.abs x)) 0 := by
  rw [maxAbs, ← Vector.foldl_toList]

theorem maxAbs_le {v : Vector α n} {c : α} (hc : 0 ≤ c) (h : ∀ x ∈ v, Scalar.abs x ≤ c) :
    maxAbs v ≤ c := by
  rw [maxAbs_eq_foldl]
  exact foldl_larger_le hc fun x hx => h x (Vector.mem_toList_iff.mp hx)

variable [Ordered α]

/-- **The largest absolute value is a number**, whatever the entries are. -/
theorem isNumber_maxAbs (v : Vector α n) : IsNumber (maxAbs v) := by
  rw [maxAbs_eq_foldl]
  exact isNumber_foldl_larger _ Ordered.zero

theorem zero_le_maxAbs (v : Vector α n) : 0 ≤ maxAbs v := by
  rw [maxAbs_eq_foldl]
  exact le_foldl_larger _ Ordered.zero

theorem abs_le_maxAbs {v : Vector α n} {x : α} (hx : x ∈ v)
    (hNumber : IsNumber (Scalar.abs x)) : Scalar.abs x ≤ maxAbs v := by
  rw [maxAbs_eq_foldl]
  exact abs_le_foldl_larger (Vector.mem_toList_iff.mpr hx) hNumber Ordered.zero

end PlaneSketch
