import PlaneSketch.Optimize.Problem
import PlaneSketch.Proofs.Scalar.Order

/-!
# The best of several iterates

A run offers its iterates one after the other to a `Best`, which keeps the better one.

* `Iterate.Better`: when an iterate beats another, said case by case; `isBeatenBy_iff`.
* `Better.trans`: beating is transitive, so that no iterate that was dropped is missed later.
* `Better.violation_le_of_not`: how infeasible an iterate can be that is not beaten.
* `exists_foldl_offer`: **what is kept was offered, and nothing that was offered beats it**.
-/

namespace PlaneSketch

open Scalar

variable {α : Type} [Scalar α] {n m : Nat} {tolerance : α} {w y z : Iterate α n m}

/-- When an iterate beats another: feasible beats infeasible; of two feasible iterates the lower
objective wins, then the lower violation; of two infeasible ones the lower violation. -/
inductive Iterate.Better (tolerance : α) (y z : Iterate α n m) : Prop where
  | feasible (hy : y.violation ≤ tolerance) (hz : ¬ z.violation ≤ tolerance)
  | objective (hy : y.violation ≤ tolerance) (hz : z.violation ≤ tolerance)
      (h : y.objective < z.objective)
  | tie (hy : y.violation ≤ tolerance) (hz : z.violation ≤ tolerance)
      (hLe : y.objective ≤ z.objective) (hGe : z.objective ≤ y.objective)
      (h : y.violation < z.violation)
  | violation (hy : ¬ y.violation ≤ tolerance) (hz : ¬ z.violation ≤ tolerance)
      (h : y.violation < z.violation)

namespace Iterate.Better

section Order

variable [Ordered α]

theorem irrefl (z : Iterate α n m) : ¬ z.Better tolerance z := by
  rintro (⟨h, hNot⟩ | ⟨-, -, h⟩ | ⟨-, -, -, -, h⟩ | ⟨-, -, h⟩)
  · exact hNot h
  · exact lt_irrefl _ h
  · exact lt_irrefl _ h
  · exact lt_irrefl _ h

theorem trans (h : y.Better tolerance w) (h' : w.Better tolerance z) :
    y.Better tolerance z := by
  cases h with
  | feasible hy hw =>
    cases h' with
    | feasible hw' _ => exact absurd hw' hw
    | objective hw' _ _ => exact absurd hw' hw
    | tie hw' _ _ _ _ => exact absurd hw' hw
    | violation _ hz _ => exact .feasible hy hz
  | objective hy hw h =>
    cases h' with
    | feasible _ hz => exact .feasible hy hz
    | objective _ hz h' => exact .objective hy hz (Scalar.lt_trans h h')
    | tie _ hz hLe _ _ => exact .objective hy hz (Scalar.lt_of_lt_of_le h hLe)
    | violation hw' _ _ => exact absurd hw hw'
  | tie hy hw hLe hGe h =>
    cases h' with
    | feasible _ hz => exact .feasible hy hz
    | objective _ hz h' => exact .objective hy hz (Scalar.lt_of_le_of_lt hLe h')
    | tie _ hz hLe' hGe' h' =>
      exact .tie hy hz (Ordered.trans hLe hLe') (Ordered.trans hGe' hGe) (Scalar.lt_trans h h')
    | violation hw' _ _ => exact absurd hw hw'
  | violation hy hw h =>
    cases h' with
    | feasible hw' _ => exact absurd hw' hw
    | objective hw' _ _ => exact absurd hw' hw
    | tie hw' _ _ _ _ => exact absurd hw' hw
    | violation _ hz h' => exact .violation hy hz (Scalar.lt_trans h h')

/-- What is not beaten meets every bound that the tolerance and the other iterate meet. -/
theorem violation_le_of_not {bound : α} (hNot : ¬ y.Better tolerance z)
    (hTolerance : IsNumber tolerance → tolerance ≤ bound) (hy : y.violation ≤ bound) :
    z.violation ≤ bound := by
  by_cases hz : z.violation ≤ tolerance
  · exact Ordered.trans hz (hTolerance (Ordered.right hz))
  · have hy' : ¬ y.violation ≤ tolerance := fun h => hNot (.feasible h hz)
    have hLe : z.violation ≤ y.violation :=
      le_of_not_lt (isNumber_maxAbs _) (isNumber_maxAbs _) fun h => hNot (.violation hy' hz h)
    exact Ordered.trans hLe hy

end Order

end Iterate.Better

namespace Best

theorem isBeatenBy_iff : (ofIterate z tolerance).isBeatenBy y.objective y.violation = true ↔
    y.Better tolerance z := by
  rw [isBeatenBy]
  simp only [ofIterate]
  by_cases hy : y.violation ≤ tolerance
  · by_cases hz : z.violation ≤ tolerance
    · simp only [hy, hz, decide_true, Bool.or_eq_true, Bool.and_eq_true]
      constructor
      · rintro (h | ⟨⟨hLe, hGe⟩, h⟩)
        · exact .objective hy hz (of_decide_eq_true h)
        · exact .tie hy hz (of_decide_eq_true hLe) (of_decide_eq_true hGe) (of_decide_eq_true h)
      · rintro (⟨-, hNot⟩ | ⟨-, -, h⟩ | ⟨-, -, hLe, hGe, h⟩ | ⟨hNot, -, -⟩)
        · exact absurd hz hNot
        · exact Or.inl (decide_eq_true h)
        · exact Or.inr ⟨⟨decide_eq_true hLe, decide_eq_true hGe⟩, decide_eq_true h⟩
        · exact absurd hy hNot
    · simp only [hy, hz, decide_true, decide_false, true_iff]
      exact .feasible hy hz
  · by_cases hz : z.violation ≤ tolerance
    · simp only [hy, hz, decide_true, decide_false, Bool.false_eq_true, false_iff]
      rintro (⟨h, -⟩ | ⟨h, -, -⟩ | ⟨h, -, -, -, -⟩ | ⟨-, hNot, -⟩)
      · exact hy h
      · exact hy h
      · exact hy h
      · exact hNot hz
    · simp only [hy, hz, decide_false]
      constructor
      · intro h
        exact .violation hy hz (of_decide_eq_true h)
      · rintro (⟨h, -⟩ | ⟨h, -, -⟩ | ⟨h, -, -, -, -⟩ | ⟨-, -, h⟩)
        · exact absurd h hy
        · exact absurd h hy
        · exact absurd h hy
        · exact decide_eq_true h

theorem offer_of_better (h : y.Better tolerance z) :
    (ofIterate z tolerance).offer y = ofIterate y tolerance := by
  rw [offer, if_pos (isBeatenBy_iff.mpr h)]
  rfl

theorem offer_of_not_better (h : ¬ y.Better tolerance z) :
    (ofIterate z tolerance).offer y = ofIterate z tolerance := by
  rw [offer, if_neg (mt isBeatenBy_iff.mp h)]

/-- **What is kept was offered, and nothing that was offered beats it.** -/
theorem exists_foldl_offer [Ordered α] (z : Iterate α n m) (ys : List (Iterate α n m))
    (tolerance : α) :
    ∃ w ∈ z :: ys, ys.foldl offer (ofIterate z tolerance) = ofIterate w tolerance ∧
      ∀ y ∈ z :: ys, ¬ y.Better tolerance w := by
  induction ys using List.reverseRecOn with
  | nil => exact ⟨z, List.mem_cons_self, rfl, by simpa using Iterate.Better.irrefl z⟩
  | append_singleton ys y ih =>
    obtain ⟨w, hw, hEq, hUnbeaten⟩ := ih
    rw [List.foldl_append, hEq, List.foldl_cons, List.foldl_nil, ← List.cons_append]
    simp only [List.forall_mem_append, List.forall_mem_singleton]
    by_cases h : y.Better tolerance w
    · -- what beats the newcomer would have beaten the old one
      exact ⟨y, List.mem_append_right _ List.mem_cons_self, offer_of_better h,
        fun u hu hBetter => hUnbeaten u hu (hBetter.trans h), Iterate.Better.irrefl y⟩
    · exact ⟨w, List.mem_append_left _ hw, offer_of_not_better h, hUnbeaten, h⟩

end Best

end PlaneSketch
