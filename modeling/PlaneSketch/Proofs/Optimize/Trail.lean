import Mathlib.Data.List.Chain
import PlaneSketch.Optimize.Method
import PlaneSketch.Proofs.Optimize.Best

/-!
# The iterates of a run

The loop of a method keeps the best iterate only.  Beside it stands the list of all states that it
comes to, with no account of which iterate is best, and the two are compared.

* `trail`, `iterates`: the states, and the iterates they stand at; `forall_mem_trail` and
  `forall_mem_after` say what holds of all of them, or of all after one.
* `exists_loop_eq`: the loop offers every iterate of the trail, and the last one once more if it
  has converged.
* `exists_run_eq`: **a run gives back one of its iterates, and no other one beats it**.
* `exists_last_of_converged`: **a run that converges does so at its last iterate**.
-/

namespace PlaneSketch.Method

open Scalar

variable {α : Type} [Scalar α] {n m : Nat} {σ : Type} {method : Method α n m σ}

/-- The states that a run comes to, at most `budget` of them after the one it starts from. -/
def trail (method : Method α n m σ) : (budget : Nat) → σ → List σ
  | 0, s => [s]
  | budget + 1, s =>
    match (method.iterate s).2 with
    | .next t => s :: method.trail budget t
    | .converged => [s]
    | .stuck _ => [s]

/-- The iterates of a run, the one it starts from first. -/
def iterates (method : Method α n m σ) (config : Config α) (start : Iterate α n m → σ)
    (z : Iterate α n m) : List (Iterate α n m) :=
  if n = 0 then [z] else (method.trail config.maxIterations (start z)).map method.here

omit [Scalar α] in
theorem trail_eq_cons (budget : Nat) (s : σ) :
    method.trail budget s = s :: (method.trail budget s).tail := by
  cases budget with
  | zero => rfl
  | succ budget =>
    rw [trail]
    split <;> rfl

omit [Scalar α] in
theorem trail_of_next {s t : σ} (h : (method.iterate s).2 = .next t) (budget : Nat) :
    method.trail (budget + 1) s = s :: method.trail budget t := by
  rw [trail]
  simp only [h]

omit [Scalar α] in
/-- Every state of a trail but the first is what the iteration before it decided on. -/
theorem isChain_trail (budget : Nat) (s : σ) :
    (method.trail budget s).IsChain fun s t => (method.iterate s).2 = .next t := by
  induction budget generalizing s with
  | zero => exact List.isChain_singleton s
  | succ budget ih =>
    rw [trail]
    split
    · next t hNext =>
      rw [trail_eq_cons, List.isChain_cons_cons, ← trail_eq_cons]
      exact ⟨hNext, ih t⟩
    · exact List.isChain_singleton s
    · exact List.isChain_singleton s

omit [Scalar α] in
/-- What every iteration keeps holds of all states that a run comes to. -/
theorem forall_mem_trail {P : σ → Prop} {s : σ} (hStart : P s)
    (hNext : ∀ s t, P s → (method.iterate s).2 = .next t → P t) (budget : Nat) :
    ∀ t ∈ method.trail budget s, P t := by
  have hHead : (method.trail budget s).head? = some s := by
    rw [trail_eq_cons]
    rfl
  refine (isChain_trail budget s).induction P _ (fun s t h hs => hNext s t hs h) fun hNe => ?_
  rwa [(List.head_eq_iff_head?_eq_some hNe).mpr hHead]

omit [Scalar α] in
/-- What the iteration at a state establishes and every later one keeps holds of all states that
come after it. -/
theorem forall_mem_after {P : σ → Prop} {first s : σ} {budget : Nat} {before after : List σ}
    (hTrail : method.trail budget first = before ++ s :: after)
    (hFirst : ∀ t, (method.iterate s).2 = .next t → P t)
    (hNext : ∀ s t, P s → (method.iterate s).2 = .next t → P t) : ∀ t ∈ after, P t := by
  have hChain : (before ++ s :: after).IsChain fun s t => (method.iterate s).2 = .next t :=
    hTrail ▸ isChain_trail budget first
  cases after with
  | nil => exact fun t ht => absurd ht List.not_mem_nil
  | cons t rest =>
    obtain ⟨hStep, hRest⟩ := List.isChain_cons_cons.mp hChain.right_of_append
    exact hRest.induction P _ (fun s t h hs => hNext s t hs h) fun _ => hFirst t hStep

omit [Scalar α] in
theorem isChain_iterates {R : Iterate α n m → Iterate α n m → Prop} {config : Config α}
    {start : Iterate α n m → σ} {z : Iterate α n m}
    (h : ∀ s t, (method.iterate s).2 = .next t → R (method.here s) (method.here t)) :
    (method.iterates config start z).IsChain R := by
  rw [iterates]
  split
  · exact List.isChain_singleton z
  · exact List.isChain_map_of_isChain method.here h (isChain_trail config.maxIterations (start z))

omit [Scalar α] in
theorem head?_iterates {config : Config α} {start : Iterate α n m → σ} {z : Iterate α n m}
    (hStart : method.here (start z) = z) : (method.iterates config start z).head? = some z := by
  rw [iterates]
  split
  · rfl
  · rw [trail_eq_cons, List.map_cons, hStart]
    rfl

omit [Scalar α] in
/-- What every iteration keeps holds of all iterates of a run. -/
theorem forall_mem_iterates {P : σ → Prop} {Q : Iterate α n m → Prop} {config : Config α}
    {start : Iterate α n m → σ} {z : Iterate α n m} (hz : Q z) (hStart : P (start z))
    (hNext : ∀ s t, P s → (method.iterate s).2 = .next t → P t)
    (hHere : ∀ s, P s → Q (method.here s)) : ∀ y ∈ method.iterates config start z, Q y := by
  intro y hy
  rw [iterates] at hy
  split at hy
  · exact List.mem_singleton.mp hy ▸ hz
  · obtain ⟨s, hs, rfl⟩ := List.mem_map.mp hy
    exact hHere s (forall_mem_trail hStart hNext config.maxIterations s hs)

theorem minimization_loop_of_next {s t : σ} (h : (method.iterate s).2 = .next t)
    (budget index : Nat) (best : Best α n) :
    (method.loop (budget + 1) index s best).minimization =
      (method.loop budget (index + 1) t (best.offer (method.here t))).minimization := by
  rw [loop]
  simp only [h]

theorem minimization_loop_of_converged {s : σ} (h : (method.iterate s).2 = .converged)
    (budget index : Nat) (best : Best α n) :
    (method.loop (budget + 1) index s best).minimization =
      (best.offer (method.here s)).toMinimization true index := by
  rw [loop]
  simp only [h]

/-- What a run has kept when it ends: it has offered every iterate of its trail, and the last one
once more if it has converged. -/
theorem exists_loop_eq (method : Method α n m σ) (budget index : Nat) (s : σ) (best : Best α n) :
    ∃ before last converged iterations, method.trail budget s = before ++ [last] ∧
      (method.loop budget index s best).minimization =
        (((method.trail budget s).tail.map method.here ++
          if converged then [method.here last] else []).foldl Best.offer best).toMinimization
            converged iterations ∧
      iterations ≤ index + budget ∧
      (converged = true → (method.iterate last).2 = .converged) := by
  induction budget generalizing index s best with
  | zero => exact ⟨[], s, false, index, rfl, rfl, Nat.le_refl _, fun h => absurd h (by simp)⟩
  | succ budget ih =>
    rw [loop, trail]
    rcases hIterate : method.iterate s with ⟨notes, decision⟩
    cases decision with
    | converged => exact ⟨[], s, true, index, rfl, rfl, by omega, fun _ => by rw [hIterate]⟩
    | stuck counted =>
      exact ⟨[], s, false, index + counted.toNat, rfl, rfl, by cases counted <;> simp,
        fun h => absurd h (by simp)⟩
    | next t =>
      obtain ⟨before, last, converged, iterations, hTrail, hLoop, hCount, hTest⟩ :=
        ih (index + 1) t (best.offer (method.here t))
      refine ⟨s :: before, last, converged, iterations, ?_, ?_, by omega, hTest⟩
      · simp only [hTrail, List.cons_append]
      · simp only [hLoop, List.tail_cons]
        rw [trail_eq_cons budget t]
        rfl

variable {config : Config α} {start : Iterate α n m → σ} {z : Iterate α n m}

omit [Scalar α] in
theorem map_trail (hStart : method.here (start z) = z) (budget : Nat) :
    (method.trail budget (start z)).map method.here =
      z :: (method.trail budget (start z)).tail.map method.here := by
  rw [trail_eq_cons, List.map_cons, hStart, List.tail_cons]

/-- **A run gives back one of its iterates, and no other one beats it.** -/
theorem exists_run_eq [Ordered α] (hStart : method.here (start z) = z) :
    ∃ w ∈ method.iterates config start z, ∃ converged iterations,
      (method.run config start z).minimization =
        (Best.ofIterate w (scaledTolerance config.constraintTolerance z.x)).toMinimization
          converged iterations ∧
      iterations ≤ config.maxIterations ∧
      ∀ y ∈ method.iterates config start z,
        ¬ y.Better (scaledTolerance config.constraintTolerance z.x) w := by
  rw [iterates, run]
  split
  · exact ⟨z, List.mem_singleton_self z, _, 0, rfl, Nat.zero_le _,
      by simpa using Iterate.Better.irrefl z⟩
  · obtain ⟨before, last, converged, iterations, hTrail, hLoop, hCount, -⟩ :=
      exists_loop_eq method config.maxIterations 0 (start z)
        (Best.ofIterate z (scaledTolerance config.constraintTolerance z.x))
    obtain ⟨w, hw, hKept, hUnbeaten⟩ := Best.exists_foldl_offer z
      ((method.trail config.maxIterations (start z)).tail.map method.here ++
        if converged then [method.here last] else [])
      (scaledTolerance config.constraintTolerance z.x)
    rw [← List.cons_append, ← map_trail hStart] at hw hUnbeaten
    have hLast : method.here last ∈
        (method.trail config.maxIterations (start z)).map method.here := by
      rw [hTrail]
      exact List.mem_map_of_mem (List.mem_append_right _ List.mem_cons_self)
    refine ⟨w, ?_, converged, iterations, by rw [hLoop, hKept], by omega,
      fun y hy => hUnbeaten y (List.mem_append_left _ hy)⟩
    rcases List.mem_append.mp hw with hw | hw
    · exact hw
    · split at hw
      · exact List.mem_singleton.mp hw ▸ hLast
      · exact absurd hw List.not_mem_nil

/-- **A run that converges does so at its last iterate.** -/
theorem exists_last_of_converged (hn : n ≠ 0)
    (h : (method.run config start z).minimization.converged = true) :
    ∃ before last, method.iterates config start z = before ++ [method.here last] ∧
      (method.trail config.maxIterations (start z)).getLast? = some last ∧
      (method.iterate last).2 = .converged := by
  obtain ⟨before, last, converged, iterations, hTrail, hLoop, -, hTest⟩ :=
    exists_loop_eq method config.maxIterations 0 (start z)
      (Best.ofIterate z (scaledTolerance config.constraintTolerance z.x))
  rw [run, if_neg hn] at h
  rw [hLoop] at h
  refine ⟨before.map method.here, last, ?_, ?_, hTest h⟩
  · rw [iterates, if_neg hn, hTrail, List.map_append, List.map_singleton]
  · rw [hTrail, List.getLast?_concat]

/-- A run that passes the test at its start gives it back. -/
theorem minimization_run_of_start [Ordered α] (hn : n ≠ 0) (hBudget : config.maxIterations ≠ 0)
    (hStart : method.here (start z) = z) (h : (method.iterate (start z)).2 = .converged) :
    (method.run config start z).minimization =
      (Best.ofIterate z (scaledTolerance config.constraintTolerance z.x)).toMinimization
        true 0 := by
  obtain ⟨budget, hSucc⟩ := Nat.exists_eq_succ_of_ne_zero hBudget
  rw [run, if_neg hn, hSucc, minimization_loop_of_converged h, hStart,
    Best.offer_of_not_better (Iterate.Better.irrefl z)]

/-- A run that converges can take the first step or needs none. -/
theorem iterate_start_ne_stuck (hn : n ≠ 0)
    (h : (method.run config start z).minimization.converged = true) (counted : Bool) :
    (method.iterate (start z)).2 ≠ .stuck counted := by
  intro hStuck
  rw [run, if_neg hn] at h
  revert h
  cases config.maxIterations with
  | zero => exact Bool.false_ne_true
  | succ budget =>
    rw [loop]
    simp only [hStuck]
    exact Bool.false_ne_true

end PlaneSketch.Method
