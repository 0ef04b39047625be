import Mathlib.Tactic.NormNum.OfScientific
import PlaneSketch.Optimize.Filter
import PlaneSketch.Proofs.Scalar.Real

/-!
# What the filter drops

Beside the filter that drops dominated entries stands the one that keeps them all, and the two are
compared in exact arithmetic.

* `Filter.Dominates`, `Filter.Covers`: one entry is below another in both coordinates; a filter
  holds an entry that is.
* `Filter.covers_ofHistory`: **for every entry ever made one that dominates it is still there**,
  through however many replacements.
* `Filter.acceptable_eq_false_of_covers`: no pair at or above an entered one gets past a filter that
  covers its entry.
* `Filter.acceptable_ofHistory`: **the filter without drops admits what the filter admits, less the
  margins of the dropped entries**.  The margin of an entry grows with its violation, which the test
  for dropping does not look at.
* `Filter.acceptable_ofHistory_steep`: something in such a margin is admitted.
-/

namespace PlaneSketch.Filter

section History

variable {α : Type} [Scalar α]

/-- The filter after a history of iterates, each a violation and an objective. -/
def ofHistory (history : List (α × Option α)) : Filter α :=
  history.foldl (fun filter z => filter.add z.1 z.2) []

/-- The entries of a history of iterates, with none of them dropped. -/
def allEntries (history : List (α × Option α)) : Filter α :=
  history.map fun z => entry z.1 z.2

theorem mem_add {filter : Filter α} {violation : α} {objective? : Option α} {e : FilterEntry α} :
    e ∈ filter.add violation objective? ↔
      e ∈ filter ∧ survives (entry violation objective?) e = true ∨
        e = entry violation objective? := by
  rw [add, List.mem_append, List.mem_filter, List.mem_singleton]

theorem ofHistory_append_singleton (before : List (α × Option α)) (z : α × Option α) :
    ofHistory (before ++ [z]) = (ofHistory before).add z.1 z.2 := by
  rw [ofHistory, List.foldl_append]
  rfl

theorem allEntries_append_singleton (before : List (α × Option α)) (z : α × Option α) :
    allEntries (before ++ [z]) = allEntries before ++ [entry z.1 z.2] :=
  List.map_append

theorem mem_allEntries {history : List (α × Option α)} {e : FilterEntry α} :
    e ∈ allEntries history ↔ ∃ z ∈ history, entry z.1 z.2 = e :=
  List.mem_map

/-- The filter makes up no entries. -/
theorem mem_allEntries_of_mem {history : List (α × Option α)} {e : FilterEntry α}
    (he : e ∈ ofHistory history) : e ∈ allEntries history := by
  induction history using List.reverseRecOn with
  | nil => exact absurd he List.not_mem_nil
  | append_singleton before z ih =>
    rw [ofHistory_append_singleton, mem_add] at he
    rw [allEntries_append_singleton, List.mem_append]
    rcases he with ⟨he, -⟩ | rfl
    · exact Or.inl (ih he)
    · exact Or.inr (List.mem_singleton_self _)

end History

/-! ## Domination -/

/-- An objective that is not above another one; none is below all numbers. -/
def ObjectiveLe : Option ℝ → Option ℝ → Prop
  | none, _ => True
  | some _, none => False
  | some a, some b => a ≤ b

/-- An entry that is not above another one in violation nor in objective. -/
structure Dominates (e old : FilterEntry ℝ) : Prop where
  violation : e.violation ≤ old.violation
  objective : ObjectiveLe e.objective? old.objective?

theorem ObjectiveLe.refl (a : Option ℝ) : ObjectiveLe a a := by
  cases a with
  | none => trivial
  | some a => exact le_refl a

theorem ObjectiveLe.trans {a b c : Option ℝ} (h : ObjectiveLe a b) (h' : ObjectiveLe b c) :
    ObjectiveLe a c := by
  cases a with
  | none => trivial
  | some a =>
    cases b with
    | none => exact h.elim
    | some b =>
      cases c with
      | none => exact h'.elim
      | some c => exact le_trans (show a ≤ b from h) h'

theorem Dominates.refl (e : FilterEntry ℝ) : Dominates e e := ⟨le_refl _, .refl _⟩

theorem Dominates.trans {a b c : FilterEntry ℝ} (h : Dominates a b) (h' : Dominates b c) :
    Dominates a c :=
  ⟨le_trans h.violation h'.violation, h.objective.trans h'.objective⟩

/-- **An entry is dropped only when the new one dominates it.** -/
theorem dominates_of_not_survives {new old : FilterEntry ℝ} (h : ¬ survives new old = true) :
    Dominates new old := by
  rw [survives, Bool.or_eq_true, not_or, decide_eq_true_eq, not_lt] at h
  refine ⟨h.1, ?_⟩
  obtain ⟨-, hObjective⟩ := h
  cases hNew : new.objective? with
  | none => trivial
  | some b =>
    cases hOld : old.objective? with
    | none => simp [hNew, hOld, objectiveBelow] at hObjective
    | some a =>
      simp only [hNew, hOld, objectiveBelow, decide_eq_true_eq, not_lt] at hObjective
      exact hObjective

/-- A filter holds an entry that dominates a given one. -/
def Covers (filter : Filter ℝ) (old : FilterEntry ℝ) : Prop := ∃ e ∈ filter, Dominates e old

variable {filter : Filter ℝ} {e old : FilterEntry ℝ} {history : List (ℝ × Option ℝ)}

theorem covers_add_entry (filter : Filter ℝ) (violation : ℝ) (objective? : Option ℝ) :
    Covers (filter.add violation objective?) (entry violation objective?) :=
  ⟨_, mem_add.mpr (Or.inr rfl), .refl _⟩

/-- What dominates the dropped entry dominates all that the dropped one did. -/
theorem Covers.add (h : Covers filter old) (violation : ℝ) (objective? : Option ℝ) :
    Covers (filter.add violation objective?) old := by
  obtain ⟨e, he, hDominates⟩ := h
  by_cases hSurvives : survives (entry violation objective?) e = true
  · exact ⟨e, mem_add.mpr (Or.inl ⟨he, hSurvives⟩), hDominates⟩
  · exact ⟨_, mem_add.mpr (Or.inr rfl), (dominates_of_not_survives hSurvives).trans hDominates⟩

/-- **For every entry ever made one that dominates it is still there.** -/
theorem covers_ofHistory (he : e ∈ allEntries history) : Covers (ofHistory history) e := by
  induction history using List.reverseRecOn with
  | nil => exact absurd he List.not_mem_nil
  | append_singleton before z ih =>
    rw [ofHistory_append_singleton]
    rw [allEntries_append_singleton, List.mem_append, List.mem_singleton] at he
    rcases he with he | rfl
    · exact (ih he).add z.1 z.2
    · exact covers_add_entry _ z.1 z.2

/-! ## The margins -/

theorem margin_pos : (0 : ℝ) < margin := by norm_num [margin]

theorem one_sub_margin_pos : (0 : ℝ) < 1 - margin := by norm_num [margin]

theorem one_sub_margin_lt_one : 1 - margin < (1 : ℝ) := sub_lt_self 1 margin_pos

theorem violation_entry_nonneg {violation : ℝ} (h : 0 ≤ violation) (objective? : Option ℝ) :
    0 ≤ (entry violation objective?).violation :=
  mul_nonneg (le_of_lt one_sub_margin_pos) h

/-- A filter without negative violations. -/
def Nonneg (filter : Filter ℝ) : Prop := ∀ e ∈ filter, 0 ≤ e.violation

theorem Nonneg.add (h : filter.Nonneg) {violation : ℝ} (hViolation : 0 ≤ violation)
    (objective? : Option ℝ) : (filter.add violation objective?).Nonneg := by
  intro e he
  rcases mem_add.mp he with ⟨he, -⟩ | rfl
  · exact h e he
  · exact violation_entry_nonneg hViolation objective?

theorem nonneg_ofHistory (h : ∀ z ∈ history, 0 ≤ z.1) : (ofHistory history).Nonneg := by
  intro e he
  obtain ⟨z, hz, rfl⟩ := mem_allEntries.mp (mem_allEntries_of_mem he)
  exact violation_entry_nonneg (h z hz) z.2

theorem improves_eq_true {violation objective : ℝ} :
    improves violation objective e = true ↔ violation ≤ (1 - margin) * e.violation ∨
      ∃ bound, e.objective? = some bound ∧ objective ≤ bound - margin * e.violation := by
  rw [improves, Bool.or_eq_true, decide_eq_true_eq]
  refine or_congr_right ?_
  cases e.objective? with
  | none => simp
  | some bound => simp

/-- An entry is in the way of every pair that is at or above the pair it was made for. -/
theorem improves_eq_false {violation objective θ φ : ℝ} (hPositive : 0 < violation)
    (he : 0 ≤ e.violation) (hDominates : Dominates e (entry violation (some objective)))
    (hθ : violation ≤ θ) (hφ : objective ≤ φ) : improves θ φ e = false := by
  rw [← Bool.not_eq_true, improves_eq_true, not_or]
  constructor
  · have hShrunk : (1 - margin) * e.violation < violation := calc
      (1 - margin) * e.violation ≤ 1 * e.violation :=
        mul_le_mul_of_nonneg_right (le_of_lt one_sub_margin_lt_one) he
      _ = e.violation := one_mul _
      _ ≤ (1 - margin) * violation := hDominates.violation
      _ < 1 * violation := mul_lt_mul_of_pos_right one_sub_margin_lt_one hPositive
      _ = violation := one_mul _
    exact not_le_of_gt (lt_of_lt_of_le hShrunk hθ)
  · rintro ⟨bound, hBound, hImproves⟩
    have hObjective : bound ≤ objective - margin * ((1 - margin) * violation) := by
      have h := hDominates.objective
      rw [hBound] at h
      exact h
    have hLower : 0 < margin * ((1 - margin) * violation) :=
      mul_pos margin_pos (mul_pos one_sub_margin_pos hPositive)
    have hMargin : 0 ≤ margin * e.violation := mul_nonneg (le_of_lt margin_pos) he
    linarith

/-- **A filter that covers the entry of a pair admits nothing at or above the pair.** -/
theorem acceptable_eq_false_of_covers {violation objective θ φ : ℝ} (hPositive : 0 < violation)
    (hFilter : filter.Nonneg) (hCovers : Covers filter (entry violation (some objective)))
    (hθ : violation ≤ θ) (hφ : objective ≤ φ) : filter.acceptable θ φ = false := by
  obtain ⟨e, he, hDominates⟩ := hCovers
  have hBlocked := improves_eq_false hPositive (hFilter e he) hDominates hθ hφ
  rw [acceptable, List.all_eq_false]
  exact ⟨e, he, by rw [hBlocked]; exact Bool.false_ne_true⟩

/-- Nothing is in the way of a pair without violation. -/
theorem acceptable_zero (h : filter.Nonneg) (objective : ℝ) :
    filter.acceptable 0 objective = true := by
  rw [acceptable, List.all_eq_true]
  exact fun e he => improves_eq_true.mpr
    (Or.inl (mul_nonneg (le_of_lt one_sub_margin_pos) (h e he)))

/-- A pair that does not improve on an entry, though its objective is not above the entry's. -/
structure InMargin (violation objective : ℝ) (e : FilterEntry ℝ) : Prop where
  violation : (1 - margin) * e.violation < violation
  objective : ∃ bound, e.objective? = some bound ∧ bound - margin * e.violation < objective ∧
    objective ≤ bound

/-- What improves on an entry improves on those that it dominates or lies in their margin. -/
theorem improves_or_inMargin {violation objective : ℝ} (he : 0 ≤ e.violation)
    (hDominates : Dominates e old) (h : improves violation objective e = true) :
    improves violation objective old = true ∨ InMargin violation objective old := by
  by_cases hOld : improves violation objective old = true
  · exact Or.inl hOld
  refine Or.inr ?_
  rw [improves_eq_true, not_or, not_le] at hOld
  have hViolation : (1 - margin) * e.violation ≤ (1 - margin) * old.violation :=
    mul_le_mul_of_nonneg_left hDominates.violation (le_of_lt one_sub_margin_pos)
  obtain ⟨bound, hBound, hImproves⟩ := (improves_eq_true.mp h).resolve_left
    (not_le_of_gt (lt_of_le_of_lt hViolation hOld.1))
  refine ⟨hOld.1, ?_⟩
  have hObjective := hDominates.objective
  rw [hBound] at hObjective
  cases hSome : old.objective? with
  | none =>
    rw [hSome] at hObjective
    exact hObjective.elim
  | some bound' =>
    rw [hSome] at hObjective
    have hLe : bound ≤ bound' := hObjective
    have hMargin : 0 ≤ margin * e.violation := mul_nonneg (le_of_lt margin_pos) he
    refine ⟨bound', rfl, not_le.mp fun hBelow => hOld.2 ⟨bound', hSome, hBelow⟩, ?_⟩
    linarith

/-- A pair in the margin of an entry does not improve on it. -/
theorem InMargin.improves_eq_false {violation objective : ℝ} (h : InMargin violation objective e) :
    improves violation objective e = false := by
  obtain ⟨bound, hSome, hBelow, -⟩ := h.objective
  rw [← Bool.not_eq_true, improves_eq_true, not_or, not_le]
  refine ⟨h.violation, ?_⟩
  rintro ⟨bound', hSome', hImproves⟩
  obtain rfl : bound = bound' := Option.some.inj (hSome.symm.trans hSome')
  exact absurd hImproves (not_le_of_gt hBelow)

/-- **What dropping entries changes.**  The filter without drops admits what the filter admits, less
the margins of the entries that were dropped. -/
theorem acceptable_ofHistory {history : List (ℝ × Option ℝ)} (h : ∀ z ∈ history, 0 ≤ z.1)
    (violation objective : ℝ) :
    (allEntries history).acceptable violation objective = true ↔
      (ofHistory history).acceptable violation objective = true ∧
        ∀ e ∈ allEntries history, e ∉ ofHistory history → ¬ InMargin violation objective e := by
  simp only [acceptable, List.all_eq_true]
  constructor
  · intro hAll
    refine ⟨fun e he => hAll e (mem_allEntries_of_mem he), fun e he _ hMargin => ?_⟩
    exact absurd ((hAll e he).symm.trans hMargin.improves_eq_false) (by simp)
  · rintro ⟨hKept, hOutside⟩ old hOld
    by_cases hIn : old ∈ ofHistory history
    · exact hKept old hIn
    · obtain ⟨e, he, hDominates⟩ := covers_ofHistory hOld
      exact (improves_or_inMargin (nonneg_ofHistory h e he) hDominates (hKept e he)).resolve_right
        (hOutside old hOld hIn)

/-! ### A low entry in the place of a high one -/

/-- The bound on the violation of a run, then two iterates: the second one has a far smaller
violation and a lower objective. -/
def steep : List (ℝ × Option ℝ) := [(1000000000, none), (100000, some 0), (20000, some (-1))]

theorem steep_nonneg : ∀ z ∈ steep, 0 ≤ z.1 := by
  simp [steep]

theorem ofHistory_steep :
    ofHistory steep = [entry 1000000000 none, entry 20000 (some (-1))] := by
  norm_num [steep, ofHistory, add, survives, entry, objectiveBelow, margin]

theorem mem_allEntries_steep {e : FilterEntry ℝ} : e ∈ allEntries steep ↔
    e = entry 1000000000 none ∨ e = entry 100000 (some 0) ∨ e = entry 20000 (some (-1)) := by
  simp [steep, allEntries]

theorem admits_steep : (ofHistory steep).acceptable 200000 (-1.6) = true := by
  rw [ofHistory_steep]
  norm_num [acceptable, improves, entry, margin]

theorem refuses_steep : (allEntries steep).acceptable 200000 (-1.6) = false := by
  norm_num [acceptable, improves, entry, margin, allEntries, steep]

/-- The dropped entry has the pair in its margin. -/
theorem inMargin_steep : entry 100000 (some 0) ∉ ofHistory steep ∧
    InMargin 200000 (-1.6) (entry 100000 (some 0)) := by
  have hRefuses : ¬ (allEntries steep).acceptable 200000 (-1.6) = true := by
    rw [refuses_steep]
    exact Bool.false_ne_true
  have hMargins : ∃ e ∈ allEntries steep, e ∉ ofHistory steep ∧ InMargin 200000 (-1.6) e := by
    by_contra hNone
    exact hRefuses ((acceptable_ofHistory steep_nonneg 200000 (-1.6)).mpr
      ⟨admits_steep, fun e he hDropped hMargin => hNone ⟨e, he, hDropped, hMargin⟩⟩)
  obtain ⟨e, he, hDropped, hMargin⟩ := hMargins
  rcases mem_allEntries_steep.mp he with rfl | rfl | rfl
  · exact absurd (ofHistory_steep ▸ List.mem_cons_self) hDropped
  · exact ⟨hDropped, hMargin⟩
  · exact absurd (ofHistory_steep ▸ List.mem_cons_of_mem _ List.mem_cons_self) hDropped

/-- **The filter admits a pair that it would refuse if it had dropped nothing**: one with twice the
violation of the dropped entry and an objective lower by less than the margins. -/
theorem acceptable_ofHistory_steep : (∀ z ∈ steep, 0 ≤ z.1) ∧
    (ofHistory steep).acceptable 200000 (-1.6) = true ∧
    (allEntries steep).acceptable 200000 (-1.6) = false :=
  ⟨steep_nonneg, admits_steep, refuses_steep⟩

end PlaneSketch.Filter
