import PlaneSketch.Proofs.Catalog
import PlaneSketch.Sketch

/-!
# Removing entities

A removal goes through the constraints three times: it erases those that stop being applicable,
recreates those that mention a removed entity, and only then deletes the entities.  Names make the
three passes agree, since each of them finds a constraint by its name.

* `foldl_erase_eq`: erasing by name is filtering by name, if names are distinct.
* `recreateEach_pruned`: recreation, constraint by constraint, never fails and gives `Pruned`.
* `removeEntities_of_missing`, `removeEntities_of_forall_mem`: a removal that names a missing
  entity changes nothing, and any other one does all that `Removes` says.
-/

namespace PlaneSketch

theorem filter_notMem_cons {β γ : Type} [DecidableEq γ] (key : β → γ) (a : γ) (names : List γ)
    (l : List β) : (l.filter fun x => key x ≠ a).filter (fun x => key x ∉ names) =
      l.filter fun x => key x ∉ a :: names := by
  rw [List.filter_filter]
  refine List.filter_congr fun x _ => ?_
  simp [Bool.and_comm]

variable {α : Type} {ids : List EntityId}

theorem Operand.ownedBy_iff {o : Operand α} :
    o.ownedBy ids = true ↔ ∃ id ∈ ids, o.owner? = some id := by
  rw [Operand.ownedBy]
  cases o.owner? with
  | none => simp
  | some id => simp

namespace Constraint

/-- The kind accepts the operands that do not live on `ids`. -/
def survives (ids : List EntityId) (c : Constraint α) : Bool :=
  c.kind.accepts ((c.surviving ids).map Operand.type)

theorem references_iff {c : Constraint α} {id : EntityId} :
    c.references id = true ↔ ∃ o ∈ c.operands, o.owner? = some id := by
  simp [references]

/-- A constraint mentions none of `ids` exactly when all of its operands survive. -/
theorem surviving_eq_self_iff {c : Constraint α} :
    c.surviving ids = c.operands ↔ ∀ id ∈ ids, c.references id = false := by
  rw [surviving, List.filter_eq_self]
  constructor
  · intro hAll id hId
    rw [Bool.eq_false_iff, ne_eq, references_iff]
    rintro ⟨o, ho, hOwner⟩
    have hOwned := Operand.ownedBy_iff.mpr ⟨id, hId, hOwner⟩
    simpa [hOwned] using hAll o ho
  · intro hNone o ho
    rw [Bool.not_eq_true', Bool.eq_false_iff, ne_eq, Operand.ownedBy_iff]
    rintro ⟨id, hId, hOwner⟩
    have hReferences := references_iff.mpr ⟨o, ho, hOwner⟩
    simp [hNone id hId] at hReferences

end Constraint

/-- A list of constraints becomes another one by the removal of `ids`, with the names dropped and
the names replaced on the way. -/
inductive Pruned (ids : List EntityId) : List (Constraint α) → List (Constraint α) →
    List ConstraintId → List (ConstraintId × ConstraintId) → Prop
  | nil : Pruned ids [] [] [] []
  /-- A constraint that does not apply to what survives is dropped. -/
  | drop {c : Constraint α} {old new removed replaced} : c.survives ids = false →
      Pruned ids old new removed replaced → Pruned ids (c :: old) new (c.id :: removed) replaced
  /-- One that does, but mentions a removed entity, is declared over what survives. -/
  | recreate {c : Constraint α} {old new removed replaced} (name : ConstraintId) :
      c.survives ids = true → (∃ id ∈ ids, c.references id = true) →
      Pruned ids old new removed replaced →
      Pruned ids (c :: old) (⟨name, c.kind, c.surviving ids⟩ :: new) removed
        ((c.id, name) :: replaced)
  /-- Any other one is kept. -/
  | keep {c : Constraint α} {old new removed replaced} : c.survives ids = true →
      (∀ id ∈ ids, c.references id = false) → Pruned ids old new removed replaced →
      Pruned ids (c :: old) (c :: new) removed replaced

namespace Pruned

variable {old new : List (Constraint α)} {removed : List ConstraintId}
  {replaced : List (ConstraintId × ConstraintId)}

/-- **What is left is over surviving operands**, under the old name or under a replacement. -/
theorem exists_origin (h : Pruned ids old new removed replaced) :
    ∀ d ∈ new, ∃ c ∈ old, c.survives ids = true ∧ d.kind = c.kind ∧
      d.operands = c.surviving ids ∧ (d.id = c.id ∨ (c.id, d.id) ∈ replaced) := by
  induction h with
  | nil => intro d hd; exact absurd hd List.not_mem_nil
  | drop _ _ ih =>
    intro d hd
    obtain ⟨c, hc, hRest⟩ := ih d hd
    exact ⟨c, List.mem_cons_of_mem _ hc, hRest⟩
  | recreate name hSurvives _ _ ih =>
    intro d hd
    rcases List.mem_cons.mp hd with rfl | hd
    · exact ⟨_, List.mem_cons_self, hSurvives, rfl, rfl, Or.inr List.mem_cons_self⟩
    · obtain ⟨c, hc, hApplies, hKind, hOperands, hName⟩ := ih d hd
      exact ⟨c, List.mem_cons_of_mem _ hc, hApplies, hKind, hOperands,
        hName.imp_right (List.mem_cons_of_mem _)⟩
  | keep hSurvives hNone _ ih =>
    intro d hd
    rcases List.mem_cons.mp hd with rfl | hd
    · exact ⟨_, List.mem_cons_self, hSurvives, rfl,
        (Constraint.surviving_eq_self_iff.mpr hNone).symm, Or.inl rfl⟩
    · obtain ⟨c, hc, hRest⟩ := ih d hd
      exact ⟨c, List.mem_cons_of_mem _ hc, hRest⟩

theorem name_mem (h : Pruned ids old new removed replaced) {d : Constraint α} (hd : d ∈ new) :
    d.id ∈ old.map (·.id) ∨ d.id ∈ replaced.map (·.2) := by
  obtain ⟨c, hc, -, -, -, hName⟩ := h.exists_origin d hd
  rcases hName with hSame | hPair
  · exact Or.inl (hSame ▸ List.mem_map_of_mem hc)
  · exact Or.inr (List.mem_map_of_mem (f := Prod.snd) hPair)

/-- Nothing that is left mentions a removed entity. -/
theorem not_references (h : Pruned ids old new removed replaced) :
    ∀ d ∈ new, ∀ id ∈ ids, d.references id = false := by
  intro d hd
  obtain ⟨c, -, -, -, hOperands, -⟩ := h.exists_origin d hd
  rw [← Constraint.surviving_eq_self_iff, Constraint.surviving, hOperands, Constraint.surviving,
    List.filter_filter]
  simp only [Bool.and_self]

/-- Names stay distinct if the new ones are new. -/
theorem nodup (h : Pruned ids old new removed replaced) :
    (old.map (·.id)).Nodup → (replaced.map (·.2)).Nodup →
      (∀ pair ∈ replaced, pair.2 ∉ old.map (·.id)) → (new.map (·.id)).Nodup := by
  induction h with
  | nil => exact fun _ _ _ => List.nodup_nil
  | drop _ _ ih =>
    intro hOld hReplaced hNew
    exact ih hOld.of_cons hReplaced fun pair hPair hMem =>
      hNew pair hPair (List.mem_cons_of_mem _ hMem)
  | @recreate c _ _ _ _ name _ _ hPruned ih =>
    intro hOld hReplaced hNew
    obtain ⟨hName, hReplaced⟩ := List.nodup_cons.mp hReplaced
    refine List.nodup_cons.mpr ⟨fun hMem => ?_, ih hOld.of_cons hReplaced fun pair hPair hMem =>
      hNew pair (List.mem_cons_of_mem _ hPair) (List.mem_cons_of_mem _ hMem)⟩
    obtain ⟨d, hd, hEq⟩ := List.mem_map.mp hMem
    have hEq : d.id = name := hEq
    rcases hPruned.name_mem hd with hMem | hMem
    · exact hNew (c.id, name) List.mem_cons_self (List.mem_cons_of_mem _ (hEq ▸ hMem))
    · exact hName (hEq ▸ hMem)
  | @keep c _ _ _ _ _ _ hPruned ih =>
    intro hOld hReplaced hNew
    obtain ⟨hName, hOld⟩ := List.nodup_cons.mp hOld
    refine List.nodup_cons.mpr ⟨fun hMem => ?_, ih hOld hReplaced fun pair hPair hMem =>
      hNew pair hPair (List.mem_cons_of_mem _ hMem)⟩
    obtain ⟨d, hd, hEq⟩ := List.mem_map.mp hMem
    rcases hPruned.name_mem hd with hMem | hMem
    · exact hName (hEq ▸ hMem)
    · obtain ⟨pair, hPair, hSecond⟩ := List.mem_map.mp hMem
      exact hNew pair hPair (by rw [hSecond, hEq]; exact List.mem_cons_self)

end Pruned

namespace Constraints

/-! ## Erasing by name -/

theorem eraseP_eq_filter (id : ConstraintId) {items : List (Constraint α)}
    (h : (items.map (·.id)).Nodup) :
    items.eraseP (fun c => c.id = id) = items.filter (fun c => c.id ≠ id) := by
  induction items with
  | nil => rfl
  | cons c items ih =>
    obtain ⟨hName, hRest⟩ := List.nodup_cons.mp h
    by_cases hc : c.id = id
    · rw [List.eraseP_cons_of_pos (by simpa using hc), List.filter_cons_of_neg (by simpa using hc),
        List.filter_eq_self.mpr]
      intro d hd
      have hNe : d.id ≠ id := by
        rintro rfl
        exact hName (List.mem_map.mpr ⟨d, hd, hc.symm⟩)
      simpa using hNe
    · rw [List.eraseP_cons_of_neg (by simpa using hc), List.filter_cons_of_pos (by simpa using hc),
        ih hRest]

/-- **Erasing by name is filtering by name.** -/
theorem foldl_erase_eq (names : List ConstraintId) (cs : Constraints α)
    (h : (cs.items.map (·.id)).Nodup) :
    names.foldl erase cs = ⟨cs.items.filter (fun c => c.id ∉ names), cs.counters⟩ := by
  induction names generalizing cs with
  | nil => simp
  | cons name names ih =>
    have hErase : cs.erase name = ⟨cs.items.filter (fun c => c.id ≠ name), cs.counters⟩ := by
      rw [erase, eraseP_eq_filter name h]
    rw [List.foldl_cons, hErase, ih _ (h.sublist (List.filter_sublist.map _)),
      filter_notMem_cons (fun c : Constraint α => c.id)]

theorem foldl_erase_useless (cs : Constraints α) (ids : List EntityId)
    (h : (cs.items.map (·.id)).Nodup) : (cs.useless ids).foldl erase cs =
      ⟨cs.items.filter (Constraint.survives ids), cs.counters⟩ := by
  rw [foldl_erase_eq _ _ h]
  congr 1
  refine List.filter_congr fun c hc => ?_
  have hUseless : c.id ∈ cs.useless ids ↔ c.survives ids = false := by
    rw [useless, List.mem_map]
    constructor
    · rintro ⟨d, hd, hName⟩
      obtain ⟨hMem, hDropped⟩ := List.mem_filter.mp hd
      obtain rfl := List.inj_on_of_nodup_map h hMem hc hName
      simpa [Constraint.survives] using hDropped
    · intro hDropped
      exact ⟨c, List.mem_filter.mpr ⟨hc, by simpa [Constraint.survives] using hDropped⟩, rfl⟩
  rw [Bool.eq_iff_iff, decide_eq_true_iff, hUseless]
  simp

/-! ## Recreating by name -/

theorem replaceFirst_append {β : Type} {p : β → Bool} {done : List β} {x : β}
    (hDone : ∀ d ∈ done, p d = false) (hx : p x = true) (y : β) (rest : List β) :
    replaceFirst p y (done ++ x :: rest) = done ++ y :: rest := by
  induction done with
  | nil => rw [List.nil_append, replaceFirst, if_pos hx, List.nil_append]
  | cons d done ih =>
    obtain ⟨hd, hDone⟩ := List.forall_mem_cons.mp hDone
    rw [List.cons_append, replaceFirst, if_neg (by simp [hd]), ih hDone, List.cons_append]

theorem recreate_append {counters : Counters} {done : List (Constraint α)} {c : Constraint α}
    (hDone : ∀ d ∈ done, d.id ≠ c.id) {fresh : ConstraintId} {operands : List (Operand α)}
    (hAccepts : c.kind.accepts (operands.map Operand.type) = true) (rest : List (Constraint α)) :
    recreate ⟨done ++ c :: rest, counters⟩ c.id fresh operands =
      .ok ⟨done ++ ⟨fresh, c.kind, operands⟩ :: rest, counters⟩ := by
  have hGet : get? ⟨done ++ c :: rest, counters⟩ c.id = some c := by
    have hNone : done.find? (fun d => d.id = c.id) = none :=
      List.find?_eq_none.mpr fun d hd => by simpa using hDone d hd
    rw [get?, List.find?_append, hNone, Option.none_or, List.find?_cons_of_pos (by simp)]
  rw [recreate, hGet]
  simp only [hAccepts, if_true]
  rw [replaceFirst_append (fun d hd => by simpa using hDone d hd) (by simp)]

/-- **The second and the third pass, constraint by constraint.**  What is done stands before what
is still to come, and its names are none of those. -/
theorem recreateEach_pruned (ids : List EntityId) (counters : Counters)
    (old done : List (Constraint α)) (fresh : ConstraintId) (hOld : (old.map (·.id)).Nodup)
    (hDone : ∀ c ∈ old, ∀ d ∈ done, d.id ≠ c.id)
    (hFresh : ∀ c ∈ old, ∀ n, c.id ≠ fresh.plus n) :
    ∃ new replaced, recreateEach ⟨done ++ old.filter (Constraint.survives ids), counters⟩ fresh
        (((old.filter (Constraint.survives ids)).filter fun c => ids.any c.references).map
          fun c => (c.id, c.surviving ids)) =
        (⟨done ++ new, counters⟩, fresh.plus replaced.length, .ok replaced) ∧
      Pruned ids old new ((old.filter fun c => !c.survives ids).map (·.id)) replaced ∧
      replaced.map (·.2) = fresh.block replaced.length := by
  induction old generalizing done fresh with
  | nil => exact ⟨[], [], rfl, .nil, rfl⟩
  | cons c old ih =>
    obtain ⟨hName, hOld⟩ := List.nodup_cons.mp hOld
    obtain ⟨hDoneFirst, hDone⟩ := List.forall_mem_cons.mp hDone
    obtain ⟨hFreshFirst, hFresh⟩ := List.forall_mem_cons.mp hFresh
    by_cases hSurvives : c.survives ids = true
    · have hKept : (c :: old).filter (Constraint.survives ids) =
          c :: old.filter (Constraint.survives ids) := List.filter_cons_of_pos hSurvives
      have hDropped : (c :: old).filter (fun c => !c.survives ids) =
          old.filter (fun c => !c.survives ids) := List.filter_cons_of_neg (by simp [hSurvives])
      rw [hKept, hDropped]
      by_cases hTouched : ids.any c.references = true
      · -- the new constraint joins those that are done, and the next name is used from now on
        obtain ⟨new, replaced, hEach, hPruned, hNames⟩ :=
          ih (done ++ [⟨fresh, c.kind, c.surviving ids⟩]) (fresh.plus 1) hOld
            (fun d hd e he => by
              rcases List.mem_append.mp he with he | he
              · exact hDone d hd e he
              · obtain rfl := List.mem_singleton.mp he
                exact (hFresh d hd 0).symm)
            (fun d hd n => by rw [ConstraintId.plus_plus]; exact hFresh d hd (1 + n))
        refine ⟨⟨fresh, c.kind, c.surviving ids⟩ :: new, (c.id, fresh) :: replaced, ?_, ?_, ?_⟩
        · rw [List.filter_cons_of_pos (p := fun c : Constraint α => ids.any c.references) hTouched,
            List.map_cons, recreateEach,
            recreate_append hDoneFirst hSurvives]
          rw [List.append_assoc, List.singleton_append] at hEach
          simp only [hEach, List.append_assoc, List.singleton_append, Except.map,
            ConstraintId.plus_plus, List.length_cons, Nat.add_comm]
        · exact .recreate fresh hSurvives (by simpa using hTouched) hPruned
        · rw [List.map_cons, hNames, List.length_cons, ConstraintId.block_succ]
      · obtain ⟨new, replaced, hEach, hPruned, hNames⟩ := ih (done ++ [c]) fresh hOld
          (fun d hd e he => by
            rcases List.mem_append.mp he with he | he
            · exact hDone d hd e he
            · obtain rfl := List.mem_singleton.mp he
              exact fun hEq => hName (List.mem_map.mpr ⟨d, hd, hEq.symm⟩))
          hFresh
        refine ⟨c :: new, replaced, ?_, .keep hSurvives (by simpa using hTouched) hPruned, hNames⟩
        rw [List.append_assoc, List.append_assoc, List.singleton_append,
          List.singleton_append] at hEach
        rw [List.filter_cons_of_neg (p := fun c : Constraint α => ids.any c.references) hTouched,
          hEach]
    · have hKept : (c :: old).filter (Constraint.survives ids) =
          old.filter (Constraint.survives ids) := List.filter_cons_of_neg hSurvives
      have hDropped : (c :: old).filter (fun c => !c.survives ids) =
          c :: old.filter (fun c => !c.survives ids) :=
        List.filter_cons_of_pos (by simpa using hSurvives)
      rw [hKept, hDropped]
      obtain ⟨new, replaced, hEach, hPruned, hNames⟩ := ih done fresh hOld hDone hFresh
      exact ⟨new, replaced, hEach, .drop (by simpa using hSurvives) hPruned, hNames⟩

end Constraints

/-! ## Removing entities from a geometry -/

theorem Geometry.foldl_remove_eq (ids : List EntityId) (g : Geometry α) :
    ids.foldl Geometry.remove g =
      ⟨g.segments.filter (fun e => e.id ∉ ids), g.arcs.filter (fun e => e.id ∉ ids)⟩ := by
  induction ids generalizing g with
  | nil => simp
  | cons id ids ih =>
    rw [List.foldl_cons, ih, Geometry.remove,
      filter_notMem_cons (fun e : Named (Segment α) => e.id),
      filter_notMem_cons (fun e : Named (Arc α) => e.id)]

namespace Sketch

variable {s : Sketch α} {fresh : ConstraintId}

/-- What the removal of `ids` makes of a sketch. -/
structure Removes (ids : List EntityId) (s s' : Sketch α) (report : RemovalReport) : Prop where
  constraints : Pruned ids s.constraints.items s'.constraints.items report.removed report.replaced
  /-- No old constraint has a name that a replacement took. -/
  isNew : ∀ pair ∈ report.replaced, pair.2 ∉ s.constraints.items.map (·.id)
  distinct : (report.replaced.map (·.2)).Nodup
  not_references : ∀ c ∈ s'.constraints.items, ∀ id ∈ ids, c.references id = false
  geometry : s'.geometry = ⟨s.geometry.segments.filter (fun e => e.id ∉ ids),
    s.geometry.arcs.filter (fun e => e.id ∉ ids)⟩

theorem removeEntities_of_missing (fresh : ConstraintId)
    (h : ∃ id ∈ ids, id ∉ s.geometry.ids) :
    ∃ id ∈ ids, id ∉ s.geometry.ids ∧
      s.removeEntities fresh ids = (s, fresh, .error (.unknownEntity id)) := by
  have hFind : (ids.find? fun id => (s.geometry.entityType? id).isNone).isSome := by
    obtain ⟨id, hId, hMissing⟩ := h
    rw [List.find?_isSome]
    exact ⟨id, hId, (s.geometry.isNone_entityType? id).mpr hMissing⟩
  obtain ⟨id, hId⟩ := Option.isSome_iff_exists.mp hFind
  have hMissing := List.find?_some hId
  exact ⟨id, List.mem_of_find?_eq_some hId, (s.geometry.isNone_entityType? id).mp hMissing,
    by rw [removeEntities, hId]⟩

/-- **A removal of entities that exist succeeds.** -/
theorem removeEntities_of_forall_mem (hNames : (s.constraints.items.map (·.id)).Nodup)
    (hFresh : ∀ c ∈ s.constraints.items, ∀ n, c.id ≠ fresh.plus n)
    (h : ∀ id ∈ ids, id ∈ s.geometry.ids) :
    ∃ s' report, s.removeEntities fresh ids =
        (s', fresh.plus report.replaced.length, .ok report) ∧
      report.replaced.map (·.2) = fresh.block report.replaced.length ∧
      Removes ids s s' report := by
  have hFind : ids.find? (fun id => (s.geometry.entityType? id).isNone) = none :=
    List.find?_eq_none.mpr fun id hId => by
      rw [s.geometry.isNone_entityType?]
      exact not_not_intro (h id hId)
  obtain ⟨new, replaced, hEach, hPruned, hReplaced⟩ := Constraints.recreateEach_pruned ids
    s.constraints.counters s.constraints.items [] fresh hNames
    (fun _ _ _ hd => absurd hd List.not_mem_nil) hFresh
  refine ⟨⟨ids.foldl Geometry.remove s.geometry, ⟨new, s.constraints.counters⟩⟩,
    ⟨s.constraints.useless ids, replaced⟩, ?_, hReplaced, hPruned, ?_, ?_, hPruned.not_references,
    Geometry.foldl_remove_eq ids s.geometry⟩
  · rw [removeEntities, hFind]
    simp only [Constraints.foldl_erase_useless _ ids hNames, touched]
    rw [List.nil_append] at hEach
    rw [hEach]
    rfl
  · intro pair hPair hMem
    have hPair : pair.2 ∈ replaced.map (·.2) := List.mem_map_of_mem hPair
    rw [hReplaced] at hPair
    obtain ⟨n, -, hn⟩ := ConstraintId.exists_of_mem_block hPair
    obtain ⟨c, hc, hEq⟩ := List.mem_map.mp hMem
    exact hFresh c hc n (hEq.trans hn)
  · rw [hReplaced]
    exact ConstraintId.nodup_block fresh _

/-- **A removal fails exactly when it names an entity that does not exist, and then nothing has
changed; otherwise it does what `Removes` says.** -/
theorem removeEntities_fails_or_removes (ids : List EntityId)
    (hNames : (s.constraints.items.map (·.id)).Nodup)
    (hFresh : ∀ c ∈ s.constraints.items, ∀ n, c.id ≠ fresh.plus n) :
    ((∃ e, (s.removeEntities fresh ids).2.2 = .error e) ↔ ∃ id ∈ ids, id ∉ s.geometry.ids) ∧
      (∀ e, (s.removeEntities fresh ids).2.2 = .error e → (s.removeEntities fresh ids).1 = s) ∧
      ∀ report, (s.removeEntities fresh ids).2.2 = .ok report →
        Removes ids s (s.removeEntities fresh ids).1 report := by
  by_cases hMissing : ∃ id ∈ ids, id ∉ s.geometry.ids
  · obtain ⟨id, -, -, hRemove⟩ := removeEntities_of_missing fresh hMissing
    rw [hRemove]
    exact ⟨iff_of_true ⟨_, rfl⟩ hMissing, fun _ _ => rfl, fun _ hOk => absurd hOk (by simp)⟩
  · have hAll : ∀ id ∈ ids, id ∈ s.geometry.ids := by simpa using hMissing
    obtain ⟨s', report, hRemove, -, hRemoves⟩ := removeEntities_of_forall_mem hNames hFresh hAll
    rw [hRemove]
    refine ⟨iff_of_false (by simp) hMissing, fun _ hError => absurd hError (by simp), ?_⟩
    intro report' hOk
    exact Except.ok.inj hOk ▸ hRemoves

/-- Three segments with a joint of three ends, two parallel pairs and a level segment. -/
def fan : Sketch Int :=
  ⟨⟨[⟨⟨0⟩, ⟨0, 0⟩, ⟨10, 0⟩⟩, ⟨⟨1⟩, ⟨10, 0⟩, ⟨20, 5⟩⟩, ⟨⟨2⟩, ⟨10, 0⟩, ⟨20, 9⟩⟩], []⟩,
    ⟨[⟨⟨0⟩, .coincidence, [.point (.stop ⟨0⟩), .point (.start ⟨1⟩), .point (.start ⟨2⟩)]⟩,
      ⟨⟨1⟩, .parallelism, [.segment ⟨0⟩, .segment ⟨1⟩]⟩,
      ⟨⟨2⟩, .length, [.segment ⟨1⟩, .value 11]⟩,
      ⟨⟨3⟩, .horizontality, [.segment ⟨0⟩]⟩], .zero⟩⟩

theorem removeEntities_fan :
    ((fan.removeEntities ⟨4⟩ [⟨1⟩, ⟨1⟩]).2.2 =
        .ok ⟨[⟨1⟩, ⟨2⟩], [(⟨0⟩, ⟨4⟩)]⟩) ∧
      Removes [⟨1⟩, ⟨1⟩] fan (fan.removeEntities ⟨4⟩ [⟨1⟩, ⟨1⟩]).1
        ⟨[⟨1⟩, ⟨2⟩], [(⟨0⟩, ⟨4⟩)]⟩ := by
  have hReport : (fan.removeEntities ⟨4⟩ [⟨1⟩, ⟨1⟩]).2.2 =
      .ok ⟨[⟨1⟩, ⟨2⟩], [(⟨0⟩, ⟨4⟩)]⟩ := by rfl
  refine ⟨hReport, (removeEntities_fails_or_removes [⟨1⟩, ⟨1⟩] (by decide) ?_).2.2 _ hReport⟩
  have hOld : ∀ c ∈ fan.constraints.items, c.id.number < 4 := by decide
  intro c hc n hEq
  have hLt := hOld c hc
  rw [hEq] at hLt
  exact absurd hLt (by simp [ConstraintId.plus])

end Sketch

end PlaneSketch
