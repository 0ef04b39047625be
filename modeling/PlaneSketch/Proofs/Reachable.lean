import PlaneSketch.Proofs.Removal
import PlaneSketch.Proofs.Solve
import PlaneSketch.Proofs.Splitting

/-!
# Sessions that editing and solving reach

Every operation of a session keeps its sketch `Sound`: the constraints have distinct names, each of
them well-formed and over entities that exist.  A build and the bindings can fail on nothing else,
so a session never comes to a point from where it cannot be solved.

* `Sound.addConstraint`, `Sound.removeEntities`, `Sound.of_items_eq`: what editing and solving keep.
* `Sound.exists_run`: **a sound sketch can be solved.**
* `Ready.exec`, `ready_run`: every session that commands reach is `Ready`.
* `Ready.completes`, `Ready.drag_cases`: which solves and drags of such a session are completed.
* `Ready.drag_still`: a drag moves no fixed point.
-/

namespace PlaneSketch

/-! ## Sound sketches -/

namespace Sketch

variable {α : Type} {s s' : Sketch α} {fresh : ConstraintId}

/-- The constraints have distinct names below `fresh`, the shape that the catalog admits, and
operands that exist. -/
structure Sound (s : Sketch α) (fresh : ConstraintId) : Prop where
  names : (s.constraints.items.map (·.id)).Nodup
  used : ∀ c ∈ s.constraints.items, c.id.number < fresh.number
  wellFormed : ∀ c ∈ s.constraints.items, c.WellFormed
  present : ∀ c ∈ s.constraints.items, ∀ o ∈ c.operands, s.geometry.Has o

namespace Sound

theorem empty (fresh : ConstraintId) : (Sketch.empty : Sketch α).Sound fresh where
  names := List.nodup_nil
  used := fun _ hc => absurd hc List.not_mem_nil
  wellFormed := fun _ hc => absurd hc List.not_mem_nil
  present := fun _ hc => absurd hc List.not_mem_nil

/-- Entities may be added and points moved. -/
theorem of_items_eq (h : s.Sound fresh) (hItems : s'.constraints.items = s.constraints.items)
    (hHas : ∀ o, s.geometry.Has o → s'.geometry.Has o) : s'.Sound fresh where
  names := hItems ▸ h.names
  used := hItems ▸ h.used
  wellFormed := hItems ▸ h.wellFormed
  present := fun c hc o ho => hHas o (h.present c (hItems ▸ hc) o ho)

theorem of_sameIds (h : s.Sound fresh) (hItems : s'.constraints.items = s.constraints.items)
    (hIds : s'.geometry.SameIds s.geometry) : s'.Sound fresh :=
  h.of_items_eq hItems fun o ho => (hIds.has_iff o).mpr ho

theorem erase (h : s.Sound fresh) (id : ConstraintId) :
    (⟨s.geometry, s.constraints.erase id⟩ : Sketch α).Sound fresh := by
  have hSublist : (s.constraints.erase id).items.Sublist s.constraints.items :=
    List.eraseP_sublist
  exact ⟨h.names.sublist (hSublist.map _), fun c hc => h.used c (hSublist.mem hc),
    fun c hc => h.wellFormed c (hSublist.mem hc), fun c hc => h.present c (hSublist.mem hc)⟩

theorem fresh_not_used (h : s.Sound fresh) :
    ∀ c ∈ s.constraints.items, ∀ n, c.id ≠ fresh.plus n := by
  intro c hc n hEq
  have hLt := h.used c hc
  rw [hEq, ConstraintId.plus] at hLt
  exact absurd hLt (by simp)

/-- **A request that is granted keeps a sketch sound.** -/
theorem addConstraint (h : s.Sound fresh) {kind : ConstraintKind} {operands : List (Operand α)}
    {ids : List ConstraintId} (hAdd : s.addConstraint fresh kind operands = .ok (s', ids)) :
    s'.Sound (fresh.plus ids.length) := by
  obtain ⟨hHas, cs, hStored, rfl⟩ := addConstraint_eq_ok_iff.mp hAdd
  obtain ⟨made, rfl, -, hNames, hMade⟩ := Constraints.add_eq_ok hStored
  have hNew : ∀ c ∈ made, c.id ∈ fresh.block ids.length := fun c hc =>
    hNames ▸ List.mem_map_of_mem hc
  refine ⟨?_, fun c hc => ?_, fun c hc => ?_, fun c hc o ho => ?_⟩
  · rw [List.map_append, hNames]
    refine List.Nodup.append h.names (fresh.nodup_block _) fun id hOld hFresh => ?_
    obtain ⟨c, hc, rfl⟩ := List.mem_map.mp hOld
    obtain ⟨n, -, hEq⟩ := ConstraintId.exists_of_mem_block hFresh
    exact h.fresh_not_used c hc n hEq
  · rcases List.mem_append.mp hc with hc | hc
    · exact Nat.lt_of_lt_of_le (h.used c hc) (Nat.le_add_right _ _)
    · exact ConstraintId.lt_of_mem_block (hNew c hc)
  · rcases List.mem_append.mp hc with hc | hc
    · exact h.wellFormed c hc
    · exact (hMade c hc).1
  · rcases List.mem_append.mp hc with hc | hc
    · exact h.present c hc o ho
    · exact hHas o ((hMade c hc).2 o ho)

/-- An operand that exists and does not live on a removed entity still exists. -/
theorem has_filter {g : Geometry α} {ids : List EntityId} {o : Operand α} (h : g.Has o)
    (hOwner : o.ownedBy ids = false) :
    (⟨g.segments.filter (fun e => e.id ∉ ids), g.arcs.filter (fun e => e.id ∉ ids)⟩ :
      Geometry α).Has o := by
  have hMem : ∀ {σ : Type} {id : EntityId} {figures : List (Named σ)}, id ∈ figures.map (·.id) →
      id ∉ ids → id ∈ (figures.filter fun e => e.id ∉ ids).map (·.id) := by
    intro σ id figures hId hKept
    obtain ⟨e, he, rfl⟩ := List.mem_map.mp hId
    exact List.mem_map_of_mem (List.mem_filter.mpr ⟨he, by simpa using hKept⟩)
  have hKept : ∀ id, o.owner? = some id → id ∉ ids := by
    intro id hId hMem
    have hOwned := Operand.ownedBy_iff.mpr ⟨id, hMem, hId⟩
    simp [hOwner] at hOwned
  cases h with
  | point hId =>
    rcases List.mem_append.mp hId with hId | hId
    · exact .point (List.mem_append_left _ (hMem hId (hKept _ rfl)))
    · exact .point (List.mem_append_right _ (hMem hId (hKept _ rfl)))
  | segment hId => exact .segment (hMem hId (hKept _ rfl))
  | arc hId => exact .arc (hMem hId (hKept _ rfl))
  | value v => exact .value v

/-- **A removal keeps a sketch sound, whether it is refused or not.** -/
theorem removeEntities (h : s.Sound fresh) (ids : List EntityId) :
    (s.removeEntities fresh ids).1.Sound (s.removeEntities fresh ids).2.1 := by
  by_cases hMissing : ∃ id ∈ ids, id ∉ s.geometry.ids
  · obtain ⟨id, -, -, hRemove⟩ := removeEntities_of_missing fresh hMissing
    rw [hRemove]
    exact h
  · obtain ⟨s', report, hRemove, hNames, hRemoves⟩ := removeEntities_of_forall_mem h.names
      h.fresh_not_used (by simpa using hMissing)
    rw [hRemove]
    have hOrigin := hRemoves.constraints.exists_origin
    refine ⟨hRemoves.constraints.nodup h.names hRemoves.distinct hRemoves.isNew,
      fun d hd => ?_, fun d hd => ?_, fun d hd o ho => ?_⟩
    · obtain ⟨c, hc, -, -, -, hName⟩ := hOrigin d hd
      rcases hName with hSame | hPair
      · rw [hSame]
        exact Nat.lt_of_lt_of_le (h.used c hc) (Nat.le_add_right _ _)
      · have hNew : d.id ∈ report.replaced.map (·.2) := List.mem_map_of_mem (f := Prod.snd) hPair
        rw [hNames] at hNew
        exact ConstraintId.lt_of_mem_block hNew
    · obtain ⟨c, hc, hSurvives, hKind, hOperands, -⟩ := hOrigin d hd
      refine (h.wellFormed c hc).of_sublist hKind ?_ ?_
      · rw [hOperands]
        exact List.filter_sublist
      · rw [hKind, Constraint.types, hOperands]
        exact hSurvives
    · obtain ⟨c, hc, -, -, hOperands, -⟩ := hOrigin d hd
      rw [hOperands] at ho
      obtain ⟨hMem, hOwner⟩ := List.mem_filter.mp ho
      rw [hRemoves.geometry]
      exact has_filter (h.present c hc o hMem) (by simpa using hOwner)

/-! ### What can be done with a sound sketch -/

theorem located (h : s.Sound fresh) : ∀ c ∈ s.constraints.items, c.Located s.geometry := by
  intro c hc _ p hp
  obtain ⟨o, ho, hPoint⟩ := List.mem_flatMap.mp hp
  exact (h.present c hc o ho).isSome_pointIndex? hPoint

theorem exists_build [Zero α] (h : s.Sound fresh) {active : Option PointRef}
    (hActive : ∀ p, active = some p → (s.geometry.point? p).isSome) :
    ∃ l, Linkage.build s.geometry s.constraints.items active = .ok l := by
  refine ⟨_, (Linkage.build_eq_ok_iff _ _ _).mpr ⟨fun p hp => ?_, h.located, rfl⟩⟩
  rw [s.geometry.isSome_pointIndex?, ← s.geometry.isSome_point?]
  exact hActive p hp

theorem exists_bind (h : s.Sound fresh) : ∀ c ∈ s.constraints.items,
    ∃ b, Residual.bind s.geometry c.kind c.operands = .ok b :=
  fun c hc => (h.wellFormed c hc).exists_bind (h.present c hc)

/-- **A sound sketch can be solved.** -/
theorem exists_run [Scalar α] (h : s.Sound fresh) (k : Kernel α) (config : Config α)
    {active : Option PointRef} (hActive : ∀ p, active = some p → (s.geometry.point? p).isSome) :
    ∃ r, Solve.run k config s active = .ok r := by
  obtain ⟨l, hBuild⟩ := h.exists_build hActive
  obtain ⟨b, hBind⟩ := Solve.exists_bindAll_eq_ok s.geometry l s.constraints.items h.exists_bind
  exact Solve.exists_run_eq_ok hBuild hBind

theorem run [Scalar α] (h : s.Sound fresh) {k : Kernel α} {config : Config α}
    {active : Option PointRef} {r : Solved α} (hRun : Solve.run k config s active = .ok r) :
    r.sketch.Sound fresh := by
  obtain ⟨hIds, hItems⟩ := Solve.sameIds_of_run hRun
  exact h.of_sameIds hItems hIds

/-- A sound sketch fixes points by naming them, not by naming what they belong to. -/
theorem fixes_of_mem (h : s.Sound fresh) {p : PointRef}
    (hp : p ∈ Linkage.fixedPoints s.constraints.items) : s.constraints.fixes p = true := by
  obtain ⟨c, hc, hKind, hPoint⟩ := Linkage.mem_fixedPoints_iff.mp hp
  obtain ⟨o, ho, hPoint⟩ := List.mem_flatMap.mp hPoint
  have hAccepted := (h.wellFormed c hc).accepted
  rw [hKind] at hAccepted
  have hType := ConstraintKind.eq_point_of_accepts_fixed hAccepted o.type (List.mem_map_of_mem ho)
  refine Constraints.fixes_iff.mpr ⟨c, hc, hKind, ?_⟩
  cases o with
  | point q =>
    obtain rfl := List.mem_singleton.mp hPoint
    exact ho
  | segment id => exact absurd hType (by simp [Operand.type])
  | arc id => exact absurd hType (by simp [Operand.type])
  | value v => exact absurd hType (by simp [Operand.type])

end Sound

end Sketch

/-! ## Sessions -/

/-- What a user of a session does. -/
inductive Command (α : Type) where
  | addSegment (segment : Segment α)
  | addArc (arc : Arc α)
  | addConstraint (kind : ConstraintKind) (operands : List (Operand α))
  | removeConstraint (id : ConstraintId)
  | removeEntities (ids : List EntityId)
  | clear
  | setPoint (p : PointRef) (v : Vec2 α)
  | configure (config : Config α)
  | solve (k : Kernel α) (active : Option PointRef)
  | drag (k : Kernel α) (p : PointRef) (target : Vec2 α)

namespace Command

variable {α ω : Type} [Scalar α]

/-- The session after a command; a command that is refused leaves it as it is. -/
def exec (t : Session α ω) : Command α → Session α ω
  | addSegment segment => (t.addSegment segment).1
  | addArc arc => (t.addArc arc).1
  | addConstraint kind operands =>
    match t.addConstraint kind operands with
    | .ok (t', _) => t'
    | .error _ => t
  | removeConstraint id =>
    match t.removeConstraint id with
    | .ok (t', _) => t'
    | .error _ => t
  | removeEntities ids => (t.removeEntities ids).1
  | clear => t.clear
  | setPoint p v => (t.setPoint? p v).getD t
  | configure config => t.setConfig config
  | solve k active => (t.solve k active).1
  | drag k p target => (t.drag k p target).1

end Command

namespace Session

variable {α ω : Type} {t t' : Session α ω}

/-- Nothing is going on and the sketch is sound. -/
structure Ready (t : Session α ω) : Prop where
  solving : t.solving = false
  borrowed : t.borrowed = false
  callback : t.callback = none
  sound : t.sketch.Sound t.nextConstraint

namespace Ready

theorem new (config : Config α) : (Session.new config : Session α ω).Ready :=
  ⟨rfl, rfl, rfl, .empty _⟩

theorem log (h : t.Ready) (e : Event α) : (t.log e).Ready :=
  ⟨h.solving, h.borrowed, h.callback, h.sound⟩

theorem addSegment (h : t.Ready) (segment : Segment α) : (t.addSegment segment).1.Ready :=
  ⟨h.solving, h.borrowed, h.callback,
    h.sound.of_items_eq rfl fun _ ho => ho.addSegment t.nextEntity segment⟩

theorem addArc (h : t.Ready) (arc : Arc α) : (t.addArc arc).1.Ready :=
  ⟨h.solving, h.borrowed, h.callback,
    h.sound.of_items_eq rfl fun _ ho => ho.addArc t.nextEntity arc⟩

theorem addConstraint (h : t.Ready) {kind : ConstraintKind} {operands : List (Operand α)}
    {ids : List ConstraintId} (hAdd : t.addConstraint kind operands = .ok (t', ids)) :
    t'.Ready := by
  obtain ⟨⟨s', ids'⟩, hSketch, hResult⟩ := map_eq_ok_iff.mp hAdd
  obtain ⟨rfl, rfl⟩ := Prod.mk.inj hResult
  exact ⟨h.solving, h.borrowed, h.callback, h.sound.addConstraint hSketch⟩

theorem removeConstraint (h : t.Ready) {id : ConstraintId} {c : Constraint α}
    (hRemove : t.removeConstraint id = .ok (t', c)) : t'.Ready := by
  obtain ⟨⟨cs, c'⟩, hStore, hResult⟩ := map_eq_ok_iff.mp hRemove
  obtain ⟨rfl, rfl⟩ := Prod.mk.inj hResult
  rw [Constraints.remove] at hStore
  cases hGet : t.sketch.constraints.get? id with
  | none => simp [hGet] at hStore
  | some d =>
    rw [hGet] at hStore
    obtain ⟨rfl, rfl⟩ := Prod.mk.inj (Except.ok.inj hStore)
    exact ⟨h.solving, h.borrowed, h.callback, h.sound.erase id⟩

theorem removeEntities (h : t.Ready) (ids : List EntityId) : (t.removeEntities ids).1.Ready := by
  have hSound := h.sound.removeEntities ids
  rw [Session.removeEntities]
  rcases hRemove : t.sketch.removeEntities t.nextConstraint ids with ⟨s', next, result⟩
  rw [hRemove] at hSound
  cases result with
  | ok report => exact ⟨h.solving, h.borrowed, h.callback, hSound⟩
  | error e => exact ⟨h.solving, h.borrowed, h.callback, hSound⟩

theorem setPoint? (h : t.Ready) {p : PointRef} {v : Vec2 α} (hSet : t.setPoint? p v = some t') :
    t'.Ready := by
  obtain ⟨g, hg, rfl⟩ := Option.map_eq_some_iff.mp hSet
  exact ⟨h.solving, h.borrowed, h.callback,
    h.sound.of_sameIds rfl (Geometry.sameIds_of_setPoint? hg)⟩

section Solving

variable [Scalar α] {k : Kernel α}

theorem settle (h : t.Ready) {active : Option PointRef} {r : Solved α}
    (hRun : Solve.run k t.config t.sketch active = .ok r) :
    (Session.settle (Session.notify k) t r).Ready := by
  rw [settle_of_callback_none h.callback]
  exact ⟨rfl, h.borrowed, h.callback, h.sound.run hRun⟩

/-- A session that is ready stays so after a solve, whatever point is asked for. -/
theorem solve (h : t.Ready) (k : Kernel α) (active : Option PointRef) :
    (t.solve k active).1.Ready := by
  rw [Session.solve]
  rcases solveNotifying_cases k (Session.notify k) t active with ⟨e, hSkipped⟩ |
    ⟨-, -, r, hRun, hSettled⟩
  · rw [hSkipped]
    exact h.log e
  · rw [hSettled]
    exact h.settle hRun

/-- **A solve of a ready session around an existing point, or around none, is completed.** -/
theorem completes (h : t.Ready) (k : Kernel α) {active : Option PointRef}
    (hActive : ∀ p, active = some p → (t.sketch.geometry.point? p).isSome) :
    (t.solve k active).2 = true :=
  solveNotifying_completes_iff.mpr ⟨h.solving, h.borrowed, h.sound.exists_run k t.config hActive⟩

/-- **A drag of a ready session is completed, unless the point is fixed or missing**, and then
only the log changes. -/
theorem drag_cases (h : t.Ready) (k : Kernel α) (p : PointRef) (target : Vec2 α) :
    (t.sketch.constraints.fixes p = true ∨ t.sketch.geometry.point? p = none) ∧
        (∃ e, t.drag k p target = (t.log e, false)) ∨
      t.sketch.constraints.fixes p = false ∧ ∃ moved, t.setPoint? p target = some moved ∧
        t.drag k p target = moved.solve k (some p) ∧ (moved.solve k (some p)).2 = true := by
  rcases Session.drag_cases k h.solving h.borrowed p target with ⟨hWhy, e, hRefused⟩ |
    ⟨hFree, moved, hMoved, hSolve⟩
  · exact Or.inl ⟨hWhy, e, hRefused _⟩
  · obtain ⟨g, hg, rfl⟩ := Option.map_eq_some_iff.mp hMoved
    have hActive : ∀ q, some p = some q →
        ((t.setGeometry g).sketch.geometry.point? q).isSome := by
      intro q hq
      obtain rfl := Option.some.inj hq
      rw [Geometry.isSome_point?]
      refine (Geometry.sameIds_of_setPoint? hg).ids_eq ▸ ?_
      exact (t.sketch.geometry.isSome_setPoint? p target).mp (by simp [hg])
    have hCompletes := (h.setPoint? hMoved).completes k hActive
    refine Or.inr ⟨hFree, t.setGeometry g, hMoved, ?_, hCompletes⟩
    rcases hSolve with ⟨r, hRun, hDrag⟩ | ⟨e, hRun, -⟩
    · have hMovedSolve : (t.setGeometry g).solve k (some p) = (Session.settle _ _ r, true) :=
        solveNotifying_of_run (t := t.setGeometry g) h.solving h.borrowed hRun
      rw [hMovedSolve]
      exact hDrag _
    · obtain ⟨-, -, r, hOk⟩ := solveNotifying_completes_iff.mp hCompletes
      exact absurd (hRun.symm.trans hOk) (by simp)

theorem drag (h : t.Ready) (k : Kernel α) (p : PointRef) (target : Vec2 α) :
    (t.drag k p target).1.Ready := by
  rcases h.drag_cases k p target with ⟨-, e, hRefused⟩ | ⟨-, moved, hMoved, hDrag, -⟩
  · rw [hRefused]
    exact h.log e
  · rw [hDrag]
    exact (h.setPoint? hMoved).solve k (some p)

/-- **A drag moves no fixed point**, unless another fixed point of its group was elsewhere. -/
theorem drag_still (h : t.Ready) {k : Kernel α} {p : PointRef} {target : Vec2 α}
    (hDrag : (t.drag k p target).2 = true) {q : PointRef}
    (hq : q ∈ Linkage.fixedPoints t.sketch.constraints.items) {axis : Axis}
    (hSame : ∀ r ∈ Linkage.fixedPoints t.sketch.constraints.items,
      Linkage.SameGroup t.sketch.constraints.items axis q r →
      t.sketch.geometry.coordinate? axis r = t.sketch.geometry.coordinate? axis q) :
    (t.drag k p target).1.sketch.geometry.coordinate? axis q =
      t.sketch.geometry.coordinate? axis q := by
  rcases h.drag_cases k p target with ⟨-, e, hRefused⟩ | ⟨hFree, moved, hMoved, hEq, hCompletes⟩
  · rw [hRefused] at hDrag
    exact absurd hDrag (by simp)
  · obtain ⟨g, hg, rfl⟩ := Option.map_eq_some_iff.mp hMoved
    -- the dragged point is not fixed, so the fixed ones are still where they were
    have hApart : ∀ r ∈ Linkage.fixedPoints t.sketch.constraints.items,
        g.coordinate? axis r = t.sketch.geometry.coordinate? axis r := by
      intro r hr
      have hNe : r ≠ p := by
        rintro rfl
        rw [h.sound.fixes_of_mem hr] at hFree
        exact absurd hFree (by simp)
      rw [Geometry.coordinate?, Geometry.coordinate?, Geometry.point?_of_setPoint?_of_ne hg hNe]
    obtain ⟨r, hRun, hSketch⟩ := exists_run_of_completed hCompletes
    rw [hEq, hSketch h.callback, ← hApart q hq]
    refine (Solve.respects_of_run hRun).still q hq axis fun q' hq' hGroup => ?_
    exact (hApart q' hq').trans ((hSame q' hq' hGroup).trans (hApart q hq).symm)

end Solving

end Ready

/-! ### Sequences of commands -/

variable [Scalar α]

/-- **Every command keeps a session ready.** -/
theorem Ready.exec (h : t.Ready) (command : Command α) : (command.exec t).Ready := by
  cases command with
  | addSegment segment => exact h.addSegment segment
  | addArc arc => exact h.addArc arc
  | addConstraint kind operands =>
    rw [Command.exec]
    split
    · next hAdd => exact h.addConstraint hAdd
    · exact h
  | removeConstraint id =>
    rw [Command.exec]
    split
    · next hRemove => exact h.removeConstraint hRemove
    · exact h
  | removeEntities ids => exact h.removeEntities ids
  | clear => exact ⟨h.solving, h.borrowed, h.callback, .empty _⟩
  | setPoint p v =>
    rw [Command.exec]
    cases hSet : t.setPoint? p v with
    | none => exact h
    | some moved => exact h.setPoint? hSet
  | configure config => exact ⟨h.solving, h.borrowed, h.callback, h.sound⟩
  | solve k active => exact h.solve k active
  | drag k p target => exact h.drag k p target

/-- The session that commands reach from an empty sketch. -/
def run (config : Config α) (commands : List (Command α)) : Session α ω :=
  commands.foldl Command.exec (Session.new config)

theorem Ready.foldl_exec (h : t.Ready) (commands : List (Command α)) :
    (commands.foldl Command.exec t).Ready := by
  induction commands generalizing t with
  | nil => exact h
  | cons command commands ih => exact ih (h.exec command)

theorem ready_run (config : Config α) (commands : List (Command α)) :
    (run config commands : Session α ω).Ready :=
  (Ready.new config).foldl_exec commands

/-- All that a solver relies on, and what a user may rely on therefore. -/
structure Solvable (t : Session α ω) : Prop where
  contains : ∀ c ∈ t.sketch.constraints.items, ∀ o ∈ c.operands,
    t.sketch.geometry.contains o = true
  accepts : ∀ c ∈ t.sketch.constraints.items, c.kind.accepts c.types = true
  bind : ∀ c ∈ t.sketch.constraints.items,
    ∃ b, Residual.bind t.sketch.geometry c.kind c.operands = .ok b
  build : ∀ active, (∀ p, active = some p → (t.sketch.geometry.point? p).isSome) →
    ∃ l, Linkage.build t.sketch.geometry t.sketch.constraints.items active = .ok l
  /-- A solve around an existing point, or around none, runs to completion. -/
  solve : ∀ k active, (∀ p, active = some p → (t.sketch.geometry.point? p).isSome) →
    (t.solve k active).2 = true
  /-- A drag is refused for a point that is missing or fixed, and for no other one. -/
  drag : ∀ k p target, (t.drag k p target).2 = false → t.sketch.geometry.point? p = none ∨
    ∃ c ∈ t.sketch.constraints.items, c.kind = .fixed ∧ .point p ∈ c.operands

/-- **Every session that commands reach can be solved.** -/
theorem solvable_run (config : Config α) (commands : List (Command α)) :
    (run config commands : Session α ω).Solvable := by
  have hReady := ready_run (ω := ω) config commands
  refine ⟨fun c hc o ho => ?_, fun c hc => (hReady.sound.wellFormed c hc).accepted,
    hReady.sound.exists_bind, fun active hActive => hReady.sound.exists_build hActive,
    fun k active hActive => hReady.completes k hActive, fun k p target hRefused => ?_⟩
  · exact (Geometry.contains_iff _ o).mpr (hReady.sound.present c hc o ho)
  · rcases hReady.drag_cases k p target with ⟨hFixed | hMissing, -⟩ |
      ⟨-, moved, -, hDrag, hCompletes⟩
    · exact Or.inr (Constraints.fixes_iff.mp hFixed)
    · exact Or.inl hMissing
    · rw [hDrag, hCompletes] at hRefused
      exact absurd hRefused (by simp)

end Session

end PlaneSketch
