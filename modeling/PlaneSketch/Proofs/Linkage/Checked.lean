import PlaneSketch.Proofs.Linkage.Variables

/-!
# Building and scattering with every index checked

A look-up in a list gives nothing when its index is out of range, and what reads it goes on with a
default.  The definitions here are those of the linkage with a check in front of every look-up; they
stop at the first index that is out of range.  None ever is.

* `Checked.within`, `Checked.refusing`: the check, and what stops for no other reason than an error
  of the sketch.
* `Checked.build_eq`: **a build looks up no index out of range, whether it succeeds or not.**
* `Checked.scatter_eq`: nor does writing back a vector of the right length.
-/

namespace PlaneSketch

/-- Why a checked computation stops: at an index out of range, or because the sketch is refused. -/
inductive Stop where
  | outOfRange
  | refused (e : SketchError)

namespace Checked

/-- All indices are below a bound. -/
def within (bound : Nat) (indices : List Nat) : Except Stop Unit :=
  if ∀ i ∈ indices, i < bound then .ok () else .error .outOfRange

/-- A computation that stops for no other reason than an error of the sketch. -/
def refusing {β : Type} (x : Except SketchError β) : Except Stop β := x.mapError .refused

theorem within_of_forall {bound : Nat} {indices : List Nat} (h : ∀ i ∈ indices, i < bound) :
    within bound indices = .ok () := if_pos h

/-- One step after the other stops for no other reason than an error if each of them does. -/
theorem bind_eq_refusing {β γ : Type} {x : Except SketchError β} {x' : Except Stop β}
    {f : β → Except SketchError γ} {f' : β → Except Stop γ} (hx : x' = refusing x)
    (hf : ∀ b, x = .ok b → f' b = refusing (f b)) : (x' >>= f') = refusing (x >>= f) := by
  rw [hx]
  cases hEq : x with
  | error e => rfl
  | ok b => exact hf b hEq

theorem bind_eq_refusing_map {β γ : Type} {x : Except SketchError β} {f : β → γ}
    {f' : β → Except Stop γ} (hf : ∀ b, x = .ok b → f' b = .ok (f b)) :
    (refusing x >>= f') = refusing (x.map f) := by
  cases hEq : x with
  | error e => rfl
  | ok b => exact hf b hEq

/-- A loop stops for no other reason than an error if none of its steps does where an invariant
holds. -/
theorem foldlM_eq_refusing {β γ : Type} (Inv : β → Prop) {f : β → γ → Except SketchError β}
    {f' : β → γ → Except Stop β} (l : List γ)
    (hStep : ∀ b, Inv b → ∀ x ∈ l, f' b x = refusing (f b x))
    (hKeep : ∀ b, Inv b → ∀ x ∈ l, ∀ b', f b x = .ok b' → Inv b') :
    ∀ b, Inv b → l.foldlM f' b = refusing (l.foldlM f b) ∧
      ∀ b', l.foldlM f b = .ok b' → Inv b' := by
  induction l with
  | nil =>
    intro b hb
    exact ⟨rfl, fun b' hEq => Except.ok.inj hEq ▸ hb⟩
  | cons x l ih =>
    intro b hb
    rw [List.foldlM_cons, List.foldlM_cons, hStep b hb x List.mem_cons_self]
    cases hNext : f b x with
    | error e => exact ⟨rfl, fun b' hEq => absurd hEq (by simp [bind, Except.bind])⟩
    | ok b' =>
      exact ih (fun b hb x hx => hStep b hb x (List.mem_cons_of_mem _ hx))
        (fun b hb x hx => hKeep b hb x (List.mem_cons_of_mem _ hx)) b'
        (hKeep b hb x List.mem_cons_self b' hNext)

/-- A loop does not stop if none of its steps does where an invariant holds. -/
theorem foldlM_eq_ok {β γ : Type} (Inv : β → Prop) {f : β → γ → β} {f' : β → γ → Except Stop β}
    (l : List γ) (hStep : ∀ b, Inv b → ∀ x ∈ l, f' b x = .ok (f b x))
    (hKeep : ∀ b, Inv b → ∀ x ∈ l, Inv (f b x)) :
    ∀ b, Inv b → l.foldlM f' b = .ok (l.foldl f b) := by
  induction l with
  | nil => intro b _; rfl
  | cons x l ih =>
    intro b hb
    rw [List.foldlM_cons, hStep b hb x List.mem_cons_self]
    exact ih (fun b hb x hx => hStep b hb x (List.mem_cons_of_mem _ hx))
      (fun b hb x hx => hKeep b hb x (List.mem_cons_of_mem _ hx)) _
      (hKeep b hb x List.mem_cons_self)

theorem forM_eq_ok {β : Type} {f : β → Except Stop Unit} (l : List β)
    (h : ∀ x ∈ l, f x = .ok ()) : l.forM f = .ok () := by
  induction l with
  | nil => rfl
  | cons x l ih =>
    obtain ⟨hx, hRest⟩ := List.forall_mem_cons.mp h
    show (f x >>= fun _ => l.forM f) = .ok ()
    rw [hx]
    exact ih hRest

/-! ## Slots -/

section Slots

variable {α : Type}

def attach (target : Nat) (slots : Slots α) (s : Nat) : Except Stop (Slots α) := do
  within slots.length [s]
  return Slots.attach target slots s

def unify [Zero α] (points : List Nat) (active : Option Nat) (slots : Slots α) (axis : Axis) :
    Except Stop (Slots α) := do
  let group := points.map axis.slot
  within slots.length group
  match slots.existingTarget? group with
  | some target => group.foldlM (attach target) slots
  | none =>
    let seed := (Slots.seedPoint? points active).bind fun p => slots.value? (axis.slot p)
    group.foldlM (attach slots.length) (slots ++ [⟨.base, seed.getD 0⟩])

def pin (slots : Slots α) (s : Nat) : Except Stop (Slots α) := do
  within slots.length [s, slots.representative s]
  return slots.pin s

def lead (slots : Slots α) (s : Nat) : Except Stop (Slots α) := do
  within slots.length [s, slots.representative s]
  return slots.lead s

/-- The slots that some slots link to. -/
def targets (slots : Slots α) : List Nat :=
  slots.filterMap fun slot =>
    match slot.link with
    | .to target => some target
    | _ => none

def markOrphans (pointSlots : Nat) (slots : Slots α) : Except Stop (Slots α) := do
  within (slots.length + 1) [pointSlots]
  within slots.length (targets (slots.take pointSlots))
  return slots.markOrphans pointSlots

variable {slots : Slots α} {n : Nat}

theorem foldlM_attach_eq (target : Nat) {group : List Nat} (hGroup : ∀ s ∈ group, s < n)
    (hLen : n ≤ slots.length) :
    group.foldlM (attach target) slots = .ok (group.foldl (Slots.attach target) slots) := by
  refine foldlM_eq_ok (fun slots : Slots α => n ≤ slots.length) group ?_ ?_ slots hLen
  · intro slots hLen s hs
    have hIn : ∀ i ∈ [s], i < slots.length := by
      simpa using Nat.lt_of_lt_of_le (hGroup s hs) hLen
    rw [attach, within_of_forall hIn]
    rfl
  · intro slots hLen s _
    rwa [Slots.length_attach]

theorem unify_eq [Zero α] (h : slots.Linked n) {points : List Nat} {axis : Axis}
    (hPoints : ∀ p ∈ points, axis.slot p < n) (active : Option Nat) :
    unify points active slots axis = .ok (slots.unify points active axis) := by
  have hLen := h.length_le
  have hGroup : ∀ s ∈ points.map axis.slot, s < n := List.forall_mem_map.mpr hPoints
  have hIn : ∀ s ∈ points.map axis.slot, s < slots.length :=
    fun s hs => Nat.lt_of_lt_of_le (hGroup s hs) hLen
  rw [unify, Slots.unify]
  simp only [within_of_forall hIn]
  cases slots.existingTarget? (points.map axis.slot) with
  | some target => exact foldlM_attach_eq target hGroup hLen
  | none => exact foldlM_attach_eq slots.length hGroup (by simp only [List.length_append]; omega)

/-- What pinning and leading look up. -/
theorem lt_of_mem_pair (h : slots.Linked n) {s : Nat} (hs : s < n) :
    ∀ i ∈ [s, slots.representative s], i < slots.length := by
  intro i hi
  rcases List.mem_cons.mp hi with rfl | hi
  · exact Nat.lt_of_lt_of_le hs h.length_le
  · rw [List.mem_singleton.mp hi]
    exact h.representative_lt_length hs

theorem foldlM_pin_eq (h : slots.Linked n) {pins : List Nat} (hPins : ∀ s ∈ pins, s < n) :
    pins.foldlM pin slots = .ok (pins.foldl Slots.pin slots) := by
  refine foldlM_eq_ok (Slots.Linked n) pins ?_ ?_ slots h
  · intro slots h s hs
    rw [pin, within_of_forall (lt_of_mem_pair h (hPins s hs))]
    rfl
  · intro slots h s hs
    exact h.pin (hPins s hs)

theorem foldlM_lead_eq (h : slots.Linked n) {us : List Nat} (hUs : ∀ s ∈ us, s < n) :
    us.foldlM lead slots = .ok (us.foldl Slots.lead slots) := by
  refine foldlM_eq_ok (Slots.Linked n) us ?_ ?_ slots h
  · intro slots h s hs
    rw [lead, within_of_forall (lt_of_mem_pair h (hUs s hs))]
    rfl
  · intro slots h s _
    exact h.lead s

theorem markOrphans_eq (h : slots.Linked n) :
    markOrphans n slots = .ok (slots.markOrphans n) := by
  have hSlice : ∀ i ∈ [n], i < slots.length + 1 := by
    simpa using Nat.lt_succ_of_le h.length_le
  have hTargets : ∀ t ∈ targets (slots.take n), t < slots.length := by
    intro t ht
    obtain ⟨slot, hSlot, hLink⟩ := List.mem_filterMap.mp ht
    obtain ⟨s, hs, rfl⟩ := List.getElem_of_mem hSlot
    have hsLen : s < slots.length := by
      rw [List.length_take] at hs
      omega
    split at hLink
    · next target hTo =>
      obtain rfl := Option.some.inj hLink
      have hLink? : slots.link? s = some (.to target) := by
        rw [Slots.link?, List.getElem?_eq_getElem hsLen, Option.map_some, ← hTo,
          List.getElem_take]
      obtain ⟨-, -, hHolds⟩ := h.target hLink?
      exact hHolds.lt_length
    · exact absurd hLink (by simp)
  rw [markOrphans, within_of_forall hSlice, within_of_forall hTargets]
  rfl

end Slots

/-! ## Whole builds -/

section Build

variable {α : Type} {g : Geometry α} {constraints : List (Constraint α)} {slots : Slots α}

def tie [Zero α] (g : Geometry α) (active : Option Nat) (slots : Slots α) (c : Constraint α) :
    Except Stop (Slots α) :=
  if c.kind.tiesCoordinates then do
    let points ← refusing (c.locate g)
    c.kind.tiedAxes.foldlM (unify points active) slots
  else .ok slots

def pinConstraint (g : Geometry α) (slots : Slots α) (c : Constraint α) :
    Except Stop (Slots α) :=
  if c.kind = .fixed then do
    let points ← refusing (c.locate g)
    (Linkage.bothSlots points).foldlM pin slots
  else .ok slots

def build [Zero α] (g : Geometry α) (constraints : List (Constraint α))
    (active : Option PointRef) : Except Stop (Linkage α) := do
  let active ← refusing (active.mapM g.locate)
  let tied ← constraints.foldlM (tie g active) (Slots.initial g)
  let pinned ← constraints.foldlM (pinConstraint g) tied
  let led ← (Linkage.bothSlots active.toList).foldlM lead pinned
  let slots ← markOrphans (2 * g.pointCount) led
  return { slots, pointCount := g.pointCount, arcCount := g.arcs.length }

theorem slot_lt_of_locate {c : Constraint α} {points : List Nat} (h : c.locate g = .ok points)
    (axis : Axis) : ∀ p ∈ points, axis.slot p < 2 * g.pointCount := by
  obtain ⟨-, rfl⟩ := (c.locate_eq_ok_iff g points).mp h
  exact fun p hp => Linkage.slot_lt (Constraint.indices_lt hp)

theorem tie_eq [Zero α] (h : slots.Linked (2 * g.pointCount)) (active : Option Nat)
    (c : Constraint α) : tie g active slots c = refusing (Linkage.tie g active slots c) := by
  rw [tie, Linkage.tie]
  split
  · refine bind_eq_refusing_map fun points hLocate => ?_
    refine foldlM_eq_ok (Slots.Linked (2 * g.pointCount)) c.kind.tiedAxes ?_ ?_ slots h
    · intro slots h axis _
      exact unify_eq h (slot_lt_of_locate hLocate axis) active
    · intro slots h axis _
      exact Slots.linked_unify h (slot_lt_of_locate hLocate axis)
  · rfl

theorem pinConstraint_eq (h : slots.Linked (2 * g.pointCount)) (c : Constraint α) :
    pinConstraint g slots c = refusing (Linkage.pinConstraint g slots c) := by
  rw [pinConstraint, Linkage.pinConstraint]
  split
  · refine bind_eq_refusing_map fun points hLocate => ?_
    obtain ⟨-, rfl⟩ := (c.locate_eq_ok_iff g points).mp hLocate
    exact foldlM_pin_eq h (Linkage.bothSlots_lt fun p hp => Constraint.indices_lt hp)
  · rfl

theorem linked_of_tie [Zero α] (h : slots.Linked (2 * g.pointCount)) {active : Option Nat}
    {c : Constraint α} {slots' : Slots α} (hTie : Linkage.tie g active slots c = .ok slots') :
    slots'.Linked (2 * g.pointCount) := by
  obtain ⟨-, rfl⟩ := (Linkage.tie_eq_ok_iff slots c slots').mp hTie
  refine Slots.linked_unifyAll _ h fun tie hTie => ?_
  obtain ⟨axis, -, rfl⟩ := List.mem_map.mp hTie
  exact fun p hp => Linkage.slot_lt (Constraint.indices_lt hp)

theorem linked_of_pinConstraint (h : slots.Linked (2 * g.pointCount)) {c : Constraint α}
    {slots' : Slots α} (hPin : Linkage.pinConstraint g slots c = .ok slots') :
    slots'.Linked (2 * g.pointCount) := by
  obtain ⟨-, rfl⟩ := (Linkage.pinConstraint_eq_ok_iff slots c slots').mp hPin
  refine (Slots.foldl_pin_kept _ h fun s hs => ?_).1
  rw [Constraint.pins] at hs
  split at hs
  · exact Linkage.bothSlots_lt (fun p hp => Constraint.indices_lt hp) s hs
  · exact absurd hs List.not_mem_nil

/-- **A build looks up no index out of range, whether it succeeds or not.** -/
theorem build_eq [Zero α] (g : Geometry α) (constraints : List (Constraint α))
    (active : Option PointRef) :
    build g constraints active = refusing (Linkage.build g constraints active) := by
  rw [build, Linkage.build]
  refine bind_eq_refusing rfl fun index hActive => ?_
  obtain ⟨hTies, hTied⟩ := foldlM_eq_refusing (Slots.Linked (2 * g.pointCount)) constraints
    (fun slots h c _ => tie_eq h index c) (fun slots h c _ slots' => linked_of_tie h)
    (Slots.initial g) (Linkage.linked_initial g)
  refine bind_eq_refusing hTies fun tied hTie => ?_
  obtain ⟨hPins, hPinned⟩ := foldlM_eq_refusing (Slots.Linked (2 * g.pointCount)) constraints
    (fun slots h c _ => pinConstraint_eq h c) (fun slots h c _ slots' => linked_of_pinConstraint h)
    tied (hTied tied hTie)
  refine bind_eq_refusing hPins fun pinned hPin => ?_
  have hLinked := hPinned pinned hPin
  have hLeads : ∀ s ∈ Linkage.bothSlots index.toList, s < 2 * g.pointCount := by
    refine Linkage.bothSlots_lt fun p hp => ?_
    obtain ⟨-, rfl⟩ := (Linkage.optionMapM_locate_eq_ok_iff active index).mp hActive
    obtain ⟨q, -, hq⟩ := Option.bind_eq_some_iff.mp (Option.mem_toList.mp hp)
    exact Geometry.pointIndex?_lt hq
  obtain ⟨hLen, hLink, -⟩ := Slots.foldl_lead_kept (Linkage.bothSlots index.toList) pinned
  rw [foldlM_lead_eq hLinked hLeads]
  show (markOrphans _ _ >>= _) = _
  rw [markOrphans_eq (hLinked.of_link?_eq hLen hLink)]
  rfl

/-! ## Writing back -/

/-- What a slot looks up on its way to its value. -/
def read (l : Linkage α) (vars : Array α) (s : Nat) : Except Stop Unit := do
  within l.slots.length [s, l.representative s]
  match l.source? s with
  | some (.free index) => within vars.size [index]
  | _ => return ()

def scatter [Zero α] (l : Linkage α) (g : Geometry α) (vars : Array α) :
    Except Stop (Geometry α) := do
  within g.pointCount (List.range l.pointCount)
  (Linkage.bothSlots (List.range l.pointCount)).forM (read l vars)
  within (vars.size + 1) [l.freeCount]
  return l.scatter g vars

theorem read_eq [Zero α] {active : Option PointRef} {l : Linkage α}
    (h : Linkage.build g constraints active = .ok l) {vars : Array α}
    (hSize : l.freeCount ≤ vars.size) {s : Nat} (hs : s < 2 * g.pointCount) :
    read l vars s = .ok () := by
  have hLinked := Linkage.linked_of_build h
  obtain ⟨v, hv⟩ := Slots.value?_isSome (hLinked.representative_lt_length hs)
  have hPair : ∀ i ∈ [s, l.representative s], i < l.slots.length := lt_of_mem_pair hLinked hs
  rw [read, within_of_forall hPair]
  rcases hLinked.holds_representative hs with hBase | hFixed
  · have hFree : ∀ i ∈ [l.freeBefore (l.representative s)], i < vars.size := by
      intro i hi
      rw [List.mem_singleton.mp hi]
      exact Nat.lt_of_lt_of_le (Linkage.freeBefore_lt hBase) hSize
    rw [Linkage.source?_of_base hBase]
    exact within_of_forall hFree
  · rw [Linkage.source?_of_fixed hFixed hv]
    rfl

/-- **Writing back a vector of the right length looks up no index out of range.** -/
theorem scatter_eq [Zero α] {active : Option PointRef} {l : Linkage α}
    (h : Linkage.build g constraints active = .ok l) {g' : Geometry α} (hIds : g'.SameIds g)
    {vars : Array α} (hSize : vars.size = l.degreesOfFreedom) :
    scatter l g' vars = .ok (l.scatter g' vars) := by
  have hFree : l.freeCount ≤ vars.size := hSize ▸ Nat.le_add_right _ _
  have hPoints : ∀ p ∈ List.range l.pointCount, p < g'.pointCount := by
    intro p hp
    rw [hIds.pointCount, ← Linkage.pointCount_of_build h]
    exact List.mem_range.mp hp
  have hReads : ∀ s ∈ Linkage.bothSlots (List.range l.pointCount), read l vars s = .ok () := by
    intro s hs
    exact read_eq h hFree
      (Linkage.bothSlots_lt (fun p hp => hIds.pointCount ▸ hPoints p hp) s hs)
  have hSlice : ∀ i ∈ [l.freeCount], i < vars.size + 1 := by
    simpa using Nat.lt_succ_of_le hFree
  rw [scatter, within_of_forall hPoints, forM_eq_ok _ hReads, within_of_forall hSlice]
  rfl

end Build

end Checked

end PlaneSketch
