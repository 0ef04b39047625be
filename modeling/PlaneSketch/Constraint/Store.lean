import PlaneSketch.Error

/-!
# The constraint store

Constraints in order, with diagnostic counts.  A stored constraint is never edited: it is
recreated under a fresh name, so that a name always stands for the same relation.

* `Constraints.add`: a longer run of operands of one type is split into atomic constraints.
* `Constraints.useless`: constraints that no longer apply once some entities are gone.
* `Constraints.remove`, `Constraints.recreate`: deletion and delete-and-recreate by name.

Operations that make constraints take the first unused name `fresh` and use the names from it
upwards.
-/

namespace PlaneSketch

/-- A relation over a list of operands. -/
structure Constraint (α : Type) where
  id : ConstraintId
  kind : ConstraintKind
  operands : List (Operand α)
deriving Repr

namespace Constraint

variable {α : Type}

def types (c : Constraint α) : List OperandType := c.operands.map Operand.type

/-- The points that the constraint touches, operand by operand. -/
def points (c : Constraint α) : List PointRef := c.operands.flatMap Operand.points

/-- Whether some operand lives on the entity `id`. -/
def references (c : Constraint α) (id : EntityId) : Bool := c.operands.any (·.owner? == some id)

/-- The operands that do not live on any of `ids`. -/
def surviving (c : Constraint α) (ids : List EntityId) : List (Operand α) :=
  c.operands.filter (!·.ownedBy ids)

end Constraint

/-- How many constraints the last solve found of each sort. -/
structure Counters where
  inactive : Nat
  solvedBySubstitution : Nat
  fixed : Nat
deriving DecidableEq, Repr

def Counters.zero : Counters := ⟨0, 0, 0⟩

/-- The constraints of a sketch, in order. -/
structure Constraints (α : Type) where
  items : List (Constraint α)
  counters : Counters
deriving Repr

namespace Constraints

variable {α : Type}

def empty : Constraints α := ⟨[], .zero⟩

/-! ## Adding -/

/-- The lists of two neighbouring elements. -/
def consecutivePairs {β : Type} : List β → List (List β)
  | x :: y :: rest => [x, y] :: consecutivePairs (y :: rest)
  | _ => []

/-- The operand lists of the atomic constraints that a request stands for, given the requirement
it fits: the whole list for a kind that is not splittable, else one list per operand or per
consecutive pair. -/
def split (kind : ConstraintKind) (r : Requirement) (operands : List (Operand α)) :
    List (List (Operand α)) :=
  if kind.isSplittable then
    if r.arity = 1 then operands.map ([·]) else consecutivePairs operands
  else [operands]

/-- The new constraints over operand lists, under the names from `fresh` upwards. -/
def name (fresh : ConstraintId) (kind : ConstraintKind) (lists : List (List (Operand α))) :
    List (Constraint α) :=
  lists.mapIdx fun i operands => ⟨fresh.plus i, kind, operands⟩

/-- Validates a request and stores its atomic constraints; gives their names in order. -/
def add (cs : Constraints α) (fresh : ConstraintId) (kind : ConstraintKind)
    (operands : List (Operand α)) : Except SketchError (Constraints α × List ConstraintId) :=
  match kind.matching? (operands.map Operand.type) with
  | none => .error (.requirementMismatch kind (operands.map Operand.type))
  | some r =>
    let made := name fresh kind (split kind r operands)
    .ok ({ cs with items := cs.items ++ made }, made.map (·.id))

/-! ## Looking up and removing -/

def get? (cs : Constraints α) (id : ConstraintId) : Option (Constraint α) :=
  cs.items.find? (·.id = id)

/-- The constraints whose operands outside `removed` are not accepted by their kind. -/
def useless (cs : Constraints α) (removed : List EntityId) : List ConstraintId :=
  (cs.items.filter fun c => !c.kind.accepts ((c.surviving removed).map Operand.type)).map (·.id)

/-- The store without the first constraint of the name `id`. -/
def erase (cs : Constraints α) (id : ConstraintId) : Constraints α :=
  { cs with items := cs.items.eraseP (·.id = id) }

/-- Removes the first constraint of the name `id`, which must exist. -/
def remove (cs : Constraints α) (id : ConstraintId) :
    Except SketchError (Constraints α × Constraint α) :=
  match cs.get? id with
  | none => .error (.unknownConstraint id)
  | some c => .ok (cs.erase id, c)

/-- The list with its first element that satisfies `p` replaced by `y`. -/
def replaceFirst {β : Type} (p : β → Bool) (y : β) : List β → List β
  | [] => []
  | x :: rest => if p x then y :: rest else x :: replaceFirst p y rest

/-- Replaces the first constraint of the name `id`, in place, by one of the same kind over other
operands and under the name `fresh`. -/
def recreate (cs : Constraints α) (id : ConstraintId) (fresh : ConstraintId)
    (operands : List (Operand α)) : Except SketchError (Constraints α) :=
  match cs.get? id with
  | none => .error (.unknownConstraint id)
  | some c =>
    if c.kind.accepts (operands.map Operand.type) then
      .ok { cs with items := replaceFirst (·.id = id) ⟨fresh, c.kind, operands⟩ cs.items }
    else .error (.requirementMismatch c.kind (operands.map Operand.type))

/-- Recreates several constraints in turn.  Gives the store, the first name that is still unused,
and the old and new names; at the first failure, what was done before it stays. -/
def recreateEach (cs : Constraints α) (fresh : ConstraintId) :
    List (ConstraintId × List (Operand α)) →
      Constraints α × ConstraintId × Except SketchError (List (ConstraintId × ConstraintId))
  | [] => (cs, fresh, .ok [])
  | (old, operands) :: rest =>
    match cs.recreate old fresh operands with
    | .error e => (cs, fresh, .error e)
    | .ok changed =>
      let (done, next, replaced) := changed.recreateEach (fresh.plus 1) rest
      (done, next, replaced.map ((old, fresh) :: ·))

/-- Whether some `fixed` constraint names the point. -/
def fixes (cs : Constraints α) (p : PointRef) : Bool :=
  cs.items.any fun c => c.kind == .fixed && c.operands.any fun
    | .point q => q == p
    | _ => false

/-- The counters after a solve that found `inactive` constraints with nothing left to adjust. -/
def refreshCounters (cs : Constraints α) (inactive : Nat) : Constraints α :=
  { cs with
    counters :=
      { inactive
        solvedBySubstitution := cs.items.countP (·.kind.tiesCoordinates)
        fixed := cs.items.countP (·.kind == .fixed) } }

end Constraints

end PlaneSketch
