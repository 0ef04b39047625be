import PlaneSketch.Optimize.Step

/-!
# The filter

Pairs of violation and objective that later iterates have to improve upon.  A trial is acceptable
if it is better than every entry in one of the two by a margin.  Entries are stored with the
margin taken off, and those that a new entry dominates are dropped.
-/

namespace PlaneSketch

/-- An entry of the filter; no objective means one below all numbers. -/
structure FilterEntry (α : Type) where
  violation : α
  objective? : Option α
deriving Repr

/-- The entries of the filter, oldest first. -/
abbrev Filter (α : Type) := List (FilterEntry α)

namespace Filter

variable {α : Type} [Scalar α]

/-- The share of an entry's violation by which a trial has to improve. -/
def margin : α := 1e-5

/-- Whether a trial improves on an entry in violation or in objective. -/
def improves (violation objective : α) (e : FilterEntry α) : Bool :=
  violation ≤ (1 - margin) * e.violation ||
    match e.objective? with
    | some bound => objective ≤ bound - margin * e.violation
    | none => false

/-- Whether a trial improves on every entry. -/
def acceptable (filter : Filter α) (violation objective : α) : Bool :=
  filter.all (improves violation objective)

/-- The entry for an iterate: its violation and objective with the margin taken off. -/
def entry (violation : α) (objective? : Option α) : FilterEntry α :=
  let reduced := (1 - margin) * violation
  ⟨reduced, objective?.map (· - margin * reduced)⟩

/-- Whether one objective is below another; anything above minus infinity is above no objective. -/
def objectiveBelow : Option α → Option α → Bool
  | some a, some b => a < b
  | none, some b => Scalar.isFinite b || 0 < b
  | _, none => false

/-- Whether an entry is below another in violation or in objective, and so not dominated. -/
def survives (new old : FilterEntry α) : Bool :=
  old.violation < new.violation || objectiveBelow old.objective? new.objective?

/-- Enters an iterate and drops the entries that it dominates. -/
def add (filter : Filter α) (violation : α) (objective? : Option α) : Filter α :=
  let new := entry violation objective?
  filter.filter (survives new) ++ [new]

end Filter

end PlaneSketch
