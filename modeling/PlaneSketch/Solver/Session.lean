import PlaneSketch.Solver.Callback

/-!
# Sessions

A sketch that is edited and solved again and again, with the state of its solver.

* `Session.addSegment`, `Session.addConstraint`, …: edits under names not used before.
* `Session.solve`, `Session.drag`: guarded against being asked for while a solve is running.
  Failures are logged, and a solve that is skipped changes nothing else.
* The callback runs once after a completed solve, when the sketch may be edited again; requests
  for a solve that it makes are refused.
-/

namespace PlaneSketch

/-- The version of the library. -/
def version : String := "0.1.0"

/-- A sketch with the names not used yet and the state of its solver. -/
structure Session (α ω : Type) where
  sketch : Sketch α
  nextEntity : EntityId
  nextConstraint : ConstraintId
  /-- Whether someone else holds the sketch, so that it cannot be changed now. -/
  borrowed : Bool
  config : Config α
  /-- The variables that the last solve had. -/
  degreesOfFreedom : Nat
  solving : Bool
  callback : Option (Callback α ω)
  report : Option (SolveReport α)
  /-- What was logged, oldest first. -/
  events : Array (Event α)
  /-- What callbacks sent, oldest first. -/
  messages : Array ω

namespace Session

variable {α ω : Type}

/-- An empty sketch with a fresh solver. -/
def new (config : Config α) : Session α ω :=
  { sketch := .empty
    nextEntity := ⟨0⟩
    nextConstraint := ⟨0⟩
    borrowed := false
    config
    degreesOfFreedom := 0
    solving := false
    callback := none
    report := none
    events := #[]
    messages := #[] }

def log (s : Session α ω) (e : Event α) : Session α ω := { s with events := s.events.push e }

def logAll (s : Session α ω) (events : List (Event α)) : Session α ω :=
  { s with events := s.events ++ events.toArray }

def setGeometry (s : Session α ω) (g : Geometry α) : Session α ω :=
  { s with sketch := { s.sketch with geometry := g } }

def setConstraints (s : Session α ω) (cs : Constraints α) : Session α ω :=
  { s with sketch := { s.sketch with constraints := cs } }

/-! ## Edits -/

def addSegment (s : Session α ω) (segment : Segment α) : Session α ω × EntityId :=
  ({ s.setGeometry (s.sketch.geometry.addSegment s.nextEntity segment) with
      nextEntity := s.nextEntity.succ }, s.nextEntity)

def addArc (s : Session α ω) (arc : Arc α) : Session α ω × EntityId :=
  ({ s.setGeometry (s.sketch.geometry.addArc s.nextEntity arc) with
      nextEntity := s.nextEntity.succ }, s.nextEntity)

/-- Adds the arc over three points. -/
def addArcThrough [Scalar α] (s : Session α ω) (p1 p2 p : Vec2 α) :
    Except SketchError (Session α ω × EntityId) :=
  match Arc.through? p1 p2 p with
  | some arc => .ok (s.addArc arc)
  | none => .error .collinearArc

/-- Adds a constraint over existing entities. -/
def addConstraint (s : Session α ω) (kind : ConstraintKind) (operands : List (Operand α)) :
    Except SketchError (Session α ω × List ConstraintId) :=
  (s.sketch.addConstraint s.nextConstraint kind operands).map fun (sketch, ids) =>
    ({ s with sketch, nextConstraint := s.nextConstraint.plus ids.length }, ids)

/-- Adds a constraint without a look at which entities exist. -/
def addConstraintUnchecked (s : Session α ω) (kind : ConstraintKind)
    (operands : List (Operand α)) : Except SketchError (Session α ω × List ConstraintId) :=
  (s.sketch.constraints.add s.nextConstraint kind operands).map fun (cs, ids) =>
    ({ s.setConstraints cs with nextConstraint := s.nextConstraint.plus ids.length }, ids)

def removeConstraint (s : Session α ω) (id : ConstraintId) :
    Except SketchError (Session α ω × Constraint α) :=
  (s.sketch.constraints.remove id).map fun (cs, c) => (s.setConstraints cs, c)

def recreate (s : Session α ω) (id : ConstraintId) (operands : List (Operand α)) :
    Except SketchError (Session α ω × ConstraintId) :=
  (s.sketch.constraints.recreate id s.nextConstraint operands).map fun cs =>
    ({ s.setConstraints cs with nextConstraint := s.nextConstraint.plus 1 }, s.nextConstraint)

/-- Deletes entities, with the constraints that stop being applicable. -/
def removeEntities (s : Session α ω) (ids : List EntityId) :
    Session α ω × Except SketchError RemovalReport :=
  let (sketch, next, result) := s.sketch.removeEntities s.nextConstraint ids
  let s := { s with sketch, nextConstraint := next }
  match result with
  | .ok report =>
    (s.log (.entitiesRemoved ids.length report.removed.length report.replaced.length), result)
  | .error _ => (s, result)

def clear (s : Session α ω) : Session α ω := { s with sketch := .empty }

def clearGeometry (s : Session α ω) : Session α ω := s.setGeometry .empty

def setPoint? (s : Session α ω) (p : PointRef) (v : Vec2 α) : Option (Session α ω) :=
  (s.sketch.geometry.setPoint? p v).map s.setGeometry

def setBackend (s : Session α ω) (backend : Backend) : Session α ω :=
  { s with config := { s.config with backend } }

def setConfig (s : Session α ω) (config : Config α) : Session α ω := { s with config }

def setCallback (s : Session α ω) (callback : Callback α ω) : Session α ω :=
  { s with callback := some callback }

/-! ## Solving -/

variable [Scalar α]

/-- The session after a completed solve, before the callback. -/
def applySolved (s : Session α ω) (r : Solved α) : Session α ω :=
  { s.logAll r.events with
    sketch := r.sketch
    degreesOfFreedom := r.report.degreesOfFreedom
    report := some r.report }

/-- A solve with `notify` in place of the callback.  Says whether the solve ran to completion. -/
def solveNotifying (k : Kernel α) (notify : Session α ω → Session α ω) (s : Session α ω)
    (active : Option PointRef) : Session α ω × Bool :=
  if s.solving then (s.log .solveWhileSolving, false)
  else if s.borrowed then (s.log .sketchBorrowed, false)
  else
    match Solve.run k s.config s.sketch active with
    | .error e => (s.log (.solveSkipped e), false)
    | .ok r =>
      let solved := { s.applySolved r with solving := true }
      let notified := if r.notify then notify solved else solved
      ({ notified with solving := false }, true)

/-- A drag with `notify` in place of the callback: moves a point to a target and solves around it.
If the solve is skipped the point is put back. -/
def dragNotifying (k : Kernel α) (notify : Session α ω → Session α ω) (s : Session α ω)
    (p : PointRef) (target : Vec2 α) : Session α ω × Bool :=
  if s.solving then (s, false)
  else if s.borrowed then (s, false)
  else if s.sketch.constraints.fixes p then (s.log (.dragOfFixedPoint p), false)
  else
    match s.sketch.geometry.point? p with
    | none => (s.log (.dragOfUnknownPoint p), false)
    | some previous =>
      let moved := (s.setPoint? p target).getD s
      match solveNotifying k notify moved (some p) with
      | (solved, true) => (solved, true)
      | (skipped, false) => ((skipped.setPoint? p previous).getD skipped, false)

/-- Runs a callback.  A request for a solve passes through the same guard as any other; a solve is
running while a callback does, so the request is refused and needs no callback of its own. -/
def runCallback (k : Kernel α) : Callback α ω → Session α ω → Session α ω
  | .done, s => s
  | .solve active rest, s => runCallback k rest (solveNotifying k id s active).1
  | .drag p target rest, s =>
    runCallback k (rest (dragNotifying k id s p target).2) (dragNotifying k id s p target).1
  | .install callback rest, s => runCallback k rest (s.setCallback callback)
  | .configure change rest, s => runCallback k rest (s.setConfig (change s.config))
  | .edit change rest, s => runCallback k rest { s with sketch := change s.sketch }
  | .look rest, s => runCallback k (rest s.sketch s.solving) s
  | .send message rest, s => runCallback k rest { s with messages := s.messages.push message }

/-- Runs the installed callback.  It is taken out while it runs, so that it may install another
one, and put back if it has not. -/
def notify (k : Kernel α) (s : Session α ω) : Session α ω :=
  match s.callback with
  | none => s
  | some callback =>
    let after := runCallback k callback { s with callback := none }
    { after with callback := after.callback.or (some callback) }

/-- Solves the sketch, and runs the callback.  With `active` set, that point is kept as close as
possible to where it is.  Says whether the solve ran to completion. -/
def solve (k : Kernel α) (s : Session α ω) (active : Option PointRef) : Session α ω × Bool :=
  solveNotifying k (notify k) s active

/-- Moves a point to a target and solves around it.  Says whether the solve ran to completion. -/
def drag (k : Kernel α) (s : Session α ω) (p : PointRef) (target : Vec2 α) :
    Session α ω × Bool :=
  dragNotifying k (notify k) s p target

end Session

end PlaneSketch
