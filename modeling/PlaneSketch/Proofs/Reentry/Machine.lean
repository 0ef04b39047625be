import Mathlib.Logic.Relation
import PlaneSketch.Proofs.Report

/-!
# Calls, step by step

A solve or a drag as a machine that takes one step after the other: setting the flag, borrowing the
sketch, computing, giving the sketch back, taking the callback out of its slot, each command of the
callback, putting it back, resetting the flag.  What is left to do stands on a stack, so that a
request which the callback makes runs on the same machine as any other, and finds out by the flag
alone that it is not wanted.

* `Machine.step`: one step; there is none where the callback touches a sketch that is borrowed.
* `Machine.exists_steps_callback`: the commands of a callback do what `runCallback` says.
* `Machine.exists_steps_solve`, `Machine.exists_steps_drag`: **the machine ends, with the session
  and the answer of `Session.solve` and `Session.drag`.**
-/

namespace PlaneSketch

namespace Session

/-- A part of a call that is left to do. -/
inductive Frame (α ω : Type) where
  /-- Sets the flag and solves, unless a solve is running. -/
  | solve (active : Option PointRef)
  /-- Borrows the sketch, unless someone else holds it. -/
  | borrow (active : Option PointRef)
  | compute (active : Option PointRef)
  /-- Gives the sketch back. -/
  | release
  /-- Takes the callback out of its slot and runs it. -/
  | notify
  /-- Goes on with a callback that was taken out of its slot. -/
  | callback (taken rest : Callback α ω)
  /-- Goes on with a callback that waits for the answer to a drag. -/
  | await (taken : Callback α ω) (rest : Bool → Callback α ω)
  /-- Answers that the solve ran to completion. -/
  | complete
  /-- Resets the flag. -/
  | leave
  /-- Moves a point and solves around it. -/
  | drag (p : PointRef) (target : Vec2 α)
  /-- Puts a point back if the solve around it was skipped. -/
  | putBack (p : PointRef) (previous : Vec2 α)

/-- A call in the middle of its run. -/
structure Machine (α ω : Type) where
  session : Session α ω
  /-- What the call that returned last has answered. -/
  answer : Bool
  /-- What is left to do, innermost first. -/
  stack : List (Frame α ω)
  /-- The callbacks that have begun to run, the last one first. -/
  begun : List (Callback α ω)
  /-- The callbacks that were installed by a running one, the last one first. -/
  installed : List (Callback α ω)

variable {α ω : Type}

namespace Machine

/-- The machine at the beginning of a call. -/
def start (t : Session α ω) (frame : Frame α ω) : Machine α ω := ⟨t, false, [frame], [], []⟩

def push (m : Machine α ω) (frames : List (Frame α ω)) : Machine α ω :=
  { m with stack := frames ++ m.stack }

def refuse (m : Machine α ω) (e : Event α) : Machine α ω :=
  { m with session := m.session.log e, answer := false }

/-- Runs one command of a callback.  The sketch can be edited and read while nobody holds it. -/
def command (m : Machine α ω) (taken : Callback α ω) : Callback α ω → Option (Machine α ω)
  | .done =>
    some { m with session := { m.session with callback := m.session.callback.or (some taken) } }
  | .solve active rest => some (m.push [.solve active, .callback taken rest])
  | .drag p target rest => some (m.push [.drag p target, .await taken rest])
  | .install callback rest =>
    some ({ m with
      session := m.session.setCallback callback
      installed := callback :: m.installed }.push [.callback taken rest])
  | .configure change rest =>
    some ({ m with session := m.session.setConfig (change m.session.config) }.push
      [.callback taken rest])
  | .edit change rest =>
    if m.session.borrowed then none
    else
      some ({ m with session := { m.session with sketch := change m.session.sketch } }.push
        [.callback taken rest])
  | .look rest =>
    if m.session.borrowed then none
    else some (m.push [.callback taken (rest m.session.sketch m.session.solving)])
  | .send message rest =>
    some ({ m with
      session := { m.session with messages := m.session.messages.push message } }.push
        [.callback taken rest])

variable [Scalar α]

/-- Does what a frame says; the machine is given without that frame. -/
def exec (k : Kernel α) (m : Machine α ω) : Frame α ω → Option (Machine α ω)
  | .solve active =>
    if m.session.solving then some (m.refuse .solveWhileSolving)
    else
      some ({ m with session := { m.session with solving := true } }.push [.borrow active, .leave])
  | .borrow active =>
    if m.session.borrowed then some (m.refuse .sketchBorrowed)
    else
      some ({ m with session := { m.session with borrowed := true } }.push [.compute active])
  | .compute active =>
    match Solve.run k m.session.config m.session.sketch active with
    | .error e => some ((m.refuse (.solveSkipped e)).push [.release])
    | .ok r =>
      some ({ m with session := m.session.applySolved r }.push
        (if r.notify then [.release, .notify, .complete] else [.release, .complete]))
  | .release => some { m with session := { m.session with borrowed := false } }
  | .notify =>
    match m.session.callback with
    | none => some m
    | some taken =>
      some ({ m with
        session := { m.session with callback := none }
        begun := taken :: m.begun }.push [.callback taken taken])
  | .callback taken rest => m.command taken rest
  | .await taken rest => some (m.push [.callback taken (rest m.answer)])
  | .complete => some { m with answer := true }
  | .leave => some { m with session := { m.session with solving := false } }
  | .drag p target =>
    if m.session.solving then some { m with answer := false }
    else if m.session.borrowed then some { m with answer := false }
    else if m.session.sketch.constraints.fixes p then some (m.refuse (.dragOfFixedPoint p))
    else
      match m.session.sketch.geometry.point? p with
      | none => some (m.refuse (.dragOfUnknownPoint p))
      | some previous =>
        some ({ m with session := (m.session.setPoint? p target).getD m.session }.push
          [.solve (some p), .putBack p previous])
  | .putBack p previous =>
    if m.answer then some m
    else if m.session.borrowed then some m
    else some { m with session := (m.session.setPoint? p previous).getD m.session }

/-- One step of the machine. -/
def step (k : Kernel α) (m : Machine α ω) : Option (Machine α ω) :=
  match m.stack with
  | [] => none
  | frame :: rest => exec k { m with stack := rest } frame

/-- Any number of steps. -/
abbrev Steps (k : Kernel α) : Machine α ω → Machine α ω → Prop :=
  Relation.ReflTransGen fun m m' => m.step k = some m'

variable {k : Kernel α} {m m' : Machine α ω} {s t : Session α ω} {answer : Bool}
  {rest : List (Frame α ω)} {begun installed : List (Callback α ω)} {active : Option PointRef}

/-- **A run that ends is the only one**: every machine on the way gets there. -/
theorem Steps.of_steps_of_stack_eq_nil (h : Steps k m m') (hEnd : m'.stack = []) {n : Machine α ω}
    (hn : Steps k m n) : Steps k n m' := by
  have hFinal : m'.step k = none := by rw [step, hEnd]
  induction hn with
  | refl => exact h
  | tail _ hStep ih =>
    rcases Relation.ReflTransGen.cases_head ih with rfl | ⟨next, hNext, hRest⟩
    · exact absurd (hStep.symm.trans hFinal) (by simp)
    · obtain rfl := Option.some.inj (hStep.symm.trans hNext)
      exact hRest

/-! ## Single steps -/

theorem step_nested_solve (hSolving : s.solving = true) :
    step k ⟨s, answer, .solve active :: rest, begun, installed⟩ =
      some ⟨s.log .solveWhileSolving, false, rest, begun, installed⟩ :=
  if_pos hSolving

theorem step_nested_drag (hSolving : s.solving = true) (p : PointRef) (target : Vec2 α) :
    step k ⟨s, answer, .drag p target :: rest, begun, installed⟩ =
      some ⟨s, false, rest, begun, installed⟩ :=
  if_pos hSolving

theorem step_compute_of_error {e : SketchError}
    (hRun : Solve.run k s.config s.sketch active = .error e) :
    step k ⟨s, answer, .compute active :: rest, begun, installed⟩ =
      some ⟨s.log (.solveSkipped e), false, .release :: rest, begun, installed⟩ := by
  simp only [step, exec, hRun]
  rfl

theorem step_compute_of_ok {r : Solved α}
    (hRun : Solve.run k s.config s.sketch active = .ok r) :
    step k ⟨s, answer, .compute active :: rest, begun, installed⟩ =
      some ⟨s.applySolved r, answer,
        (if r.notify then [.release, .notify, .complete] else [.release, .complete]) ++ rest,
        begun, installed⟩ := by
  simp only [step, exec, hRun]
  rfl

theorem step_notify_of_none (hCallback : s.callback = none) :
    step k ⟨s, answer, .notify :: rest, begun, installed⟩ =
      some ⟨s, answer, rest, begun, installed⟩ := by
  simp only [step, exec, hCallback]

theorem step_notify_of_some {taken : Callback α ω} (hCallback : s.callback = some taken) :
    step k ⟨s, answer, .notify :: rest, begun, installed⟩ =
      some ⟨{ s with callback := none }, answer, .callback taken taken :: rest, taken :: begun,
        installed⟩ := by
  simp only [step, exec, hCallback]
  rfl

omit [Scalar α] in
/-- Moving a point changes the sketch alone. -/
theorem exists_setPoint?_getD (t : Session α ω) (p : PointRef) (v : Vec2 α) :
    ∃ g, (t.setPoint? p v).getD t = t.setGeometry g := by
  cases hMoved : t.setPoint? p v with
  | none => exact ⟨t.sketch.geometry, rfl⟩
  | some moved =>
    obtain ⟨g, -, rfl⟩ := Option.map_eq_some_iff.mp hMoved
    exact ⟨g, rfl⟩

/-- A drag that moves its point goes on as a solve. -/
theorem step_drag_of_point {p : PointRef} {target previous : Vec2 α} (hSolving : s.solving = false)
    (hBorrowed : s.borrowed = false) (hFree : s.sketch.constraints.fixes p = false)
    (hPoint : s.sketch.geometry.point? p = some previous) :
    step k ⟨s, answer, .drag p target :: rest, begun, installed⟩ =
      some ⟨(s.setPoint? p target).getD s, answer, .solve (some p) :: .putBack p previous :: rest,
        begun, installed⟩ := by
  simp only [step, exec, hSolving, hBorrowed, hFree, hPoint, Bool.false_eq_true, if_false]
  rfl

/-- A drag is refused, with nothing but a line in the log, or it moves its point. -/
theorem step_drag_cases (k : Kernel α) (s : Session α ω) (p : PointRef) (target : Vec2 α)
    (answer : Bool) (rest : List (Frame α ω)) (begun installed : List (Callback α ω)) :
    (∃ s', (s' = s ∨ ∃ e, s' = s.log e) ∧ s.drag k p target = (s', false) ∧
      step k ⟨s, answer, .drag p target :: rest, begun, installed⟩ =
        some ⟨s', false, rest, begun, installed⟩) ∨
    s.solving = false ∧ s.borrowed = false ∧ s.sketch.constraints.fixes p = false ∧
      ∃ previous, s.sketch.geometry.point? p = some previous := by
  cases hSolving : s.solving with
  | true =>
    refine .inl ⟨s, .inl rfl, ?_, step_nested_drag hSolving p target⟩
    rw [drag, dragNotifying, if_pos hSolving]
  | false =>
    cases hBorrowed : s.borrowed with
    | true =>
      refine .inl ⟨s, .inl rfl, ?_, ?_⟩
      · simp only [drag, dragNotifying, hSolving, hBorrowed, Bool.false_eq_true, if_false, if_true]
      · simp only [step, exec, hSolving, hBorrowed, Bool.false_eq_true, if_false, if_true]
    | false =>
      cases hFixed : s.sketch.constraints.fixes p with
      | true =>
        refine .inl ⟨s.log (.dragOfFixedPoint p), .inr ⟨_, rfl⟩, ?_, ?_⟩
        · simp only [drag, dragNotifying, hSolving, hBorrowed, hFixed, Bool.false_eq_true, if_false,
            if_true]
        · simp only [step, exec, hSolving, hBorrowed, hFixed, Bool.false_eq_true, if_false, if_true]
          rfl
      | false =>
        cases hPoint : s.sketch.geometry.point? p with
        | some previous => exact .inr ⟨rfl, rfl, rfl, previous, rfl⟩
        | none =>
          refine .inl ⟨s.log (.dragOfUnknownPoint p), .inr ⟨_, rfl⟩, ?_, ?_⟩
          · simp only [drag, dragNotifying, hSolving, hBorrowed, hFixed, hPoint, Bool.false_eq_true,
              if_false]
          · simp only [step, exec, hSolving, hBorrowed, hFixed, hPoint, Bool.false_eq_true,
              if_false]
            rfl

/-! ## Callbacks -/

/-- The machine has come to the end of a call, with its session. -/
structure Returns (s : Session α ω) (rest : List (Frame α ω)) (m : Machine α ω) : Prop where
  session : m.session = s
  stack : m.stack = rest

/-- **The commands of a callback do what `runCallback` says**, although each request that the
callback makes is a call like any other. -/
theorem exists_steps_callback (k : Kernel α) (taken program : Callback α ω)
    (rest : List (Frame α ω)) : ∀ (s : Session α ω) (answer : Bool)
      (begun installed : List (Callback α ω)), s.solving = true → s.borrowed = false →
      let after := runCallback k program s
      ∃ m', Steps k ⟨s, answer, .callback taken program :: rest, begun, installed⟩ m' ∧
        Returns { after with callback := after.callback.or (some taken) } rest m' := by
  -- no command resets the flag or takes the sketch, so both hypotheses reach the next command
  induction program with
  | done =>
    intro s answer begun installed _ _
    exact ⟨_, .single rfl, rfl, rfl⟩
  | solve active program ih =>
    intro s answer begun installed hSolving hBorrowed
    obtain ⟨m', hSteps, hReturns⟩ :=
      ih (s.log .solveWhileSolving) false begun installed hSolving hBorrowed
    refine ⟨m', .head rfl (.head (step_nested_solve hSolving) hSteps), ?_⟩
    rw [runCallback, solveNotifying, if_pos hSolving]
    exact hReturns
  | drag p target program ih =>
    intro s answer begun installed hSolving hBorrowed
    obtain ⟨m', hSteps, hReturns⟩ := ih false s false begun installed hSolving hBorrowed
    refine ⟨m', .head rfl (.head (step_nested_drag hSolving p target) (.head rfl hSteps)), ?_⟩
    rw [runCallback, dragNotifying, if_pos hSolving]
    exact hReturns
  | install callback program _ ih =>
    intro s answer begun installed hSolving hBorrowed
    obtain ⟨m', hSteps, hReturns⟩ :=
      ih (s.setCallback callback) answer begun (callback :: installed) hSolving hBorrowed
    exact ⟨m', .head rfl hSteps, hReturns⟩
  | configure change program ih =>
    intro s answer begun installed hSolving hBorrowed
    obtain ⟨m', hSteps, hReturns⟩ :=
      ih (s.setConfig (change s.config)) answer begun installed hSolving hBorrowed
    exact ⟨m', .head rfl hSteps, hReturns⟩
  | edit change program ih =>
    intro s answer begun installed hSolving hBorrowed
    obtain ⟨m', hSteps, hReturns⟩ :=
      ih { s with sketch := change s.sketch } answer begun installed hSolving hBorrowed
    exact ⟨m', .head (if_neg (Bool.eq_false_iff.mp hBorrowed)) hSteps, hReturns⟩
  | look program ih =>
    intro s answer begun installed hSolving hBorrowed
    obtain ⟨m', hSteps, hReturns⟩ :=
      ih s.sketch s.solving s answer begun installed hSolving hBorrowed
    exact ⟨m', .head (if_neg (Bool.eq_false_iff.mp hBorrowed)) hSteps, hReturns⟩
  | send message program ih =>
    intro s answer begun installed hSolving hBorrowed
    obtain ⟨m', hSteps, hReturns⟩ :=
      ih { s with messages := s.messages.push message } answer begun installed hSolving hBorrowed
    exact ⟨m', .head rfl hSteps, hReturns⟩

theorem exists_steps_notify (k : Kernel α) (rest : List (Frame α ω)) (s : Session α ω)
    (answer : Bool) (begun installed : List (Callback α ω)) (hSolving : s.solving = true)
    (hBorrowed : s.borrowed = false) :
    ∃ m', Steps k ⟨s, answer, .notify :: rest, begun, installed⟩ m' ∧
      Returns (Session.notify k s) rest m' := by
  rw [Session.notify]
  cases hCallback : s.callback with
  | none => exact ⟨_, .single (step_notify_of_none hCallback), rfl, rfl⟩
  | some taken =>
    obtain ⟨m', hSteps, hReturns⟩ := exists_steps_callback k taken taken rest
      { s with callback := none } answer (taken :: begun) installed hSolving hBorrowed
    exact ⟨m', .head (step_notify_of_some hCallback) hSteps, hReturns⟩

/-! ## Solves and drags -/

omit [Scalar α] in
theorem with_solving_eq {flag : Bool} (h : t.solving = flag) : { t with solving := flag } = t := by
  cases t
  cases h
  rfl

omit [Scalar α] in
theorem with_borrowed_eq {flag : Bool} (h : t.borrowed = flag) :
    { t with borrowed := flag } = t := by
  cases t
  cases h
  rfl

/-- A solve that is skipped gives back what it took. -/
theorem exists_steps_skipped {e : SketchError} (rest : List (Frame α ω)) (answer : Bool)
    (begun installed : List (Callback α ω)) (hSolving : t.solving = false)
    (hBorrowed : t.borrowed = false) (hRun : Solve.run k t.config t.sketch active = .error e) :
    Steps k ⟨t, answer, .solve active :: rest, begun, installed⟩
      ⟨t.log (.solveSkipped e), false, rest, begun, installed⟩ := by
  have hReset : { t.log (.solveSkipped e) with solving := false, borrowed := false } =
      t.log (.solveSkipped e) :=
    (with_borrowed_eq (t := { t.log (.solveSkipped e) with solving := false }) hBorrowed).trans
      (with_solving_eq hSolving)
  rw [← hReset]
  exact .head (if_neg (Bool.eq_false_iff.mp hSolving)) <|
    .head (if_neg (Bool.eq_false_iff.mp hBorrowed)) <| .head (step_compute_of_error hRun) <|
    .head rfl <| .single rfl

/-- A solve that is completed lets the callback run after it has given the sketch back. -/
theorem exists_steps_settled {r : Solved α} (rest : List (Frame α ω)) (answer : Bool)
    (begun installed : List (Callback α ω)) (hSolving : t.solving = false)
    (hBorrowed : t.borrowed = false) (hRun : Solve.run k t.config t.sketch active = .ok r) :
    ∃ m', Steps k ⟨t, answer, .solve active :: rest, begun, installed⟩ m' ∧
      Returns (settle (Session.notify k) t r) rest m' ∧ m'.answer = true := by
  have hReleased : { t.applySolved r with solving := true, borrowed := false } =
      { t.applySolved r with solving := true } :=
    with_borrowed_eq (t := { t.applySolved r with solving := true }) hBorrowed
  have hSteps : Steps k ⟨t, answer, .solve active :: rest, begun, installed⟩ _ :=
    .head (if_neg (Bool.eq_false_iff.mp hSolving)) <|
      .head (if_neg (Bool.eq_false_iff.mp hBorrowed)) <| .single (step_compute_of_ok hRun)
  cases hNotify : r.notify with
  | false =>
    simp only [hNotify, Bool.false_eq_true, if_false] at hSteps
    refine ⟨_, hSteps.trans (.head rfl (.head rfl (.single rfl))), ⟨?_, rfl⟩, rfl⟩
    simp only [settle, hNotify, Bool.false_eq_true, if_false]
    exact with_borrowed_eq (t := { t.applySolved r with solving := false }) hBorrowed
  | true =>
    simp only [hNotify, if_true] at hSteps
    obtain ⟨m', hRest, hReturns⟩ := exists_steps_notify k (.complete :: .leave :: rest)
      { t.applySolved r with solving := true } answer begun installed rfl hBorrowed
    obtain ⟨s', answer', stack', begun', installed'⟩ := m'
    obtain ⟨rfl, rfl⟩ := hReturns
    refine ⟨_, hSteps.trans (.head ?_ (hRest.trans (.head rfl (.single rfl)))), ⟨?_, rfl⟩, rfl⟩
    · rw [← hReleased]
      rfl
    · simp only [settle, hNotify, if_true]

/-- **The machine solves**: it ends, with the session and the answer of `Session.solve`. -/
theorem exists_steps_solve (k : Kernel α) (t : Session α ω) (active : Option PointRef)
    (rest : List (Frame α ω)) (answer : Bool) (begun installed : List (Callback α ω)) :
    ∃ m', Steps k ⟨t, answer, .solve active :: rest, begun, installed⟩ m' ∧
      Returns (t.solve k active).1 rest m' ∧ m'.answer = (t.solve k active).2 := by
  rw [Session.solve]
  cases hSolving : t.solving with
  | true =>
    rw [solveNotifying, if_pos hSolving]
    exact ⟨_, .single (step_nested_solve hSolving), ⟨rfl, rfl⟩, rfl⟩
  | false =>
    cases hBorrowed : t.borrowed with
    | true =>
      rw [solveNotifying, if_neg (Bool.eq_false_iff.mp hSolving), if_pos hBorrowed]
      refine ⟨_, .head (if_neg (Bool.eq_false_iff.mp hSolving))
        (.head (if_pos hBorrowed) (.single rfl)), ⟨?_, rfl⟩, rfl⟩
      exact with_solving_eq (t := t.log .sketchBorrowed) hSolving
    | false =>
      cases hRun : Solve.run k t.config t.sketch active with
      | error e =>
        rw [solveNotifying, hSolving, hBorrowed, hRun]
        exact ⟨_, exists_steps_skipped rest answer begun installed hSolving hBorrowed hRun,
          ⟨rfl, rfl⟩, rfl⟩
      | ok r =>
        rw [solveNotifying_of_run hSolving hBorrowed hRun]
        exact exists_steps_settled rest answer begun installed hSolving hBorrowed hRun

/-- A skipped solve does not hold the sketch. -/
theorem borrowed_of_skipped (hBorrowed : t.borrowed = false) (h : (t.solve k active).2 = false) :
    (t.solve k active).1.borrowed = false := by
  rcases solveNotifying_cases k (Session.notify k) t active with ⟨e, hSkipped⟩ |
    ⟨-, -, r, -, hSettled⟩
  · rw [solve, hSkipped]
    exact hBorrowed
  · rw [solve, hSettled] at h
    exact absurd h (by simp)

/-- A drag that moves its point stands or falls with the solve around it. -/
theorem drag_of_point {p : PointRef} {target previous : Vec2 α} (hSolving : t.solving = false)
    (hBorrowed : t.borrowed = false) (hFree : t.sketch.constraints.fixes p = false)
    (hPoint : t.sketch.geometry.point? p = some previous) :
    let moved := (t.setPoint? p target).getD t
    let solved := moved.solve k (some p)
    t.drag k p target =
      if solved.2 then solved else ((solved.1.setPoint? p previous).getD solved.1, false) := by
  simp only [drag, dragNotifying, hSolving, hBorrowed, hFree, hPoint, Bool.false_eq_true, if_false]
  rw [← Session.solve]
  rcases Session.solve k ((t.setPoint? p target).getD t) (some p) with ⟨s, _ | _⟩
  · rfl
  · rfl

/-- A drag that moves its point goes on as a solve, and puts the point back if that is skipped. -/
theorem exists_steps_moved {p : PointRef} {target previous : Vec2 α} (rest : List (Frame α ω))
    (answer : Bool) (begun installed : List (Callback α ω)) (hSolving : t.solving = false)
    (hBorrowed : t.borrowed = false) (hFree : t.sketch.constraints.fixes p = false)
    (hPoint : t.sketch.geometry.point? p = some previous) :
    ∃ m', Steps k ⟨t, answer, .drag p target :: rest, begun, installed⟩ m' ∧
      Returns (t.drag k p target).1 rest m' ∧ m'.answer = (t.drag k p target).2 := by
  obtain ⟨g, hMoved⟩ := exists_setPoint?_getD t p target
  have hStep : step k ⟨t, answer, .drag p target :: rest, begun, installed⟩ =
      some ⟨t.setGeometry g, answer, .solve (some p) :: .putBack p previous :: rest, begun,
        installed⟩ := by
    rw [← hMoved]
    exact step_drag_of_point hSolving hBorrowed hFree hPoint
  obtain ⟨⟨s', answer', stack', begun', installed'⟩, hSolve, ⟨rfl, rfl⟩, rfl⟩ :=
    exists_steps_solve k (t.setGeometry g) (some p) (.putBack p previous :: rest) answer begun
      installed
  have hSteps : Steps k _ _ := .head hStep hSolve
  rw [drag_of_point hSolving hBorrowed hFree hPoint, hMoved]
  cases hAnswer : ((t.setGeometry g).solve k (some p)).2 with
  | true =>
    rw [hAnswer] at hSteps
    refine ⟨_, hSteps.trans (.single rfl), ?_⟩
    rw [if_pos rfl]
    exact ⟨⟨rfl, rfl⟩, hAnswer.symm⟩
  | false =>
    have hReleased := borrowed_of_skipped (t := t.setGeometry g) hBorrowed hAnswer
    rw [hAnswer] at hSteps
    exact ⟨_, hSteps.trans (.single (if_neg (Bool.eq_false_iff.mp hReleased))), ⟨rfl, rfl⟩, rfl⟩

/-- **The machine drags**: it ends, with the session and the answer of `Session.drag`. -/
theorem exists_steps_drag (k : Kernel α) (t : Session α ω) (p : PointRef) (target : Vec2 α)
    (rest : List (Frame α ω)) (answer : Bool) (begun installed : List (Callback α ω)) :
    ∃ m', Steps k ⟨t, answer, .drag p target :: rest, begun, installed⟩ m' ∧
      Returns (t.drag k p target).1 rest m' ∧ m'.answer = (t.drag k p target).2 := by
  rcases step_drag_cases k t p target answer rest begun installed with
    ⟨t', -, hRefused, hStep⟩ | ⟨hSolving, hBorrowed, hFree, previous, hPoint⟩
  · rw [hRefused]
    exact ⟨_, .single hStep, ⟨rfl, rfl⟩, rfl⟩
  · exact exists_steps_moved rest answer begun installed hSolving hBorrowed hFree hPoint

end Machine

end Session

end PlaneSketch
