import PlaneSketch.Proofs.Reentry.Machine

/-!
# Callbacks that call back

A callback may ask for another solve or drag, install a callback or change the sketch.  None of
this gets in the way of the call that runs it.

* `Machine.Stage`: the stages that a call goes through.
* `Machine.Stage.exists_step`: **from each stage the machine goes on to another one, until it has
  nothing left to do**; so nothing is touched while it is borrowed.
* `Machine.Safe`: what is so at each stage.
* `Session.reentry_safe`: between calls no solve is running, and every call goes through these
  stages to its end.
-/

namespace PlaneSketch

namespace Session

variable {α ω : Type}

namespace Machine

/-! ## Stages -/

/-- Below a solve there is nothing, or the rest of the drag that asked for it. -/
inductive Outer : List (Frame α ω) → Prop
  | none : Outer []
  | drag (p : PointRef) (previous : Vec2 α) : Outer [.putBack p previous]

/-- What a running callback may have on the stack: itself, and a request that it makes. -/
inductive Busy (taken : Callback α ω) : List (Frame α ω) → Prop
  | callback (program : Callback α ω) : Busy taken [.callback taken program]
  | await (rest : Bool → Callback α ω) : Busy taken [.await taken rest]
  | solve (active : Option PointRef) (program : Callback α ω) :
    Busy taken [.solve active, .callback taken program]
  | drag (p : PointRef) (target : Vec2 α) (rest : Bool → Callback α ω) :
    Busy taken [.drag p target, .await taken rest]

/-- The callback of `t` is running in `s`, where it has installed some callbacks. -/
structure Running (t : Session α ω) (taken : Callback α ω) (s : Session α ω)
    (installed : List (Callback α ω)) : Prop where
  own : t.callback = some taken
  slot : s.callback = installed.head?
  solving : s.solving = true
  borrowed : s.borrowed = false

/-- No callback of `t` was lost: each has been put back, unless it was replaced. -/
structure Kept (t s : Session α ω) (begun installed : List (Callback α ω)) : Prop where
  slot : s.callback = installed.head?.or t.callback
  begun : begun = [] ∧ installed = [] ∨
    (∃ taken, t.callback = some taken ∧ begun = [taken]) ∧ s.borrowed = false

/-- The stages of a call on `t`. -/
inductive Stage (t : Session α ω) : Machine α ω → Prop
  | drag {s : Session α ω} {answer : Bool} (p : PointRef) (target : Vec2 α)
    (hSolving : s.solving = false) (hSlot : s.callback = t.callback) :
    Stage t ⟨s, answer, [.drag p target], [], []⟩
  | solve {s : Session α ω} {answer : Bool} {rest : List (Frame α ω)} (active : Option PointRef)
    (hRest : Outer rest) (hSolving : s.solving = false) (hSlot : s.callback = t.callback) :
    Stage t ⟨s, answer, .solve active :: rest, [], []⟩
  | borrow {s : Session α ω} {answer : Bool} {rest : List (Frame α ω)}
    (active : Option PointRef) (hRest : Outer rest) (hSolving : s.solving = true)
    (hSlot : s.callback = t.callback) :
    Stage t ⟨s, answer, .borrow active :: .leave :: rest, [], []⟩
  | compute {s : Session α ω} {answer : Bool} {rest : List (Frame α ω)}
    (active : Option PointRef) (hRest : Outer rest) (hSolving : s.solving = true)
    (hSlot : s.callback = t.callback) :
    Stage t ⟨s, answer, .compute active :: .leave :: rest, [], []⟩
  | release {s : Session α ω} {answer : Bool} {next rest : List (Frame α ω)}
    (hNext : next = [] ∨ next = [.complete] ∨ next = [.notify, .complete]) (hRest : Outer rest)
    (hSolving : s.solving = true) (hSlot : s.callback = t.callback) :
    Stage t ⟨s, answer, .release :: (next ++ .leave :: rest), [], []⟩
  | notify {s : Session α ω} {answer : Bool} {rest : List (Frame α ω)} (hRest : Outer rest)
    (hSolving : s.solving = true) (hBorrowed : s.borrowed = false)
    (hSlot : s.callback = t.callback) :
    Stage t ⟨s, answer, .notify :: .complete :: .leave :: rest, [], []⟩
  | running {s : Session α ω} {answer : Bool} {taken : Callback α ω}
    {top rest : List (Frame α ω)} {installed : List (Callback α ω)} (hTop : Busy taken top)
    (hRest : Outer rest) (hRunning : Running t taken s installed) :
    Stage t ⟨s, answer, top ++ .complete :: .leave :: rest, [taken], installed⟩
  | complete {s : Session α ω} {answer : Bool} {rest : List (Frame α ω)}
    {begun installed : List (Callback α ω)} (hRest : Outer rest) (hSolving : s.solving = true)
    (hKept : Kept t s begun installed) :
    Stage t ⟨s, answer, .complete :: .leave :: rest, begun, installed⟩
  | leave {s : Session α ω} {answer : Bool} {rest : List (Frame α ω)}
    {begun installed : List (Callback α ω)} (hRest : Outer rest) (hSolving : s.solving = true)
    (hKept : Kept t s begun installed) :
    Stage t ⟨s, answer, .leave :: rest, begun, installed⟩
  | returned {s : Session α ω} {answer : Bool} {rest : List (Frame α ω)}
    {begun installed : List (Callback α ω)} (hRest : Outer rest) (hSolving : s.solving = false)
    (hKept : Kept t s begun installed) :
    Stage t ⟨s, answer, rest, begun, installed⟩

variable {t s : Session α ω} {m m' : Machine α ω} {taken : Callback α ω} {answer : Bool}
  {top rest : List (Frame α ω)} {installed : List (Callback α ω)}

theorem Kept.of_slot (hSlot : s.callback = t.callback) : Kept t s [] [] :=
  ⟨hSlot, .inl ⟨rfl, rfl⟩⟩

variable [Scalar α] {k : Kernel α}

/-- **A running callback goes on**, and each request that it makes is refused. -/
theorem Running.exists_step (hRunning : Running t taken s installed) (hTop : Busy taken top)
    (hRest : Outer rest) (answer : Bool) :
    ∃ m', step k ⟨s, answer, top ++ .complete :: .leave :: rest, [taken], installed⟩ = some m' ∧
      Stage t m' := by
  obtain ⟨hOwn, hSlot, hSolving, hBorrowed⟩ := hRunning
  cases hTop with
  | await program =>
    exact ⟨_, rfl, .running (.callback _) hRest ⟨hOwn, hSlot, hSolving, hBorrowed⟩⟩
  | solve active program =>
    exact ⟨_, step_nested_solve hSolving,
      .running (.callback program) hRest ⟨hOwn, hSlot, hSolving, hBorrowed⟩⟩
  | drag p target program =>
    exact ⟨_, step_nested_drag hSolving p target,
      .running (.await program) hRest ⟨hOwn, hSlot, hSolving, hBorrowed⟩⟩
  | callback program =>
    cases program with
    | done =>
      refine ⟨_, rfl, .complete hRest hSolving ⟨?_, .inr ⟨⟨taken, hOwn, rfl⟩, hBorrowed⟩⟩⟩
      rw [hOwn, ← hSlot]
    | solve active program =>
      exact ⟨_, rfl, .running (.solve active program) hRest ⟨hOwn, hSlot, hSolving, hBorrowed⟩⟩
    | drag p target program =>
      exact ⟨_, rfl, .running (.drag p target program) hRest ⟨hOwn, hSlot, hSolving, hBorrowed⟩⟩
    | install callback program =>
      exact ⟨_, rfl, .running (.callback program) hRest ⟨hOwn, rfl, hSolving, hBorrowed⟩⟩
    | configure change program =>
      exact ⟨_, rfl, .running (.callback program) hRest ⟨hOwn, hSlot, hSolving, hBorrowed⟩⟩
    | edit change program =>
      exact ⟨_, if_neg (Bool.eq_false_iff.mp hBorrowed),
        .running (.callback program) hRest ⟨hOwn, hSlot, hSolving, hBorrowed⟩⟩
    | look program =>
      exact ⟨_, if_neg (Bool.eq_false_iff.mp hBorrowed),
        .running (.callback _) hRest ⟨hOwn, hSlot, hSolving, hBorrowed⟩⟩
    | send message program =>
      exact ⟨_, rfl, .running (.callback program) hRest ⟨hOwn, hSlot, hSolving, hBorrowed⟩⟩

/-- **From each stage the machine goes on to another one, until it has nothing left to do.** -/
theorem Stage.exists_step (h : Stage t m) (k : Kernel α) :
    m.stack = [] ∨ ∃ m', m.step k = some m' ∧ Stage t m' := by
  cases h with
  | @drag s answer p target hSolving hSlot =>
    right
    rcases step_drag_cases k s p target answer [] [] [] with
      ⟨s', hSession, -, hStep⟩ | ⟨-, hBorrowed, hFree, previous, hPoint⟩
    · refine ⟨_, hStep, ?_⟩
      rcases hSession with rfl | ⟨e, rfl⟩
      · exact .returned .none hSolving (.of_slot hSlot)
      · exact .returned .none hSolving (.of_slot hSlot)
    · obtain ⟨g, hMoved⟩ := exists_setPoint?_getD s p target
      refine ⟨_, step_drag_of_point hSolving hBorrowed hFree hPoint, ?_⟩
      rw [hMoved]
      exact .solve (some p) (.drag p previous) hSolving hSlot
  | solve active hRest hSolving hSlot =>
    exact .inr ⟨_, if_neg (Bool.eq_false_iff.mp hSolving), .borrow active hRest rfl hSlot⟩
  | @borrow s answer rest active hRest hSolving hSlot =>
    right
    by_cases hBorrowed : s.borrowed = true
    · exact ⟨_, if_pos hBorrowed, .leave hRest hSolving (.of_slot hSlot)⟩
    · exact ⟨_, if_neg hBorrowed, .compute active hRest hSolving hSlot⟩
  | @compute s answer rest active hRest hSolving hSlot =>
    right
    cases hRun : Solve.run k s.config s.sketch active with
    | error e =>
      exact ⟨_, step_compute_of_error hRun, .release (.inl rfl) hRest hSolving hSlot⟩
    | ok r =>
      refine ⟨_, step_compute_of_ok hRun, ?_⟩
      split
      · exact .release (.inr (.inr rfl)) hRest hSolving hSlot
      · exact .release (.inr (.inl rfl)) hRest hSolving hSlot
  | release hNext hRest hSolving hSlot =>
    right
    refine ⟨_, rfl, ?_⟩
    rcases hNext with rfl | rfl | rfl
    · exact .leave hRest hSolving (.of_slot hSlot)
    · exact .complete hRest hSolving (.of_slot hSlot)
    · exact .notify hRest hSolving rfl hSlot
  | @notify s answer rest hRest hSolving hBorrowed hSlot =>
    right
    cases hCallback : s.callback with
    | none =>
      exact ⟨_, step_notify_of_none hCallback, .complete hRest hSolving (.of_slot hSlot)⟩
    | some taken =>
      exact ⟨_, step_notify_of_some hCallback,
        .running (.callback taken) hRest ⟨hSlot.symm.trans hCallback, rfl, hSolving, hBorrowed⟩⟩
  | running hTop hRest hRunning => exact .inr (hRunning.exists_step hTop hRest _)
  | complete hRest hSolving hKept => exact .inr ⟨_, rfl, .leave hRest hSolving hKept⟩
  | leave hRest hSolving hKept =>
    exact .inr ⟨_, rfl, .returned hRest rfl ⟨hKept.slot, hKept.begun⟩⟩
  | @returned s answer rest begun installed hRest hSolving hKept =>
    cases hRest with
    | none => exact .inl rfl
    | drag p previous =>
      right
      obtain ⟨g, hPutBack⟩ := exists_setPoint?_getD s p previous
      cases answer with
      | true => exact ⟨_, rfl, .returned .none hSolving hKept⟩
      | false =>
        by_cases hBorrowed : s.borrowed = true
        · exact ⟨_, if_pos hBorrowed, .returned .none hSolving hKept⟩
        · refine ⟨_, if_neg hBorrowed, ?_⟩
          rw [hPutBack]
          exact .returned .none hSolving ⟨hKept.slot, hKept.begun⟩

/-- **Every machine on the way of a call is at one of its stages.** -/
theorem Stage.of_steps (h : Stage t m) (hSteps : Steps k m m') : Stage t m' := by
  induction hSteps with
  | refl => exact h
  | tail _ hStep ih =>
    -- there is one step at most, so the one that was taken is the one that leads to a stage
    rcases ih.exists_step k with hEnd | ⟨next, hNext, hStage⟩
    · rw [step, hEnd] at hStep
      exact absurd hStep (by simp)
    · obtain rfl := Option.some.inj (hStep.symm.trans hNext)
      exact hStage

/-! ## What is so at every stage -/

omit [Scalar α] in
theorem Stage.begun_eq (h : Stage t m) : m.begun = [] ∨
    (∃ taken, t.callback = some taken ∧ m.begun = [taken]) ∧ m.session.borrowed = false := by
  cases h with
  | drag | solve | borrow | compute | release | notify => exact .inl rfl
  | running hTop hRest hRunning =>
    exact .inr ⟨⟨_, hRunning.own, rfl⟩, hRunning.borrowed⟩
  | complete hRest hSolving hKept => exact hKept.begun.imp And.left id
  | leave hRest hSolving hKept => exact hKept.begun.imp And.left id
  | returned hRest hSolving hKept => exact hKept.begun.imp And.left id

omit [Scalar α] in
/-- Once a callback has begun the flag is set until nothing can be asked for any more. -/
theorem Stage.solving_of_begun (h : Stage t m) (hBegun : m.begun ≠ []) :
    m.session.solving = true ∨ Outer m.stack := by
  cases h with
  | drag | solve | borrow | compute | release | notify => exact absurd rfl hBegun
  | running hTop hRest hRunning => exact .inl hRunning.solving
  | complete hRest hSolving hKept => exact .inl hSolving
  | leave hRest hSolving hKept => exact .inl hSolving
  | returned hRest hSolving hKept => exact .inr hRest

omit [Scalar α] in
theorem Stage.running_of_callback (h : Stage t m) {program : Callback α ω}
    (hStack : m.stack = .callback taken program :: rest) :
    m.begun = [taken] ∧ m.session.solving = true ∧ m.session.borrowed = false := by
  cases h with
  | drag | solve | borrow | compute | release | notify | complete | leave =>
    exact absurd hStack (by simp)
  | running hTop hRest hRunning =>
    cases hTop with
    | callback program' =>
      obtain ⟨rfl, rfl⟩ := Frame.callback.inj (List.cons.inj hStack).1
      exact ⟨rfl, hRunning.solving, hRunning.borrowed⟩
    | await | solve | drag => exact absurd hStack (by simp)
  | returned hRest hSolving hKept =>
    cases hRest with
    | none | drag => exact absurd hStack (by simp)

omit [Scalar α] in
theorem Stage.ended (h : Stage t m) (hEnd : m.stack = []) : m.session.solving = false ∧
    m.session.callback = m.installed.head?.or t.callback ∧ (m.begun = [] → m.installed = []) := by
  cases h with
  | drag | solve | borrow | compute | release | notify | running | complete | leave =>
    exact absurd hEnd (by simp)
  | returned hRest hSolving hKept =>
    refine ⟨hSolving, hKept.slot, fun hNone => ?_⟩
    rcases hKept.begun with ⟨-, hInstalled⟩ | ⟨⟨taken, -, hBegun⟩, -⟩
    · exact hInstalled
    · exact absurd (hNone.symm.trans hBegun) (by simp)

/-- What is so at every step of a call on `t`. -/
structure Safe (k : Kernel α) (t : Session α ω) (m : Machine α ω) : Prop where
  /-- At most one callback has begun, and that is the one which was installed. -/
  begun : m.begun = [] ∨ ∃ taken, t.callback = some taken ∧ m.begun = [taken]
  /-- It runs when nobody holds the sketch, while the flag is set. -/
  running : ∀ taken program rest, m.stack = .callback taken program :: rest →
    m.begun = [taken] ∧ m.session.solving = true ∧ m.session.borrowed = false
  /-- A solve that it asks for is refused: one step, of which only the log tells. -/
  solve : ∀ active rest, m.begun ≠ [] → m.stack = .solve active :: rest →
    m.step k = some { m.refuse .solveWhileSolving with stack := rest }
  /-- A drag that it asks for is refused: one step, which leaves nothing but the answer. -/
  drag : ∀ p target rest, m.begun ≠ [] → m.stack = .drag p target :: rest →
    m.step k = some { m with answer := false, stack := rest }
  /-- The machine is not stuck, so nothing is touched while it is borrowed. -/
  progress : m.stack ≠ [] → (m.step k).isSome
  /-- At the end the flag is reset, and the callback is the one that was installed last. -/
  ended : m.stack = [] → m.session.solving = false ∧
    m.session.callback = m.installed.head?.or t.callback ∧ (m.begun = [] → m.installed = [])

theorem Stage.safe (h : Stage t m) (k : Kernel α) : Safe k t m where
  begun := h.begun_eq.imp_right And.left
  running _ _ _ hStack := h.running_of_callback hStack
  solve active rest hBegun hStack := by
    rcases h.solving_of_begun hBegun with hSolving | hOuter
    · obtain ⟨s, answer, stack, begun, installed⟩ := m
      obtain rfl : stack = .solve active :: rest := hStack
      exact step_nested_solve hSolving
    · rw [hStack] at hOuter
      cases hOuter
  drag p target rest hBegun hStack := by
    rcases h.solving_of_begun hBegun with hSolving | hOuter
    · obtain ⟨s, answer, stack, begun, installed⟩ := m
      obtain rfl : stack = .drag p target :: rest := hStack
      exact step_nested_drag hSolving p target
    · rw [hStack] at hOuter
      cases hOuter
  progress hStack := by
    rcases h.exists_step k with hEnd | ⟨m', hStep, -⟩
    · exact absurd hEnd hStack
    · rw [hStep]
      rfl
  ended := h.ended

/-- The machine runs a call from its beginning to its result, and is safe all the way. -/
def Runs (k : Kernel α) (t : Session α ω) (frame : Frame α ω) (result : Session α ω × Bool) :
    Prop :=
  ∃ m, Steps k (start t frame) m ∧ m.stack = [] ∧ (m.session, m.answer) = result ∧
    ∀ m', Steps k (start t frame) m' → Safe k t m' ∧ Steps k m' m

theorem Stage.runs {frame : Frame α ω} {result : Session α ω × Bool}
    (h : Stage t (start t frame))
    (hRun : ∃ m, Steps k (start t frame) m ∧ Returns result.1 [] m ∧ m.answer = result.2) :
    Runs k t frame result := by
  obtain ⟨m, hSteps, hReturns, hAnswer⟩ := hRun
  refine ⟨m, hSteps, hReturns.stack, Prod.ext hReturns.session hAnswer, fun m' hPart => ?_⟩
  exact ⟨(h.of_steps hPart).safe k, hSteps.of_steps_of_stack_eq_nil hReturns.stack hPart⟩

theorem runs_solve (k : Kernel α) (hSolving : t.solving = false) (active : Option PointRef) :
    Runs k t (.solve active) (t.solve k active) :=
  (Stage.solve active .none hSolving rfl).runs (exists_steps_solve k t active [] false [] [])

theorem runs_drag (k : Kernel α) (hSolving : t.solving = false) (p : PointRef) (target : Vec2 α) :
    Runs k t (.drag p target) (t.drag k p target) :=
  (Stage.drag p target hSolving rfl).runs (exists_steps_drag k t p target [] false [] [])

/-- A call resets the flag. -/
theorem Runs.solving {frame : Frame α ω} {result : Session α ω × Bool}
    (h : Runs k t frame result) : result.1.solving = false := by
  obtain ⟨m, hSteps, hEnd, rfl, hSafe⟩ := h
  exact ((hSafe m hSteps).1.ended hEnd).1

end Machine

/-! ## Calls one after the other -/

/-- What may be asked of a solver from outside. -/
inductive Call (α ω : Type) where
  | solve (active : Option PointRef)
  | drag (p : PointRef) (target : Vec2 α)
  | install (callback : Callback α ω)
  | setBackend (backend : Backend)
  | setConfig (config : Config α)
  | edit (change : Sketch α → Sketch α)
  /-- Someone else takes hold of the sketch, or lets go of it. -/
  | hold (borrowed : Bool)

variable [Scalar α]

def Call.exec (k : Kernel α) (t : Session α ω) : Call α ω → Session α ω
  | .solve active => (t.solve k active).1
  | .drag p target => (t.drag k p target).1
  | .install callback => t.setCallback callback
  | .setBackend backend => t.setBackend backend
  | .setConfig config => t.setConfig config
  | .edit change => { t with sketch := change t.sketch }
  | .hold borrowed => { t with borrowed }

theorem solving_exec (k : Kernel α) {t : Session α ω} (hSolving : t.solving = false)
    (call : Call α ω) : (call.exec k t).solving = false := by
  cases call with
  | solve active => exact (Machine.runs_solve k hSolving active).solving
  | drag p target => exact (Machine.runs_drag k hSolving p target).solving
  | install | setBackend | setConfig | edit | hold => exact hSolving

theorem solving_foldl_exec (k : Kernel α) {t : Session α ω} (hSolving : t.solving = false)
    (calls : List (Call α ω)) : (calls.foldl (Call.exec k) t).solving = false := by
  induction calls generalizing t with
  | nil => exact hSolving
  | cons call calls ih => exact ih (solving_exec k hSolving call)

/-- **Callbacks may call back.**  Whatever was asked of a solver before, no solve is running, and
the next solve or drag runs to its result: it lets at most one callback run, the one that is
installed, after it has given the sketch back; each request of that callback is refused; and it
leaves the callback that was installed last. -/
theorem reentry_safe (k : Kernel α) (config : Config α) (calls : List (Call α ω)) :
    let t := calls.foldl (Call.exec k) (Session.new config)
    t.solving = false ∧
      (∀ active, Machine.Runs k t (.solve active) (t.solve k active)) ∧
      ∀ p target, Machine.Runs k t (.drag p target) (t.drag k p target) := by
  intro t
  have hSolving : t.solving = false := solving_foldl_exec k rfl calls
  exact ⟨hSolving, fun active => Machine.runs_solve k hSolving active,
    fun p target => Machine.runs_drag k hSolving p target⟩

end Session

end PlaneSketch
