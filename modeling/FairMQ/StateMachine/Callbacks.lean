import FairMQ.StateMachine.Consistent

namespace FairMQ.StateMachine

open FairMQ.Data

def Event.settles : Event → Bool
  | .initDevice | .initTask | .resetTask | .resetDevice => true
  | _ => false

/-- The controller issues legal `INIT_DEVICE`, `INIT_TASK`, `RESET_TASK` and
`RESET_DEVICE` events, each followed by its `WaitForEndOfState`. -/
def Alternates (machine : Machine) : Action → Prop
  | .request event =>
      machine.controller = .idle ∧ event.settles = true ∧
        (transitionTable machine.fState event).isSome = true
  | .waitForEndOfState event => machine.controller = .returned event
  | _ => True

instance (machine : Machine) (action : Action) : Decidable (Alternates machine action) := by
  unfold Alternates
  split <;> infer_instance

/-- The controller does not write `fState` between the end of the work and the
worker's reread. -/
def Reread (machine : Machine) : Action → Prop
  | .write .controller => machine.worker ≠ .announcing
  | _ => True

instance (machine : Machine) (action : Action) : Decidable (Reread machine action) := by
  unfold Reread
  split <;> infer_instance

def Machine.quiet (machine : Machine) : Bool :=
  machine.worker == .waiting && !machine.fWorkAvailable && !machine.controller.holds

def pendingCallbacks (controller : Controller) (available : Bool) (state : State) : List State :=
  match controller with
  | .changing (.wrote _ _) => [state]
  | _ => if available then [state] else []

def failure (state : State) : List State :=
  if state = .error then [.error] else []

def Wrapper.owedCallbacks (wrapper : Wrapper) (state : State) : Stage → List State
  | .begun => wrapper.announces :: failure state
  | .body => failure state
  | .post => [state]

def owedCallbacks (worker : Worker) (state : State) (pending : List State) : List State :=
  match worker with
  | .handling wrapper stage => wrapper.owedCallbacks state stage
  | .changing (.wrote _ _) wrapper resume => wrapper.owedCallbacks state resume
  | .changing _ wrapper .post => wrapper.owedCallbacks state .body
  | .changing _ wrapper resume => wrapper.owedCallbacks state resume
  | .finishing | .announcing => [state]
  | .announce last => last :: pending
  | .waiting | .stopped => pending

def Machine.pending (machine : Machine) : List State :=
  pendingCallbacks machine.controller machine.fWorkAvailable machine.fState

def Machine.owed (machine : Machine) : List State :=
  owedCallbacks machine.worker machine.fState machine.pending

def Controller.beforePost : Controller → Bool
  | .idle | .changing _ => true
  | .returned _ | .waiting _ => false

def Controller.Settles : Controller → Prop
  | .changing call => call.event.settles = true
  | .returned event => event.settles = true
  | _ => True

structure Tracked (machine : Machine) : Prop where
  settled : machine.controller.beforePost = true →
    machine.fWorkAvailable = false ∧ machine.fWorkActive = false
  requested : machine.controller.Settles
  posted : machine.untaken = true → ∃ wrapper,
    machine.fWork = some wrapper ∧ wrapper.announces = machine.fState
  reread : machine.worker = .announcing → machine.pending = []
  covered : machine.entered.Sublist (machine.announced ++ machine.owed)

theorem Wrapper.announces_ne_error (wrapper : Wrapper) : wrapper.announces ≠ .error := by
  cases wrapper <;> decide

theorem settling_row {state : State} {event : Event} {row : Row}
    (found : transitionTable state event = some row) (settles : event.settles = true) :
    row.action = .defaultFct := by
  cases state <;> cases event <;> simp [transitionTable] at found <;> subst found <;>
    simp_all [Event.settles]

@[simp] theorem failure_error : failure .error = [.error] := rfl

theorem failure_sublist (state : State) : (failure state).Sublist [state] := by
  unfold failure
  by_cases isError : state = .error
  · simp [isError]
  · simp [isError]

theorem failure_of_row {state : State} {event : Event} {row : Row}
    (found : transitionTable state event = some row) : failure state = [] := by
  unfold failure
  by_cases isError : state = .error
  · subst isError
    simp [transitionTable] at found
  · simp [isError]

section Moves

variable {machine : Machine} {mutex : Option Thread}

theorem Tracked.moveWorker (tracked : Tracked machine) {worker : Worker}
    {announced : List State} (reread : worker ≠ .announcing)
    (covered : machine.entered.Sublist
      (announced ++ owedCallbacks worker machine.fState machine.pending)) :
    Tracked { machine with worker, announced, fChangeStateMutex := mutex } where
  settled := tracked.settled
  requested := tracked.requested
  posted := tracked.posted
  reread := fun announcing => absurd announcing reread
  covered := covered

theorem Tracked.advanceWorker (tracked : Tracked machine) {worker : Worker}
    (reread : worker ≠ .announcing)
    (grows : machine.owed.Sublist (owedCallbacks worker machine.fState machine.pending)) :
    Tracked { machine with worker, fChangeStateMutex := mutex } :=
  tracked.moveWorker reread (tracked.covered.trans (grows.append_left machine.announced))

theorem Tracked.moveController (tracked : Tracked machine) {controller : Controller}
    (settled : controller.beforePost = true →
      machine.fWorkAvailable = false ∧ machine.fWorkActive = false)
    (requested : controller.Settles)
    (pending : pendingCallbacks controller machine.fWorkAvailable machine.fState =
      machine.pending) :
    Tracked { machine with controller, fChangeStateMutex := mutex } where
  settled := settled
  requested := requested
  posted := tracked.posted
  reread := fun announcing => pending.trans (tracked.reread announcing)
  covered := by
    have covered := tracked.covered
    unfold Machine.owed Machine.pending at covered ⊢
    rwa [pending]

end Moves

theorem pending_of_outside {controller : Controller} (outside : controller.holds = false)
    (available : Bool) (state : State) :
    pendingCallbacks controller available state = if available then [state] else [] := by
  unfold pendingCallbacks
  split
  · simp at outside
  · rfl

theorem Controller.outside_of_posted {controller : Controller}
    (returned : controller.beforePost = false) : controller.holds = false := by
  cases controller with
  | idle => rfl
  | returned event => rfl
  | waiting event => rfl
  | changing call => simp [Controller.beforePost] at returned

theorem Tracked.outside_of_active {machine : Machine} (tracked : Tracked machine)
    (active : machine.fWorkActive = true) : machine.controller.holds = false := by
  apply Controller.outside_of_posted
  cases phase : machine.controller.beforePost with
  | false => rfl
  | true =>
      have inactive := (tracked.settled phase).2
      simp [active] at inactive

theorem Tracked.write {machine : Machine} {event : Event} {row : Row}
    (consistent : Consistent machine) (tracked : Tracked machine)
    (calling : machine.controller = .changing (.acting event row))
    (permitted : machine.worker ≠ .announcing) :
    Tracked { machine with
      controller := .changing (.wrote event row), fState := row.target
      lastEvent := some event, entered := machine.entered ++ [row.target] } := by
  obtain ⟨unavailable, inactive⟩ := tracked.settled (by rw [calling]; rfl)
  have resting : machine.worker.active = false := consistent.active.symm.trans inactive
  refine ⟨fun _ => ⟨unavailable, inactive⟩, ?_, ?_, ?_, ?_⟩
  · have requested := tracked.requested
    rw [calling] at requested
    exact requested
  · intro untaken
    simp [Machine.untaken, unavailable] at untaken
  · intro announcing
    exact absurd announcing permitted
  · have covered := tracked.covered.append_right [row.target]
    simp only [Machine.owed, Machine.pending, calling, unavailable] at covered ⊢
    cases worker : machine.worker with
    | waiting => simpa [worker, owedCallbacks, pendingCallbacks] using covered
    | stopped => simpa [worker, owedCallbacks, pendingCallbacks] using covered
    | announce last => simpa [worker, owedCallbacks, pendingCallbacks] using covered
    | announcing => exact absurd worker permitted
    | handling wrapper stage => simp [worker] at resting
    | changing call wrapper resume => simp [worker] at resting
    | finishing => simp [worker] at resting

theorem Tracked.complete {machine finished : Machine} {event : Event} {row : Row}
    (consistent : Consistent machine) (tracked : Tracked machine)
    (calling : machine.controller = .changing (.wrote event row))
    (acted : machine.finishAction event row.action = some finished) :
    Tracked { finished with controller := .returned event, fChangeStateMutex := none } := by
  obtain ⟨target, source, found⟩ := consistent.controllerCall _ calling
  have settles : event.settles = true := by
    have requested := tracked.requested
    rw [calling] at requested
    exact requested
  have isDefault := settling_row found settles
  obtain ⟨registered, same, announces⟩ := default_row_handler found isDefault
  rw [isDefault] at acted
  rcases Machine.finishAction_cases acted with
    ⟨other, _⟩ | ⟨other, _⟩ | ⟨wrapper, _, _, handler, rfl⟩ | ⟨other, _⟩ | ⟨other, _⟩
  · simp at other
  · simp at other
  · rw [same] at handler
    cases handler
    refine ⟨by simp [Controller.beforePost], settles, ?_, ?_, ?_⟩
    · intro _
      exact ⟨registered, rfl, announces.trans target.symm⟩
    · intro announcing
      have nothing := tracked.reread announcing
      simp [Machine.pending, calling, pendingCallbacks] at nothing
    · have covered := tracked.covered
      simp only [Machine.owed, Machine.pending, calling] at covered
      exact covered
  · simp at other
  · simp at other

theorem Tracked.workerWrite {machine : Machine} {event : Event} {row : Row} {wrapper : Wrapper}
    {resume : Stage} (consistent : Consistent machine) (tracked : Tracked machine)
    (calling : machine.worker = .changing (.acting event row) wrapper resume) :
    Tracked { machine with
      worker := .changing (.wrote event row) wrapper resume, fState := row.target
      lastEvent := some event, entered := machine.entered ++ [row.target] } := by
  have active : machine.fWorkActive = true := by simpa [calling] using consistent.active
  have found : transitionTable machine.fState event = some row :=
    consistent.workerCall _ _ _ calling
  refine ⟨tracked.settled, tracked.requested, ?_, by simp, ?_⟩
  · intro untaken
    simp [Machine.untaken, active] at untaken
  · have covered := tracked.covered.append_right [row.target]
    have healthy := failure_of_row found
    simp only [Machine.owed, calling] at covered ⊢
    rcases consistent.issued _ _ _ calling with ⟨raised, _, early⟩ | ⟨_, isPost⟩
    · have target : row.target = .error := by
        simp only [Call.event_acting] at raised
        subst raised
        exact errorFound_target found
      rw [target] at covered ⊢
      cases resume with
      | begun => simpa [owedCallbacks, Wrapper.owedCallbacks, healthy] using covered
      | body =>
          simpa only [owedCallbacks, Wrapper.owedCallbacks, healthy, failure_error,
            List.append_nil] using covered
      | post => exact absurd rfl early
    · subst isPost
      simpa [owedCallbacks, Wrapper.owedCallbacks, healthy] using covered

theorem Tracked.workerComplete {machine finished : Machine} {event : Event} {row : Row}
    {wrapper : Wrapper} {resume : Stage} (consistent : Consistent machine)
    (tracked : Tracked machine)
    (calling : machine.worker = .changing (.wrote event row) wrapper resume)
    (acted : machine.finishAction event row.action = some finished) :
    Tracked { finished with worker := .handling wrapper resume, fChangeStateMutex := none } := by
  have never := consistent.worker_row calling
  have same : machine.owed.Sublist
      (owedCallbacks (.handling wrapper resume) machine.fState machine.pending) := by
    simp [Machine.owed, calling, owedCallbacks]
  have reported : ∀ state, machine.entered.Sublist (machine.announced ++ [state] ++
      owedCallbacks (.handling wrapper resume) machine.fState machine.pending) := by
    intro state
    exact tracked.covered.trans ((List.sublist_append_left machine.announced [state]).append same)
  rcases Machine.finishAction_cases acted with
    ⟨_, rfl⟩ | ⟨_, _, rfl⟩ | ⟨_, isDefault, _, _, _⟩ | ⟨_, rfl⟩ | ⟨_, rfl⟩
  · exact tracked.advanceWorker (by simp) same
  · exact tracked.advanceWorker (by simp) same
  · simp [isDefault, Fct.waits] at never
  · exact ⟨tracked.settled, tracked.requested, tracked.posted, by simp, reported .exiting⟩
  · exact tracked.moveWorker (by simp) (reported .error)

theorem Tracked.takeWork {machine : Machine} {wrapper : Wrapper} (consistent : Consistent machine)
    (tracked : Tracked machine) (waiting : machine.worker = .waiting)
    (available : machine.fWorkAvailable = true) (work : machine.fWork = some wrapper) :
    Tracked { machine with fWorkActive := true, worker := .handling wrapper .begun } := by
  have inactive : machine.fWorkActive = false := by simpa [waiting] using consistent.active
  obtain ⟨registered, same, announces⟩ :=
    tracked.posted (by simp [Machine.untaken, available, inactive])
  rw [work] at same
  cases same
  have returned : machine.controller.beforePost = false := by
    cases phase : machine.controller.beforePost with
    | false => rfl
    | true =>
        have unavailable := (tracked.settled phase).1
        simp [available] at unavailable
  refine ⟨?_, tracked.requested, by simp [Machine.untaken], by simp, ?_⟩
  · intro phase
    change machine.controller.beforePost = true at phase
    simp [returned] at phase
  · have covered := tracked.covered
    have healthy : failure machine.fState = [] := by
      simp [failure, ← announces, Wrapper.announces_ne_error]
    have pending : machine.pending = [machine.fState] := by
      rw [Machine.pending, pending_of_outside (Controller.outside_of_posted returned), available]
      rfl
    simp only [Machine.owed, waiting, owedCallbacks, pending] at covered
    simpa [Machine.owed, owedCallbacks, Wrapper.owedCallbacks, healthy, announces] using covered

theorem Tracked.step {machine after : Machine} {action : Action}
    (consistent : Consistent machine) (tracked : Tracked machine)
    (alternates : Alternates machine action) (permitted : Reread machine action)
    (stepped : machine.step action = some after) : Tracked after := by
  have active := consistent.active
  have covered := tracked.covered
  have requested := tracked.requested
  cases Machine.step_effect stepped with
  | request _ =>
      obtain ⟨idle, settles, _⟩ := alternates
      refine tracked.moveController (fun _ => tracked.settled (by rw [idle]; rfl)) settles ?_
      simp [Machine.pending, idle, pendingCallbacks]
  | @waitForEndOfState event controller _ target =>
      have returned : machine.controller = .returned event := alternates
      rw [returned] at requested
      rcases target with rfl | ⟨_, other⟩
      · refine tracked.moveController (by simp [Controller.beforePost]) trivial ?_
        simp [Machine.pending, returned, pendingCallbacks]
      · change event.settles = true at requested
        cases event <;> simp [Event.settles] at requested other
  | endOfState waiting inactive unavailable =>
      refine tracked.moveController (fun _ => ⟨unavailable, inactive⟩) trivial ?_
      simp [Machine.pending, waiting, pendingCallbacks]
  | lockIgnored calling _ _ =>
      rw [calling] at requested
      refine tracked.moveController (by simp [Controller.beforePost]) requested ?_
      simp [Machine.pending, calling, pendingCallbacks]
  | lockTaken calling _ _ =>
      rw [calling] at requested
      refine tracked.moveController (fun _ => tracked.settled (by rw [calling]; rfl)) requested ?_
      simp [Machine.pending, calling, pendingCallbacks]
  | write calling => exact tracked.write consistent calling permitted
  | complete calling acted => exact tracked.complete consistent calling acted
  | @workerLockIgnored _ wrapper resume calling _ _ =>
      refine tracked.advanceWorker (by simp) ?_
      rw [Machine.owed, calling]
      cases resume with
      | begun => exact .refl _
      | body => exact .refl _
      | post => exact failure_sublist _
  | @workerLockTaken _ _ wrapper resume calling _ _ =>
      refine tracked.advanceWorker (by simp) ?_
      rw [Machine.owed, calling]
      cases resume <;> exact .refl _
  | workerWrite calling => exact tracked.workerWrite consistent calling
  | workerComplete calling acted => exact tracked.workerComplete consistent calling acted
  | terminate waiting _ =>
      refine tracked.advanceWorker (by simp) ?_
      rw [Machine.owed, waiting]
      exact .refl _
  | takeWork waiting _ available work => exact tracked.takeWork consistent waiting available work
  | callback handling =>
      refine tracked.moveWorker (by simp) ?_
      simpa [Machine.owed, handling, owedCallbacks, Wrapper.owedCallbacks] using covered
  | @raiseError stage handling early =>
      refine tracked.advanceWorker (by simp) ?_
      rw [Machine.owed, handling]
      cases stage with
      | begun => exact .refl _
      | body => exact .refl _
      | post => exact absurd rfl early
  | callInternal handling _ _ =>
      refine tracked.advanceWorker (by simp) ?_
      rw [Machine.owed, handling]
      exact .refl _
  | skipInternal handling _ =>
      refine tracked.advanceWorker (by simp) ?_
      rw [Machine.owed, handling]
      exact failure_sublist _
  | wrapperReturns handling =>
      refine tracked.advanceWorker (by simp) ?_
      rw [Machine.owed, handling]
      exact .refl _
  | finishWork finishing =>
      have running : machine.fWorkActive = true := by simpa [finishing] using active
      refine ⟨fun _ => ⟨rfl, rfl⟩, requested, by simp [Machine.untaken], ?_, ?_⟩
      · intro _
        exact pending_of_outside (tracked.outside_of_active running) false machine.fState
      · simpa [Machine.owed, finishing, owedCallbacks] using covered
  | readState announcing =>
      refine tracked.advanceWorker (by simp) ?_
      rw [Machine.owed, announcing, tracked.reread announcing]
      exact .refl _
  | deliver announce =>
      refine tracked.moveWorker (by simp) ?_
      simpa [Machine.owed, announce, owedCallbacks] using covered

/-- An alternating controller that lets the worker reread `fState` hides no
state: whenever no callback is outstanding, the callbacks contain the states of
`fState` in their order. -/
theorem reread_reports_every_state {machine : Machine}
    (reached : machineSystem.ReachesUnder
      (fun before action => Alternates before action ∧ Reread before action) machine)
    (quiet : machine.quiet = true) : machine.entered.Sublist machine.announced := by
  have tracked : Tracked machine := by
    refine reached.relative (fun _ => consistent_of_reaches) ?_ ?_
    · intro state start
      cases start
      refine ⟨fun _ => ⟨rfl, rfl⟩, trivial, by simp [Machine.untaken, Machine.start], ?_, .refl _⟩
      intro announcing
      cases announcing
    · intro before action after consistent tracked permitted stepped
      exact tracked.step consistent permitted.1 permitted.2 stepped
  simp only [Machine.quiet, Bool.and_eq_true, beq_iff_eq, Bool.not_eq_true'] at quiet
  obtain ⟨⟨waiting, unavailable⟩, outside⟩ := quiet
  have settled : machine.owed = [] := by
    rw [Machine.owed, waiting, Machine.pending, pending_of_outside outside, unavailable]
    rfl
  simpa [settled] using tracked.covered

/-- `INIT_DEVICE` and `INIT_TASK`, each waited for; `reread` says whether the
worker rereads `fState` before or after the controller's next write. -/
def initSequence (reread : Bool) : List Action :=
  changeTrace .initDevice ++ [.waitForEndOfState .initDevice] ++
    [.takeWork, .callback, .bodyReturns, .lock .worker, .write .worker, .complete .worker,
      .wrapperReturns, .finishWork, .endOfState] ++
    (if reread then [.readState] ++ changeTrace .initTask
    else [.request .initTask, .lock .controller, .write .controller, .readState,
      .complete .controller]) ++
    [.deliver, .waitForEndOfState .initTask] ++ workTrace

theorem reread_init_sequence_reported :
    ∃ machine, machineSystem.ReachesUnder
        (fun before action => Alternates before action ∧ Reread before action) machine ∧
      machine.quiet = true ∧
      machine.entered = [.initializingDevice, .deviceReady, .initializingTask, .ready] ∧
      machine.entered.Sublist machine.announced := by
  obtain ⟨machine, reached, quiet, entered⟩ :
      ∃ machine, machineSystem.ReachesUnder
          (fun before action => Alternates before action ∧ Reread before action) machine ∧
        machine.quiet = true ∧
        machine.entered = [.initializingDevice, .deviceReady, .initializingTask, .ready] :=
    TransitionSystem.reaches_of_runUnder Machine.start (initSequence true) rfl (by decide)
  exact ⟨machine, reached, quiet, entered, reread_reports_every_state reached quiet⟩

/-- The next `ChangeState` overtakes the reread: `DEVICE_READY` is never
reported and `INITIALIZING_TASK` is reported twice. -/
theorem overtaken_reread_hides_device_ready :
    ∃ machine, machineSystem.ReachesUnder Alternates machine ∧ machine.quiet = true ∧
      ¬ machine.entered.Sublist machine.announced :=
  TransitionSystem.reaches_of_runUnder Machine.start (initSequence false) rfl (by decide)

end FairMQ.StateMachine
