import FairMQ.StateMachine.Consistent

namespace FairMQ.StateMachine

open FairMQ.Data

/-- The controller waits for `fWorkActive` inside `DefaultFct` or `StopFct`
while the active worker waits for `fChangeStateMutex`. -/
def Machine.deadlocked (machine : Machine) : Bool :=
  match machine.controller, machine.worker with
  | .changing (.wrote _ row), .changing (.lock _) _ _ =>
      row.action.waits && machine.fWorkActive
  | _, _ => false

/-- Whether a wrapper at `stage` goes on to call `ChangeState` if `fState` keeps
the value `state`. -/
def Wrapper.stillCalls (wrapper : Wrapper) (state : State) : Stage → Bool
  | .post => false
  | .begun | .body =>
      match wrapper with
      | .runWrapper => state == .running
      | .pauseWrapper => false
      | _ => true

/-- The worker runs, or is going to take, a wrapper that still calls
`ChangeState` under `state`. -/
def Machine.committed (machine : Machine) (state : State) : Bool :=
  match machine.worker with
  | .handling wrapper stage => wrapper.stillCalls state stage
  | .changing call _ _ => !call.holds
  | .finishing | .stopped => false
  | .waiting | .announcing | .announce _ =>
      machine.fWorkAvailable && machine.fWork.any (fun wrapper => wrapper.stillCalls state .begun)

/-- A blocking action of the controller writes `fState` only while the worker
is not committed to a further `ChangeState`. -/
def Unhindered (machine : Machine) : Action → Prop
  | .write .controller =>
      match machine.controller with
      | .changing (.acting _ row) =>
          row.action.waits = true → machine.committed row.target = false
      | _ => True
  | _ => True

instance (machine : Machine) (action : Action) : Decidable (Unhindered machine action) :=
  match action with
  | .write .controller =>
      match found : machine.controller with
      | .changing (.acting _ row) =>
          decidable_of_iff (row.action.waits = true → machine.committed row.target = false)
            (by simp only [Unhindered, found])
      | .changing (.lock _) | .changing (.wrote ..) | .idle | .returned _ | .waiting _ =>
          isTrue (by simp only [Unhindered, found])
  | .write .worker | .request _ | .waitForEndOfState _ | .endOfState | .lock _ | .complete _
  | .takeWork | .callback | .raiseError | .bodyReturns | .wrapperReturns | .finishWork
  | .readState | .deliver => isTrue trivial

theorem Wrapper.stillCalls_body (wrapper : Wrapper) (state : State) :
    wrapper.stillCalls state .body = wrapper.stillCalls state .begun := rfl

theorem Wrapper.stillCalls_internal {wrapper : Wrapper} {state : State} {event : Event}
    (internal : wrapper.internalEvent = some event)
    (tested : wrapper = .runWrapper → state = .running) :
    wrapper.stillCalls state .body = true := by
  cases wrapper with
  | runWrapper => simp [Wrapper.stillCalls, tested rfl]
  | pauseWrapper => simp [Wrapper.internalEvent] at internal
  | initWrapper => rfl
  | initTaskWrapper => rfl
  | resetTaskWrapper => rfl
  | resetWrapper => rfl

def WaitsFreely (machine : Machine) : Prop :=
  ∀ event row, machine.controller = .changing (.wrote event row) → row.action.waits = true →
    machine.committed machine.fState = false

theorem WaitsFreely.of_outside {machine : Machine} (outside : machine.controller.holds = false) :
    WaitsFreely machine := by
  intro event row calling
  simp [calling] at outside

theorem WaitsFreely.moveWorker {machine after : Machine} (free : WaitsFreely machine)
    (controller : after.controller = machine.controller) (state : after.fState = machine.fState)
    (kept : machine.controller.holds = true → machine.committed machine.fState = false →
      after.committed machine.fState = false) : WaitsFreely after := by
  intro event row calling waits
  rw [controller] at calling
  rw [state]
  exact kept (by simp [calling]) (free event row calling waits)

theorem WaitsFreely.step {machine after : Machine} {action : Action}
    (consistent : Consistent machine) (free : WaitsFreely machine)
    (permitted : Unhindered machine action) (stepped : machine.step action = some after) :
    WaitsFreely after := by
  cases Machine.step_effect stepped with
  | request _ => exact .of_outside rfl
  | waitForEndOfState _ target =>
      exact .of_outside (by rcases target with rfl | ⟨rfl, _⟩ <;> rfl)
  | endOfState _ _ _ => exact .of_outside rfl
  | lockIgnored _ _ _ => exact .of_outside rfl
  | lockTaken _ _ _ =>
      intro event row calling
      simp at calling
  | write calling =>
      intro event row calls waits
      cases calls
      simp only [Unhindered, calling] at permitted
      exact permitted waits
  | complete _ _ => exact .of_outside rfl
  | workerLockIgnored _ unlocked _ =>
      exact .of_outside (consistent.unlocked_controller unlocked)
  | workerLockTaken _ unlocked _ =>
      exact .of_outside (consistent.unlocked_controller unlocked)
  | workerWrite calling =>
      exact .of_outside (consistent.worker_alone (by simp [calling]))
  | workerComplete calling acted =>
      have outside := consistent.worker_alone (by simp [calling])
      exact .of_outside (by simpa [Machine.finishAction_controller acted] using outside)
  | terminate _ _ => exact free.moveWorker rfl rfl fun _ _ => rfl
  | takeWork waiting _ available work =>
      refine free.moveWorker rfl rfl ?_
      intro _ uncommitted
      simpa [Machine.committed, waiting, available, work] using uncommitted
  | callback handling =>
      refine free.moveWorker rfl rfl ?_
      intro _ uncommitted
      simpa [Machine.committed, handling, Wrapper.stillCalls_body] using uncommitted
  | @raiseError stage handling early =>
      refine free.moveWorker rfl rfl ?_
      intro _ uncommitted
      cases stage <;> simp [Machine.committed, handling, Wrapper.stillCalls] at uncommitted early
  | callInternal handling internal tested =>
      refine free.moveWorker rfl rfl ?_
      intro _ uncommitted
      have committed := Wrapper.stillCalls_internal internal tested
      simp [Machine.committed, handling, committed] at uncommitted
  | skipInternal _ _ => exact free.moveWorker rfl rfl fun _ _ => rfl
  | wrapperReturns _ => exact free.moveWorker rfl rfl fun _ _ => rfl
  | finishWork _ => exact free.moveWorker rfl rfl fun _ _ => rfl
  | readState announcing =>
      refine free.moveWorker rfl rfl ?_
      intro _ uncommitted
      simpa [Machine.committed, announcing] using uncommitted
  | deliver announce =>
      refine free.moveWorker rfl rfl ?_
      intro _ uncommitted
      simpa [Machine.committed, announce] using uncommitted

/-- In every run whose blocking actions start unhindered, the controller and the
worker never block each other. -/
theorem unhindered_never_deadlocks {machine : Machine}
    (reached : machineSystem.ReachesUnder Unhindered machine) : machine.deadlocked = false := by
  have free : WaitsFreely machine := by
    refine reached.relative (fun _ => consistent_of_reaches) ?_ ?_
    · rintro state rfl
      exact .of_outside rfl
    · intro before action after consistent free permitted stepped
      exact free.step consistent permitted stepped
  unfold Machine.deadlocked
  split
  · rename_i event row waitingEvent wrapper resume calling blocked
    cases waits : row.action.waits with
    | false => rfl
    | true =>
        have uncommitted := free event row calling waits
        simp [Machine.committed, blocked] at uncommitted
  · rfl

def stopDuringRun : List Action :=
  changeTrace .initDevice ++ workTrace ++ changeTrace .initTask ++ workTrace ++
    changeTrace .run ++ [.takeWork, .callback] ++
    [.request .stop, .lock .controller, .write .controller, .bodyReturns]

theorem stop_during_run_never_deadlocks :
    ∃ machine, machineSystem.ReachesUnder Unhindered machine ∧
      machine.controller = .changing (.wrote .stop ⟨.ready, .stopFct⟩) ∧
      machine.fWorkActive = true ∧ machine.deadlocked = false := by
  obtain ⟨machine, reached, calling, active⟩ :
      ∃ machine, machineSystem.ReachesUnder Unhindered machine ∧
        machine.controller = .changing (.wrote .stop ⟨.ready, .stopFct⟩) ∧
        machine.fWorkActive = true :=
    TransitionSystem.reaches_of_runUnder Machine.start stopDuringRun rfl (by decide)
  exact ⟨machine, reached, calling, active, unhindered_never_deadlocks reached⟩

/-- The device is brought to `RUNNING`, `Run()` returns and `RunWrapper` sees
`RUNNING`; then `STOP` writes `READY` and waits for the worker. -/
def stopDuringRunEnd : List Action :=
  changeTrace .initDevice ++ workTrace ++ changeTrace .initTask ++ workTrace ++
    changeTrace .run ++ [.takeWork, .callback, .bodyReturns] ++
    [.request .stop, .lock .controller, .write .controller]

theorem stop_deadlocks_with_run_end :
    ∃ machine, machineSystem.Reaches machine ∧ machine.deadlocked = true :=
  TransitionSystem.reaches_of_runUnder Machine.start stopDuringRunEnd rfl (by decide)

end FairMQ.StateMachine
