import FairMQ.StateMachine.Steps

namespace FairMQ.StateMachine

open FairMQ.Data

def Controller.holds : Controller → Bool
  | .changing call => call.holds
  | _ => false

def Worker.holds : Worker → Bool
  | .changing call _ _ => call.holds
  | _ => false

section Projections

variable {call : Call} {event : Event} {row : Row} {wrapper : Wrapper} {stage : Stage}
  {state : State}

@[simp] theorem Call.holds_lock : (Call.lock event).holds = false := rfl
@[simp] theorem Call.holds_acting : (Call.acting event row).holds = true := rfl
@[simp] theorem Call.holds_wrote : (Call.wrote event row).holds = true := rfl
@[simp] theorem Call.event_lock : (Call.lock event).event = event := rfl
@[simp] theorem Call.event_acting : (Call.acting event row).event = event := rfl
@[simp] theorem Call.event_wrote : (Call.wrote event row).event = event := rfl

@[simp] theorem Controller.holds_idle : Controller.idle.holds = false := rfl
@[simp] theorem Controller.holds_changing : (Controller.changing call).holds = call.holds := rfl
@[simp] theorem Controller.holds_returned : (Controller.returned event).holds = false := rfl
@[simp] theorem Controller.holds_waiting : (Controller.waiting event).holds = false := rfl

@[simp] theorem Worker.holds_waiting : Worker.waiting.holds = false := rfl
@[simp] theorem Worker.holds_handling : (Worker.handling wrapper stage).holds = false := rfl
@[simp] theorem Worker.holds_changing :
    (Worker.changing call wrapper stage).holds = call.holds := rfl
@[simp] theorem Worker.holds_finishing : Worker.finishing.holds = false := rfl
@[simp] theorem Worker.holds_announcing : Worker.announcing.holds = false := rfl
@[simp] theorem Worker.holds_announce : (Worker.announce state).holds = false := rfl
@[simp] theorem Worker.holds_stopped : Worker.stopped.holds = false := rfl

@[simp] theorem Worker.active_waiting : Worker.waiting.active = false := rfl
@[simp] theorem Worker.active_handling : (Worker.handling wrapper stage).active = true := rfl
@[simp] theorem Worker.active_changing : (Worker.changing call wrapper stage).active = true := rfl
@[simp] theorem Worker.active_finishing : Worker.finishing.active = true := rfl
@[simp] theorem Worker.active_announcing : Worker.announcing.active = false := rfl
@[simp] theorem Worker.active_announce : (Worker.announce state).active = false := rfl
@[simp] theorem Worker.active_stopped : Worker.stopped.active = false := rfl

end Projections

def Call.Sound (state : State) : Call → Prop
  | .lock _ => True
  | .acting event row => transitionTable state event = some row
  | .wrote event row => state = row.target ∧ ∃ source, transitionTable source event = some row

theorem Call.sound_of_free {state : State} {call : Call} (free : call.holds = false) :
    call.Sound state := by
  cases call with
  | lock event => trivial
  | acting event row => simp at free
  | wrote event row => simp at free

/-- The wrappers only call `ChangeState` with their internal event, at the end,
or with `ERROR_FOUND`, from inside `InitWrapper`. -/
def Issued (event : Event) (wrapper : Wrapper) (resume : Stage) : Prop :=
  event = .errorFound ∧ wrapper = .initWrapper ∧ resume ≠ .post ∨
    wrapper.internalEvent = some event ∧ resume = .post

structure Consistent (machine : Machine) : Prop where
  controllerHolds : machine.fChangeStateMutex = some .controller ↔ machine.controller.holds = true
  workerHolds : machine.fChangeStateMutex = some .worker ↔ machine.worker.holds = true
  active : machine.fWorkActive = machine.worker.active
  controllerCall : ∀ call, machine.controller = .changing call → call.Sound machine.fState
  workerCall : ∀ call wrapper resume, machine.worker = .changing call wrapper resume →
    call.Sound machine.fState
  issued : ∀ call wrapper resume, machine.worker = .changing call wrapper resume →
    Issued call.event wrapper resume

theorem Consistent.start : Consistent .start := by
  constructor <;> simp [Machine.start]

theorem Consistent.exclusive {machine : Machine} (consistent : Consistent machine)
    (held : machine.controller.holds = true) : machine.worker.holds = false := by
  have mutex := consistent.controllerHolds.mpr held
  cases other : machine.worker.holds with
  | false => rfl
  | true =>
      have same := mutex.symm.trans (consistent.workerHolds.mpr other)
      simp at same

theorem Consistent.worker_alone {machine : Machine} (consistent : Consistent machine)
    (held : machine.worker.holds = true) : machine.controller.holds = false := by
  cases other : machine.controller.holds with
  | false => rfl
  | true =>
      have free := consistent.exclusive other
      simp [held] at free

theorem Consistent.unlocked_controller {machine : Machine} (consistent : Consistent machine)
    (unlocked : machine.fChangeStateMutex = none) : machine.controller.holds = false := by
  have held := consistent.controllerHolds
  simpa [unlocked] using held

theorem Consistent.unlocked_worker {machine : Machine} (consistent : Consistent machine)
    (unlocked : machine.fChangeStateMutex = none) : machine.worker.holds = false := by
  have held := consistent.workerHolds
  simpa [unlocked] using held

theorem Consistent.moveController {machine : Machine} (consistent : Consistent machine)
    {controller : Controller} (outside : machine.controller.holds = false)
    (free : controller.holds = false) : Consistent { machine with controller } where
  controllerHolds := by simpa [outside, free] using consistent.controllerHolds
  workerHolds := consistent.workerHolds
  active := consistent.active
  controllerCall := by
    intro call calling
    change controller = .changing call at calling
    subst calling
    exact Call.sound_of_free free
  workerCall := consistent.workerCall
  issued := consistent.issued

theorem Consistent.moveWorker {machine after : Machine} (consistent : Consistent machine)
    (state : after.fState = machine.fState)
    (mutex : after.fChangeStateMutex = machine.fChangeStateMutex)
    (controller : after.controller = machine.controller)
    (active : after.fWorkActive = after.worker.active)
    (outside : machine.worker.holds = false) (free : after.worker.holds = false)
    (issued : ∀ call wrapper resume, after.worker = .changing call wrapper resume →
      Issued call.event wrapper resume) : Consistent after where
  controllerHolds := by rw [mutex, controller]; exact consistent.controllerHolds
  workerHolds := by
    rw [mutex, free]
    simpa [outside] using consistent.workerHolds
  active := active
  controllerCall := by rw [state, controller]; exact consistent.controllerCall
  workerCall := by
    intro call wrapper resume calling
    rw [calling] at free
    exact Call.sound_of_free free
  issued := issued

theorem no_call {worker : Worker} {property : Call → Wrapper → Stage → Prop}
    (outside : ∀ call wrapper resume, worker ≠ .changing call wrapper resume) :
    ∀ call wrapper resume, worker = .changing call wrapper resume →
      property call wrapper resume := by
  intro call wrapper resume calling
  exact absurd calling (outside call wrapper resume)

theorem Consistent.issued_row {machine : Machine} (consistent : Consistent machine)
    {call : Call} {source : State} {row : Row} {wrapper : Wrapper} {resume : Stage}
    (calling : machine.worker = .changing call wrapper resume)
    (found : transitionTable source call.event = some row) : row.action.waits = false := by
  rcases consistent.issued _ _ _ calling with ⟨raised, _, _⟩ | ⟨internal, _⟩
  · exact wrapper_row_never_waits wrapper (.inl raised) found
  · exact wrapper_row_never_waits wrapper (.inr internal) found

theorem Consistent.worker_row {machine : Machine} (consistent : Consistent machine)
    {event : Event} {row : Row} {wrapper : Wrapper} {resume : Stage}
    (calling : machine.worker = .changing (.wrote event row) wrapper resume) :
    row.action.waits = false := by
  obtain ⟨_, source, found⟩ := consistent.workerCall _ _ _ calling
  exact consistent.issued_row calling found

/-- Completing an action moves the caller out of it and frees the mutex; posting
work needs an inactive worker, so `fWorkActive` does not change. -/
theorem Consistent.complete {machine finished : Machine} {event : Event} {row : Row}
    (consistent : Consistent machine)
    (calling : machine.controller = .changing (.wrote event row))
    (acted : machine.finishAction event row.action = some finished) :
    Consistent { finished with controller := .returned event, fChangeStateMutex := none } := by
  have alone : machine.worker.holds = false := consistent.exclusive (by simp [calling])
  obtain ⟨state, worker, active⟩ := Machine.finishAction_frame acted
  constructor
  · simp
  · simp [worker, alone]
  · simp [worker, active, consistent.active]
  · simp
  · simpa [worker, state] using consistent.workerCall
  · simpa [worker] using consistent.issued

theorem Consistent.workerComplete {machine finished : Machine} {event : Event} {row : Row}
    {wrapper : Wrapper} {resume : Stage} (consistent : Consistent machine)
    (calling : machine.worker = .changing (.wrote event row) wrapper resume)
    (acted : machine.finishAction event row.action = some finished) :
    Consistent { finished with worker := .handling wrapper resume, fChangeStateMutex := none } := by
  have mutex := consistent.workerHolds.mpr (by simp [calling])
  have outside := consistent.controllerHolds
  obtain ⟨state, _, active⟩ := Machine.finishAction_frame acted
  have controller := Machine.finishAction_controller acted
  constructor
  · simpa [controller, mutex] using outside
  · simp
  · simp [active, consistent.active, calling]
  · simpa [controller, state] using consistent.controllerCall
  · simp
  · simp

theorem Consistent.step {machine after : Machine} {action : Action}
    (consistent : Consistent machine) (stepped : machine.step action = some after) :
    Consistent after := by
  have active := consistent.active
  cases Machine.step_effect stepped with
  | request free =>
      refine consistent.moveController ?_ rfl
      rcases free with free | ⟨last, free⟩ <;> simp [free]
  | waitForEndOfState free target =>
      refine consistent.moveController ?_ ?_
      · rcases free with free | ⟨last, free⟩ <;> simp [free]
      · rcases target with rfl | ⟨rfl, _⟩ <;> rfl
  | endOfState waiting _ _ => exact consistent.moveController (by simp [waiting]) rfl
  | lockIgnored calling _ _ => exact consistent.moveController (by simp [calling]) rfl
  | lockTaken calling unlocked found =>
      have alone := consistent.unlocked_worker unlocked
      constructor
      · simp
      · simp [alone]
      · exact active
      · rintro call calls
        cases calls
        exact found
      · exact consistent.workerCall
      · exact consistent.issued
  | write calling =>
      have alone : machine.worker.holds = false := consistent.exclusive (by simp [calling])
      have found := consistent.controllerCall _ calling
      constructor
      · simpa [calling] using consistent.controllerHolds
      · exact consistent.workerHolds
      · exact active
      · rintro call calls
        cases calls
        exact ⟨rfl, _, found⟩
      · intro call wrapper resume calls
        change machine.worker = _ at calls
        rw [calls] at alone
        exact Call.sound_of_free alone
      · exact consistent.issued
  | complete calling acted => exact consistent.complete calling acted
  | workerLockIgnored calling _ _ =>
      exact consistent.moveWorker rfl rfl rfl (by simpa [calling] using active)
        (by simp [calling]) rfl (no_call (by simp))
  | workerLockTaken calling unlocked found =>
      have alone := consistent.unlocked_controller unlocked
      have issued := consistent.issued _ _ _ calling
      constructor
      · simp [alone]
      · simp
      · simpa [calling] using active
      · exact consistent.controllerCall
      · rintro call wrapper resume calls
        cases calls
        exact found
      · rintro call wrapper resume calls
        cases calls
        exact issued
  | workerWrite calling =>
      have alone := consistent.worker_alone (by simp [calling])
      have found := consistent.workerCall _ _ _ calling
      have issued := consistent.issued _ _ _ calling
      constructor
      · exact consistent.controllerHolds
      · simpa [calling] using consistent.workerHolds
      · simpa [calling] using active
      · intro call calls
        change machine.controller = _ at calls
        rw [calls] at alone
        exact Call.sound_of_free alone
      · rintro call wrapper resume calls
        cases calls
        exact ⟨rfl, _, found⟩
      · rintro call wrapper resume calls
        cases calls
        exact issued
  | workerComplete calling acted => exact consistent.workerComplete calling acted
  | terminate waiting _ =>
      exact consistent.moveWorker rfl rfl rfl (by simpa [waiting] using active)
        (by simp [waiting]) rfl (no_call (by simp))
  | takeWork waiting _ _ _ =>
      exact consistent.moveWorker rfl rfl rfl rfl (by simp [waiting]) rfl (no_call (by simp))
  | callback handling =>
      exact consistent.moveWorker rfl rfl rfl (by simpa [handling] using active)
        (by simp [handling]) rfl (no_call (by simp))
  | raiseError handling early =>
      refine consistent.moveWorker rfl rfl rfl (by simpa [handling] using active)
        (by simp [handling]) rfl ?_
      rintro call wrapper resume calls
      cases calls
      exact .inl ⟨rfl, rfl, early⟩
  | callInternal handling internal _ =>
      refine consistent.moveWorker rfl rfl rfl (by simpa [handling] using active)
        (by simp [handling]) rfl ?_
      rintro call wrapper resume calls
      cases calls
      exact .inr ⟨internal, rfl⟩
  | skipInternal handling _ =>
      exact consistent.moveWorker rfl rfl rfl (by simpa [handling] using active)
        (by simp [handling]) rfl (no_call (by simp))
  | wrapperReturns handling =>
      exact consistent.moveWorker rfl rfl rfl (by simpa [handling] using active)
        (by simp [handling]) rfl (no_call (by simp))
  | finishWork finishing =>
      exact consistent.moveWorker rfl rfl rfl rfl (by simp [finishing]) rfl (no_call (by simp))
  | readState announcing =>
      exact consistent.moveWorker rfl rfl rfl (by simpa [announcing] using active)
        (by simp [announcing]) rfl (no_call (by simp))
  | deliver announce =>
      exact consistent.moveWorker rfl rfl rfl (by simpa [announce] using active)
        (by simp [announce]) rfl (no_call (by simp))

theorem consistent_of_reaches {allowed : Machine → Action → Prop} {machine : Machine}
    (reached : machineSystem.ReachesUnder allowed machine) : Consistent machine := by
  refine reached.invariant ?_ ?_
  · rintro state rfl
    exact .start
  · intro before action after consistent _ stepped
    exact consistent.step stepped

theorem known_of_reaches {allowed : Machine → Action → Prop} {machine : Machine}
    (reached : machineSystem.ReachesUnder allowed machine) : machine.fState ≠ .ok := by
  induction reached with
  | initial start =>
      cases start
      decide
  | step before _ stepped known =>
      have consistent := consistent_of_reaches before
      cases Machine.step_effect stepped with
      | write calling => exact row_target_known (consistent.controllerCall _ calling)
      | workerWrite calling => exact row_target_known (consistent.workerCall _ _ _ calling)
      | complete _ acted =>
          have same := (Machine.finishAction_frame acted).1
          simpa [same] using known
      | workerComplete _ acted =>
          have same := (Machine.finishAction_frame acted).1
          simpa [same] using known
      | _ => exact known

def Machine.untaken (machine : Machine) : Bool :=
  machine.fWorkAvailable && !machine.fWorkActive

def Worker.serves : Worker → Option Wrapper
  | .handling wrapper .begun | .handling wrapper .body => some wrapper
  | .changing (.lock _) wrapper _ | .changing (.acting _ _) wrapper _ => some wrapper
  | _ => none

def Controller.posting : Controller → Bool
  | .changing (.wrote _ row) => row.action == .defaultFct
  | _ => false

def Served (machine : Machine) : Prop :=
  ∃ wrapper, wrapper.announces = machine.fState ∧
    (machine.untaken = true ∧ machine.fWork = some wrapper ∨
      machine.worker.serves = some wrapper)

def Attended (machine : Machine) : Prop :=
  machine.fState.working = true → machine.controller.posting = false → Served machine

theorem Served.of_active {machine : Machine} (served : Served machine)
    (active : machine.fWorkActive = true) :
    ∃ wrapper, wrapper.announces = machine.fState ∧ machine.worker.serves = some wrapper := by
  obtain ⟨wrapper, announces, ⟨untaken, _⟩ | serves⟩ := served
  · simp [Machine.untaken, active] at untaken
  · exact ⟨wrapper, announces, serves⟩

theorem Call.Sound.not_working {state : State} {event : Event} {row : Row}
    (sound : (Call.wrote event row).Sound state) (other : row.action ≠ .defaultFct) :
    state.working = false := by
  obtain ⟨rfl, source, found⟩ := sound
  cases working : row.target.working with
  | false => rfl
  | true => exact absurd (working_row_default found working) other

theorem Attended.complete {machine finished : Machine} {event : Event} {row : Row}
    (consistent : Consistent machine)
    (calling : machine.controller = .changing (.wrote event row))
    (acted : machine.finishAction event row.action = some finished) :
    Attended { finished with controller := .returned event, fChangeStateMutex := none } := by
  have sound := consistent.controllerCall _ calling
  obtain ⟨state, _, _⟩ := Machine.finishAction_frame acted
  intro working _
  change finished.fState.working = true at working
  rw [state] at working
  rcases Machine.finishAction_cases acted with
    ⟨other, _⟩ | ⟨other, _⟩ | ⟨wrapper, isDefault, inactive, handler, rfl⟩ | ⟨other, _⟩ | ⟨other, _⟩
  · have resting := sound.not_working (by rcases other with other | other <;> simp [other])
    simp [resting] at working
  · have resting := sound.not_working (by simp [other])
    simp [resting] at working
  · obtain ⟨target, source, found⟩ := sound
    obtain ⟨posted, same, announces⟩ := default_row_handler found isDefault
    have equal : wrapper = posted := Option.some.inj (handler.symm.trans same)
    subst equal
    exact ⟨wrapper, announces.trans target.symm,
      .inl ⟨by simp [Machine.untaken, inactive], rfl⟩⟩
  · have resting := sound.not_working (by simp [other])
    simp [resting] at working
  · have resting := sound.not_working (by simp [other])
    simp [resting] at working

theorem Attended.moveRunning {machine after : Machine} (consistent : Consistent machine)
    (attended : Attended machine) (running : machine.worker.active = true)
    (state : after.fState = machine.fState) (controller : after.controller = machine.controller)
    (goesOn : ∀ wrapper, machine.worker.serves = some wrapper →
      after.worker.serves = some wrapper) : Attended after := by
  intro working notPosting
  rw [state] at working
  rw [controller] at notPosting
  obtain ⟨wrapper, announces, serves⟩ :=
    (attended working notPosting).of_active (consistent.active.trans running)
  exact ⟨wrapper, announces.trans state.symm, .inr (goesOn wrapper serves)⟩

theorem Attended.moveIdle {machine after : Machine} (attended : Attended machine)
    (idle : machine.worker.serves = none) (state : after.fState = machine.fState)
    (controller : after.controller = machine.controller)
    (untaken : after.untaken = machine.untaken) (work : after.fWork = machine.fWork) :
    Attended after := by
  intro working notPosting
  rw [state] at working
  rw [controller] at notPosting
  obtain ⟨wrapper, announces, posted | serves⟩ := attended working notPosting
  · exact ⟨wrapper, announces.trans state.symm, .inl (by rwa [untaken, work])⟩
  · simp [idle] at serves

theorem Attended.step {machine after : Machine} {action : Action}
    (consistent : Consistent machine) (attended : Attended machine)
    (stepped : machine.step action = some after) : Attended after := by
  have active := consistent.active
  cases Machine.step_effect stepped with
  | request free =>
      intro working _
      exact attended working (by rcases free with free | ⟨last, free⟩ <;> rw [free] <;> rfl)
  | waitForEndOfState free _ =>
      intro working _
      exact attended working (by rcases free with free | ⟨last, free⟩ <;> rw [free] <;> rfl)
  | endOfState waiting _ _ =>
      intro working _
      exact attended working (by rw [waiting]; rfl)
  | lockIgnored calling _ _ =>
      intro working _
      exact attended working (by rw [calling]; rfl)
  | lockTaken calling _ _ =>
      intro working _
      exact attended working (by rw [calling]; rfl)
  | @write event row calling =>
      intro working notPosting
      have found := consistent.controllerCall _ calling
      have isDefault := working_row_default found working
      simp [Controller.posting, isDefault] at notPosting
  | complete calling acted => exact .complete consistent calling acted
  | @workerLockIgnored event wrapper resume calling _ missing =>
      intro working notPosting
      obtain ⟨served, announces, serves⟩ :=
        (attended working notPosting).of_active (by simpa [calling] using active)
      rw [calling] at serves
      cases serves
      -- an ignored internal event would mean that the wrapper's state was left
      rcases consistent.issued _ _ _ calling with ⟨raised, _, _⟩ | ⟨internal, _⟩
      · simp only [Call.event_lock] at raised
        subst raised
        change machine.fState.working = true at working
        rw [errorFound_ignored missing] at working
        simp [State.working] at working
      · obtain ⟨row, found⟩ := internal_row internal
        rw [announces] at found
        simp only [Call.event_lock, missing] at found
        contradiction
  | @workerLockTaken event row wrapper resume calling _ _ =>
      refine attended.moveRunning consistent (by simp [calling]) rfl rfl ?_
      intro served serves
      rwa [calling] at serves
  | @workerWrite event row wrapper resume calling =>
      intro working _
      have found := consistent.workerCall _ _ _ calling
      have isDefault := working_row_default found working
      have never := consistent.issued_row calling found
      simp [isDefault, Fct.waits] at never
  | @workerComplete event row wrapper resume finished calling acted =>
      intro working _
      have never := consistent.worker_row calling
      have resting := (consistent.workerCall _ _ _ calling).not_working
        (by intro isDefault; simp [isDefault, Fct.waits] at never)
      obtain ⟨state, _, _⟩ := Machine.finishAction_frame acted
      change finished.fState.working = true at working
      rw [state, resting] at working
      contradiction
  | terminate waiting _ => exact attended.moveIdle (by rw [waiting]; rfl) rfl rfl rfl rfl
  | @takeWork wrapper waiting _ _ work =>
      intro working notPosting
      obtain ⟨posted, announces, ⟨_, same⟩ | serves⟩ := attended working notPosting
      · have equal : wrapper = posted := Option.some.inj (work.symm.trans same)
        subst equal
        exact ⟨wrapper, announces, .inr rfl⟩
      · simp [waiting, Worker.serves] at serves
  | callback handling =>
      refine attended.moveRunning consistent (by simp [handling]) rfl rfl ?_
      intro served serves
      rwa [handling] at serves
  | @raiseError stage handling early =>
      refine attended.moveRunning consistent (by simp [handling]) rfl rfl ?_
      intro served serves
      rw [handling] at serves
      cases stage with
      | begun => exact serves
      | body => exact serves
      | post => exact absurd rfl early
  | callInternal handling _ _ =>
      refine attended.moveRunning consistent (by simp [handling]) rfl rfl ?_
      intro served serves
      rwa [handling] at serves
  | skipInternal handling tested =>
      intro working notPosting
      obtain ⟨served, announces, serves⟩ :=
        (attended working notPosting).of_active (by simpa [handling] using active)
      rw [handling] at serves
      cases serves
      exact absurd announces.symm tested.2
  | wrapperReturns handling =>
      refine attended.moveRunning consistent (by simp [handling]) rfl rfl ?_
      intro served serves
      simp [handling, Worker.serves] at serves
  | finishWork finishing =>
      refine attended.moveRunning consistent (by simp [finishing]) rfl rfl ?_
      intro served serves
      simp [finishing, Worker.serves] at serves
  | readState announcing => exact attended.moveIdle (by rw [announcing]; rfl) rfl rfl rfl rfl
  | deliver announce => exact attended.moveIdle (by rw [announce]; rfl) rfl rfl rfl rfl

theorem attended_of_reaches {allowed : Machine → Action → Prop} {machine : Machine}
    (reached : machineSystem.ReachesUnder allowed machine) : Attended machine := by
  refine reached.relative (fun _ => consistent_of_reaches) ?_ ?_
  · rintro state rfl working _
    contradiction
  · intro before action after consistent attended _ stepped
    exact attended.step consistent stepped

end FairMQ.StateMachine
