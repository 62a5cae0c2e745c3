import FairMQ.StateMachine.Machine

namespace FairMQ.StateMachine

inductive Effect (machine : Machine) : Action → Machine → Prop where
  | request {event : Event}
      (free : machine.controller = .idle ∨ ∃ last, machine.controller = .returned last) :
      Effect machine (.request event) { machine with controller := .changing (.lock event) }
  | waitForEndOfState {event : Event} {controller : Controller}
      (free : machine.controller = .idle ∨ ∃ last, machine.controller = .returned last)
      (target : controller = .waiting event ∨ controller = .idle ∧
        event ∉ [.initDevice, .initTask, .run, .resetTask, .resetDevice]) :
      Effect machine (.waitForEndOfState event) { machine with controller }
  | endOfState {event : Event} (waiting : machine.controller = .waiting event)
      (inactive : machine.fWorkActive = false) (unavailable : machine.fWorkAvailable = false) :
      Effect machine .endOfState { machine with controller := .idle }
  | lockIgnored {event : Event} (calling : machine.controller = .changing (.lock event))
      (unlocked : machine.fChangeStateMutex = none)
      (missing : transitionTable machine.fState event = none) :
      Effect machine (.lock .controller) { machine with controller := .returned event }
  | lockTaken {event : Event} {row : Row} (calling : machine.controller = .changing (.lock event))
      (unlocked : machine.fChangeStateMutex = none)
      (found : transitionTable machine.fState event = some row) :
      Effect machine (.lock .controller)
        { machine with
          controller := .changing (.acting event row), fChangeStateMutex := some .controller }
  | write {event : Event} {row : Row}
      (calling : machine.controller = .changing (.acting event row)) :
      Effect machine (.write .controller)
        { machine with
          controller := .changing (.wrote event row), fState := row.target
          lastEvent := some event, entered := machine.entered ++ [row.target] }
  | complete {event : Event} {row : Row} {finished : Machine}
      (calling : machine.controller = .changing (.wrote event row))
      (acted : machine.finishAction event row.action = some finished) :
      Effect machine (.complete .controller)
        { finished with controller := .returned event, fChangeStateMutex := none }
  | workerLockIgnored {event : Event} {wrapper : Wrapper} {resume : Stage}
      (calling : machine.worker = .changing (.lock event) wrapper resume)
      (unlocked : machine.fChangeStateMutex = none)
      (missing : transitionTable machine.fState event = none) :
      Effect machine (.lock .worker) { machine with worker := .handling wrapper resume }
  | workerLockTaken {event : Event} {row : Row} {wrapper : Wrapper} {resume : Stage}
      (calling : machine.worker = .changing (.lock event) wrapper resume)
      (unlocked : machine.fChangeStateMutex = none)
      (found : transitionTable machine.fState event = some row) :
      Effect machine (.lock .worker)
        { machine with
          worker := .changing (.acting event row) wrapper resume
          fChangeStateMutex := some .worker }
  | workerWrite {event : Event} {row : Row} {wrapper : Wrapper} {resume : Stage}
      (calling : machine.worker = .changing (.acting event row) wrapper resume) :
      Effect machine (.write .worker)
        { machine with
          worker := .changing (.wrote event row) wrapper resume, fState := row.target
          lastEvent := some event, entered := machine.entered ++ [row.target] }
  | workerComplete {event : Event} {row : Row} {wrapper : Wrapper} {resume : Stage}
      {finished : Machine}
      (calling : machine.worker = .changing (.wrote event row) wrapper resume)
      (acted : machine.finishAction event row.action = some finished) :
      Effect machine (.complete .worker)
        { finished with worker := .handling wrapper resume, fChangeStateMutex := none }
  | terminate (waiting : machine.worker = .waiting)
      (terminated : machine.fWorkerTerminated = true) :
      Effect machine .takeWork { machine with worker := .stopped }
  | takeWork {wrapper : Wrapper} (waiting : machine.worker = .waiting)
      (running : machine.fWorkerTerminated = false)
      (available : machine.fWorkAvailable = true) (work : machine.fWork = some wrapper) :
      Effect machine .takeWork
        { machine with fWorkActive := true, worker := .handling wrapper .begun }
  | callback {wrapper : Wrapper} (handling : machine.worker = .handling wrapper .begun) :
      Effect machine .callback
        { machine with
          worker := .handling wrapper .body, announced := machine.announced ++ [wrapper.announces] }
  | raiseError {stage : Stage} (handling : machine.worker = .handling .initWrapper stage)
      (early : stage ≠ .post) :
      Effect machine .raiseError
        { machine with worker := .changing (.lock .errorFound) .initWrapper stage }
  | callInternal {wrapper : Wrapper} {event : Event}
      (handling : machine.worker = .handling wrapper .body)
      (internal : wrapper.internalEvent = some event)
      (tested : wrapper = .runWrapper → machine.fState = .running) :
      Effect machine .bodyReturns
        { machine with worker := .changing (.lock event) wrapper .post }
  | skipInternal {wrapper : Wrapper}
      (handling : machine.worker = .handling wrapper .body)
      (tested : (wrapper = .runWrapper ∨ wrapper = .pauseWrapper) ∧
        machine.fState ≠ wrapper.announces) :
      Effect machine .bodyReturns { machine with worker := .handling wrapper .post }
  | wrapperReturns {wrapper : Wrapper} (handling : machine.worker = .handling wrapper .post) :
      Effect machine .wrapperReturns { machine with worker := .finishing }
  | finishWork (finishing : machine.worker = .finishing) :
      Effect machine .finishWork
        { machine with fWorkActive := false, fWorkAvailable := false, worker := .announcing }
  | readState (announcing : machine.worker = .announcing) :
      Effect machine .readState { machine with worker := .announce machine.fState }
  | deliver {state : State} (announce : machine.worker = .announce state) :
      Effect machine .deliver
        { machine with worker := .waiting, announced := machine.announced ++ [state] }

theorem call_controller {machine : Machine} {call : Call} :
    machine.call .controller = some call ↔ machine.controller = .changing call := by
  cases current : machine.controller <;> simp [Machine.call, current]

theorem call_worker {machine : Machine} {call : Call} :
    machine.call .worker = some call ↔
      ∃ wrapper resume, machine.worker = .changing call wrapper resume := by
  cases current : machine.worker <;> simp [Machine.call, current]

theorem Machine.finishAction_cases {machine finished : Machine} {event : Event} {fct : Fct}
    (acted : machine.finishAction event fct = some finished) :
    (fct = .automaticFct ∨ fct = .internalStopFct) ∧ finished = machine ∨
    fct = .stopFct ∧ machine.fWorkActive = false ∧ finished = machine ∨
    (∃ wrapper, fct = .defaultFct ∧ machine.fWorkActive = false ∧
      fStateHandlers event = some wrapper ∧
      finished = { machine with fWorkAvailable := true, fWork := some wrapper }) ∨
    fct = .exitingFct ∧ finished =
      { machine with announced := machine.announced ++ [.exiting], fWorkerTerminated := true } ∨
    fct = .errorFoundFct ∧ finished =
      { machine with announced := machine.announced ++ [.error] } := by
  cases fct <;> simp only [Machine.finishAction] at acted
  case defaultFct =>
    split at acted
    · contradiction
    · rename_i inactive
      split at acted <;> cases acted
      rename_i wrapper handler
      simp_all
  case stopFct =>
    split at acted <;> cases acted
    simp_all
  all_goals
    cases acted
    simp

theorem Machine.finishAction_frame {machine finished : Machine} {event : Event} {fct : Fct}
    (acted : machine.finishAction event fct = some finished) :
    finished.fState = machine.fState ∧ finished.worker = machine.worker ∧
      finished.fWorkActive = machine.fWorkActive := by
  rcases finishAction_cases acted with
    ⟨_, rfl⟩ | ⟨_, _, rfl⟩ | ⟨_, _, _, _, rfl⟩ | ⟨_, rfl⟩ | ⟨_, rfl⟩
  all_goals exact ⟨rfl, rfl, rfl⟩

theorem Machine.finishAction_controller {machine finished : Machine} {event : Event} {fct : Fct}
    (acted : machine.finishAction event fct = some finished) :
    finished.controller = machine.controller := by
  rcases finishAction_cases acted with
    ⟨_, rfl⟩ | ⟨_, _, rfl⟩ | ⟨_, _, _, _, rfl⟩ | ⟨_, rfl⟩ | ⟨_, rfl⟩
  all_goals rfl

theorem Machine.step_effect {machine after : Machine} {action : Action}
    (stepped : machine.step action = some after) : Effect machine action after := by
  cases action with
  | request event =>
      simp only [Machine.step, Machine.request] at stepped
      split at stepped <;> cases stepped
      · rename_i free
        exact .request (.inl free)
      · rename_i last free
        exact .request (.inr ⟨last, free⟩)
  | waitForEndOfState event =>
      simp only [Machine.step, Machine.waitForEndOfState] at stepped
      split at stepped
      · rename_i free
        split at stepped <;> cases stepped
        all_goals exact .waitForEndOfState (.inl free) (by simp_all)
      · rename_i last free
        split at stepped <;> cases stepped
        all_goals exact .waitForEndOfState (.inr ⟨last, free⟩) (by simp_all)
      · contradiction
  | endOfState =>
      simp only [Machine.step, Machine.endOfState] at stepped
      split at stepped
      · rename_i event waiting
        split at stepped <;> cases stepped
        rename_i settled
        simp only [Bool.or_eq_true, not_or, Bool.not_eq_true] at settled
        exact .endOfState waiting settled.1 settled.2
      · contradiction
  | lock thread =>
      simp only [Machine.step, Machine.lock] at stepped
      split at stepped
      · rename_i event calling unlocked
        cases thread with
        | controller =>
            have calling := call_controller.mp calling
            split at stepped <;> cases stepped
            · rename_i missing
              exact .lockIgnored calling unlocked missing
            · rename_i row found
              exact .lockTaken calling unlocked found
        | worker =>
            obtain ⟨wrapper, resume, calling⟩ := call_worker.mp calling
            split at stepped <;> cases stepped
            · rename_i missing
              simp only [Machine.returnCall, calling]
              exact .workerLockIgnored calling unlocked missing
            · rename_i row found
              simp only [Machine.setCall, calling]
              exact .workerLockTaken calling unlocked found
      · contradiction
  | write thread =>
      simp only [Machine.step, Machine.write] at stepped
      split at stepped <;> cases stepped
      rename_i event row calling
      cases thread with
      | controller => exact .write (call_controller.mp calling)
      | worker =>
          obtain ⟨wrapper, resume, calling⟩ := call_worker.mp calling
          simp only [Machine.setCall, calling]
          exact .workerWrite calling
  | complete thread =>
      simp only [Machine.step, Machine.complete] at stepped
      split at stepped
      · rename_i event row calling
        split at stepped <;> cases stepped
        rename_i finished acted
        cases thread with
        | controller =>
            change Effect machine (.complete .controller)
              { finished with controller := .returned event, fChangeStateMutex := none }
            exact .complete (call_controller.mp calling) acted
        | worker =>
            obtain ⟨wrapper, resume, calling⟩ := call_worker.mp calling
            simp only [Machine.returnCall, (Machine.finishAction_frame acted).2.1, calling]
            exact .workerComplete calling acted
      · contradiction
  | takeWork =>
      simp only [Machine.step, Machine.takeWork] at stepped
      split at stepped
      · rename_i waiting
        split at stepped
        · rename_i terminated
          cases stepped
          exact .terminate waiting terminated
        · rename_i running
          split at stepped
          · rename_i available
            split at stepped <;> cases stepped
            rename_i wrapper work
            exact .takeWork waiting (by simpa using running) available work
          · contradiction
      · contradiction
  | callback =>
      simp only [Machine.step] at stepped
      split at stepped <;> cases stepped
      rename_i wrapper handling
      exact .callback handling
  | raiseError =>
      simp only [Machine.step, Machine.raiseError] at stepped
      split at stepped <;> cases stepped
      all_goals
        rename_i handling
        exact .raiseError handling (by decide)
  | bodyReturns =>
      simp only [Machine.step, Machine.bodyReturns] at stepped
      split at stepped
      · rename_i handling
        split at stepped <;> cases stepped
        · rename_i running
          exact .callInternal handling rfl (fun _ => running)
        · rename_i stopped
          exact .skipInternal handling ⟨.inl rfl, stopped⟩
      · rename_i handling
        split at stepped <;> cases stepped
        rename_i resumed
        exact .skipInternal handling ⟨.inr rfl, resumed⟩
      · rename_i wrapper notRun notPause handling
        split at stepped <;> cases stepped
        rename_i event internal
        exact .callInternal handling internal (fun isRun => absurd isRun (notRun ·))
      · contradiction
  | wrapperReturns =>
      simp only [Machine.step] at stepped
      split at stepped <;> cases stepped
      rename_i wrapper handling
      exact .wrapperReturns handling
  | finishWork =>
      simp only [Machine.step] at stepped
      split at stepped <;> cases stepped
      rename_i finishing
      exact .finishWork finishing
  | readState =>
      simp only [Machine.step] at stepped
      split at stepped <;> cases stepped
      rename_i announcing
      exact .readState announcing
  | deliver =>
      simp only [Machine.step] at stepped
      split at stepped <;> cases stepped
      rename_i state announce
      exact .deliver announce

end FairMQ.StateMachine
