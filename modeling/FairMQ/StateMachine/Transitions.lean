namespace FairMQ.StateMachine

/-! # States, events and the transition table

`FairMQStateMachine` and the table of `Machine_`.  Boost MSM runs two regions:
the device region and the region `OK → ERROR`, whose target is a terminate
state that blocks every further event.  `fState` holds the device region's
state until an error and `Error` afterwards, so one lookup on `fState` decides
what an event does. -/

inductive State where
  | ok
  | error
  | idle
  | initializingDevice
  | deviceReady
  | initializingTask
  | ready
  | running
  | paused
  | resettingTask
  | resettingDevice
  | exiting
deriving DecidableEq, Repr

inductive Event where
  | initDevice
  | internalDeviceReady
  | initTask
  | internalReady
  | run
  | pause
  | stop
  | resetTask
  | resetDevice
  | internalIdle
  | endDevice
  | errorFound
deriving DecidableEq, Repr

/-- The action functors of the table.  `PauseFct` is declared in the source but
no row uses it. -/
inductive Fct where
  | automaticFct
  | defaultFct
  | stopFct
  | internalStopFct
  | exitingFct
  | errorFoundFct
deriving DecidableEq, Repr

/-- The actions that block in `fWorkDoneCondition.wait` while `fWorkActive`. -/
def Fct.waits : Fct → Bool
  | .defaultFct | .stopFct => true
  | .automaticFct | .internalStopFct | .exitingFct | .errorFoundFct => false

structure Row where
  target : State
  action : Fct
deriving DecidableEq, Repr

/-- `Machine_::transition_table`; `none` is `no_transition`. -/
def transitionTable : State → Event → Option Row
  | .idle, .initDevice => some ⟨.initializingDevice, .defaultFct⟩
  | .idle, .endDevice => some ⟨.exiting, .exitingFct⟩
  | .initializingDevice, .internalDeviceReady => some ⟨.deviceReady, .automaticFct⟩
  | .deviceReady, .initTask => some ⟨.initializingTask, .defaultFct⟩
  | .deviceReady, .resetDevice => some ⟨.resettingDevice, .defaultFct⟩
  | .initializingTask, .internalReady => some ⟨.ready, .automaticFct⟩
  | .ready, .run => some ⟨.running, .defaultFct⟩
  | .ready, .resetTask => some ⟨.resettingTask, .defaultFct⟩
  | .running, .pause => some ⟨.paused, .defaultFct⟩
  | .running, .stop => some ⟨.ready, .stopFct⟩
  | .running, .internalReady => some ⟨.ready, .internalStopFct⟩
  | .paused, .run => some ⟨.running, .defaultFct⟩
  | .resettingTask, .internalDeviceReady => some ⟨.deviceReady, .automaticFct⟩
  | .resettingDevice, .internalIdle => some ⟨.idle, .automaticFct⟩
  -- the terminate state of the second region swallows every event
  | .error, _ => none
  | _, .errorFound => some ⟨.error, .errorFoundFct⟩
  | _, _ => none

inductive Wrapper where
  | initWrapper
  | initTaskWrapper
  | runWrapper
  | pauseWrapper
  | resetTaskWrapper
  | resetWrapper
deriving DecidableEq, Repr

/-- `fStateHandlers` as filled by the constructor, for the handlers that
`DefaultFct` stores.  The handler of `END` is the empty `Exit()`, which
`ExitingFct` calls itself. -/
def fStateHandlers : Event → Option Wrapper
  | .initDevice => some .initWrapper
  | .initTask => some .initTaskWrapper
  | .run => some .runWrapper
  | .pause => some .pauseWrapper
  | .resetTask => some .resetTaskWrapper
  | .resetDevice => some .resetWrapper
  | _ => none

/-- The constant with which a wrapper calls `CallStateChangeCallbacks`; it is
the state whose work the wrapper is. -/
def Wrapper.announces : Wrapper → State
  | .initWrapper => .initializingDevice
  | .initTaskWrapper => .initializingTask
  | .runWrapper => .running
  | .pauseWrapper => .paused
  | .resetTaskWrapper => .resettingTask
  | .resetWrapper => .resettingDevice

/-- The event with which a wrapper ends its state.  `RunWrapper` issues it only
after its `CheckCurrentState(RUNNING)`, `PauseWrapper` issues none. -/
def Wrapper.internalEvent : Wrapper → Option Event
  | .initWrapper => some .internalDeviceReady
  | .initTaskWrapper => some .internalReady
  | .runWrapper => some .internalReady
  | .pauseWrapper => none
  | .resetTaskWrapper => some .internalDeviceReady
  | .resetWrapper => some .internalIdle

def State.working : State → Bool
  | .initializingDevice | .initializingTask | .running | .paused
  | .resettingTask | .resettingDevice => true
  | _ => false

theorem default_row_handler {state : State} {event : Event} {row : Row}
    (found : transitionTable state event = some row) (action : row.action = .defaultFct) :
    ∃ wrapper, fStateHandlers event = some wrapper ∧ wrapper.announces = row.target := by
  cases state <;> cases event <;> simp [transitionTable] at found <;> subst found <;>
    simp_all [fStateHandlers, Wrapper.announces]

theorem working_row_default {state : State} {event : Event} {row : Row}
    (found : transitionTable state event = some row) (working : row.target.working = true) :
    row.action = .defaultFct := by
  cases state <;> cases event <;> simp [transitionTable] at found <;> subst found <;>
    simp_all [State.working]

theorem internal_row {wrapper : Wrapper} {event : Event}
    (internal : wrapper.internalEvent = some event) :
    ∃ row, transitionTable wrapper.announces event = some row := by
  cases wrapper <;> simp [Wrapper.internalEvent] at internal <;> subst internal <;>
    simp [Wrapper.announces, transitionTable]

theorem wrapper_row_never_waits (wrapper : Wrapper) {state : State} {event : Event} {row : Row}
    (issued : event = .errorFound ∨ wrapper.internalEvent = some event)
    (found : transitionTable state event = some row) : row.action.waits = false := by
  rcases issued with rfl | internal
  · cases state <;> simp [transitionTable] at found <;> subst found <;> rfl
  · cases wrapper <;> simp [Wrapper.internalEvent] at internal <;> subst internal <;>
      cases state <;> simp [transitionTable] at found <;> subst found <;> rfl

theorem row_target_known {state : State} {event : Event} {row : Row}
    (found : transitionTable state event = some row) : row.target ≠ .ok := by
  cases state <;> cases event <;> simp [transitionTable] at found <;> subst found <;> decide

theorem errorFound_target {state : State} {row : Row}
    (found : transitionTable state .errorFound = some row) : row.target = .error := by
  cases state <;> simp [transitionTable] at found <;> subst found <;> rfl

/-- Without a row an event other than `ERROR_FOUND` is simply not expected in
this state; `ERROR_FOUND` has a row everywhere but in `Error`. -/
theorem errorFound_ignored {state : State} (missing : transitionTable state .errorFound = none) :
    state = .error := by
  cases state <;> simp_all [transitionTable]

end FairMQ.StateMachine
