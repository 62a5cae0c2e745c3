import FairMQ.Data.TransitionSystem
import FairMQ.StateMachine.Transitions

namespace FairMQ.StateMachine

open FairMQ.Data

/-! # The controller and the worker of `Machine_`

One controller thread calls `ChangeState` and `WaitForEndOfState`; one worker
thread runs `ProcessWork`.  A step is one block under `fWorkMutex`, the
acquisition of `fChangeStateMutex`, or one atomic access to `fState`.  The last
block of an action also releases `fChangeStateMutex`: the thread touches
nothing shared in between.  User hooks (`InitTask`, `Run`, ...) return after an
arbitrary time and do not throw. -/

inductive Thread where
  | controller
  | worker
deriving DecidableEq, Repr

/-- Progress of one `ChangeState` call: before `fChangeStateMutex`, with the
mutex before the action's write of `fState`, and after that write. -/
inductive Call where
  | lock (event : Event)
  | acting (event : Event) (row : Row)
  | wrote (event : Event) (row : Row)
deriving DecidableEq, Repr

def Call.event : Call → Event
  | .lock event | .acting event _ | .wrote event _ => event

def Call.holds : Call → Bool
  | .lock _ => false
  | .acting _ _ | .wrote _ _ => true

/-- Progress of a wrapper: before its `CallStateChangeCallbacks`, inside the
user hook, and after its own `ChangeState`. -/
inductive Stage where
  | begun
  | body
  | post
deriving DecidableEq, Repr

inductive Controller where
  | idle
  | changing (call : Call)
  | returned (event : Event)
  | waiting (event : Event)
deriving DecidableEq, Repr

/-- Program counter of `ProcessWork`.  `announcing` is the call
`CallStateChangeCallbacks(fState)` before `fState` is read, `announce` after. -/
inductive Worker where
  | waiting
  | handling (wrapper : Wrapper) (stage : Stage)
  | changing (call : Call) (wrapper : Wrapper) (resume : Stage)
  | finishing
  | announcing
  | announce (state : State)
  | stopped
deriving DecidableEq, Repr

def Worker.active : Worker → Bool
  | .handling _ _ | .changing _ _ _ | .finishing => true
  | _ => false

/-- `Machine_` with the program counters of both threads.  `lastEvent`,
`entered` and `announced` are history: the event whose transition last wrote
`fState`, the values written so far, and the arguments of all state-change
callbacks so far. -/
structure Machine where
  fState : State
  fWork : Option Wrapper
  fWorkActive : Bool
  fWorkAvailable : Bool
  fWorkerTerminated : Bool
  fChangeStateMutex : Option Thread
  controller : Controller
  worker : Worker
  lastEvent : Option Event
  entered : List State
  announced : List State
deriving DecidableEq, Repr

/-- After `start()`: `on_entry` has set `IDLE` before anybody subscribed. -/
def Machine.start : Machine where
  fState := .idle
  fWork := none
  fWorkActive := false
  fWorkAvailable := false
  fWorkerTerminated := false
  fChangeStateMutex := none
  controller := .idle
  worker := .waiting
  lastEvent := none
  entered := []
  announced := []

inductive Action where
  | request (event : Event)
  | waitForEndOfState (event : Event)
  | endOfState
  | lock (thread : Thread)
  | write (thread : Thread)
  | complete (thread : Thread)
  | takeWork
  | callback
  | raiseError
  | bodyReturns
  | wrapperReturns
  | finishWork
  | readState
  | deliver
deriving DecidableEq, Repr

namespace Machine

def call (machine : Machine) : Thread → Option Call
  | .controller =>
      match machine.controller with
      | .changing call => some call
      | _ => none
  | .worker =>
      match machine.worker with
      | .changing call _ _ => some call
      | _ => none

def setCall (machine : Machine) (call : Call) : Thread → Machine
  | .controller => { machine with controller := .changing call }
  | .worker =>
      match machine.worker with
      | .changing _ wrapper resume => { machine with worker := .changing call wrapper resume }
      | _ => machine

def returnCall (machine : Machine) (event : Event) : Thread → Machine
  | .controller => { machine with controller := .returned event }
  | .worker =>
      match machine.worker with
      | .changing _ wrapper resume => { machine with worker := .handling wrapper resume }
      | _ => machine

/-- What an action does after its write of `fState`; `none` while it waits for
`fWorkDoneCondition`.  `fUnblockHandler` only wakes transports up. -/
def finishAction (machine : Machine) (event : Event) : Fct → Option Machine
  | .automaticFct | .internalStopFct => some machine
  | .stopFct => if machine.fWorkActive then none else some machine
  | .defaultFct =>
      if machine.fWorkActive then none
      else
        match fStateHandlers event with
        | some wrapper => some { machine with fWorkAvailable := true, fWork := some wrapper }
        | none => none
  | .exitingFct =>
      some { machine with announced := machine.announced ++ [.exiting], fWorkerTerminated := true }
  | .errorFoundFct => some { machine with announced := machine.announced ++ [.error] }

/-- `lock_guard` on `fChangeStateMutex` and the table lookup of `process_event`. -/
def lock (machine : Machine) (thread : Thread) : Option Machine :=
  match machine.call thread, machine.fChangeStateMutex with
  | some (.lock event), none =>
      match transitionTable machine.fState event with
      | none => some (machine.returnCall event thread)
      | some row =>
          some { machine.setCall (.acting event row) thread with fChangeStateMutex := some thread }
  | _, _ => none

def write (machine : Machine) (thread : Thread) : Option Machine :=
  match machine.call thread with
  | some (.acting event row) =>
      some { machine.setCall (.wrote event row) thread with
        fState := row.target
        lastEvent := some event
        entered := machine.entered ++ [row.target] }
  | _ => none

def complete (machine : Machine) (thread : Thread) : Option Machine :=
  match machine.call thread with
  | some (.wrote event row) =>
      match machine.finishAction event row.action with
      | some finished =>
          some { finished.returnCall event thread with fChangeStateMutex := none }
      | none => none
  | _ => none

def takeWork (machine : Machine) : Option Machine :=
  match machine.worker with
  | .waiting =>
      if machine.fWorkerTerminated then some { machine with worker := .stopped }
      else if machine.fWorkAvailable then
        match machine.fWork with
        | some wrapper =>
            some { machine with fWorkActive := true, worker := .handling wrapper .begun }
        | none => none
      else none
  | _ => none

/-- The user hook of a wrapper returns.  `RunWrapper` then tests
`CheckCurrentState(RUNNING)`; `Pause()` returns only out of `PAUSED`. -/
def bodyReturns (machine : Machine) : Option Machine :=
  match machine.worker with
  | .handling .runWrapper .body =>
      if machine.fState = .running then
        some { machine with worker := .changing (.lock .internalReady) .runWrapper .post }
      else some { machine with worker := .handling .runWrapper .post }
  | .handling .pauseWrapper .body =>
      if machine.fState = .paused then none
      else some { machine with worker := .handling .pauseWrapper .post }
  | .handling wrapper .body =>
      match wrapper.internalEvent with
      | some event => some { machine with worker := .changing (.lock event) wrapper .post }
      | none => none
  | _ => none

/-- `InitWrapper` raises `ERROR_FOUND` before its callback (a channel without
method, a failed bind) or after it (connection attempts exhausted), and goes on. -/
def raiseError (machine : Machine) : Option Machine :=
  match machine.worker with
  | .handling .initWrapper .begun =>
      some { machine with worker := .changing (.lock .errorFound) .initWrapper .begun }
  | .handling .initWrapper .body =>
      some { machine with worker := .changing (.lock .errorFound) .initWrapper .body }
  | _ => none

def request (machine : Machine) (event : Event) : Option Machine :=
  match machine.controller with
  | .idle | .returned _ => some { machine with controller := .changing (.lock event) }
  | _ => none

/-- `WaitForEndOfState`: the synchronous events only log an error. -/
def waitForEndOfState (machine : Machine) (event : Event) : Option Machine :=
  match machine.controller with
  | .idle | .returned _ =>
      match event with
      | .initDevice | .initTask | .run | .resetTask | .resetDevice =>
          some { machine with controller := .waiting event }
      | _ => some { machine with controller := .idle }
  | _ => none

def endOfState (machine : Machine) : Option Machine :=
  match machine.controller with
  | .waiting _ =>
      if machine.fWorkActive || machine.fWorkAvailable then none
      else some { machine with controller := .idle }
  | _ => none

def step (machine : Machine) : Action → Option Machine
  | .request event => machine.request event
  | .waitForEndOfState event => machine.waitForEndOfState event
  | .endOfState => machine.endOfState
  | .lock thread => machine.lock thread
  | .write thread => machine.write thread
  | .complete thread => machine.complete thread
  | .takeWork => machine.takeWork
  | .callback =>
      match machine.worker with
      | .handling wrapper .begun =>
          some { machine with
            worker := .handling wrapper .body
            announced := machine.announced ++ [wrapper.announces] }
      | _ => none
  | .raiseError => machine.raiseError
  | .bodyReturns => machine.bodyReturns
  | .wrapperReturns =>
      match machine.worker with
      | .handling _ .post => some { machine with worker := .finishing }
      | _ => none
  | .finishWork =>
      match machine.worker with
      | .finishing =>
          some { machine with fWorkActive := false, fWorkAvailable := false, worker := .announcing }
      | _ => none
  | .readState =>
      match machine.worker with
      | .announcing => some { machine with worker := .announce machine.fState }
      | _ => none
  | .deliver =>
      match machine.worker with
      | .announce state =>
          some { machine with worker := .waiting, announced := machine.announced ++ [state] }
      | _ => none

end Machine

def machineSystem : TransitionSystem Machine Action where
  initial machine := machine = .start
  step := Machine.step

def changeTrace (event : Event) : List Action :=
  [.request event, .lock .controller, .write .controller, .complete .controller]

def workTrace : List Action :=
  [.takeWork, .callback, .bodyReturns, .lock .worker, .write .worker, .complete .worker,
    .wrapperReturns, .finishWork, .readState, .deliver]

end FairMQ.StateMachine
