import FairMQ.Plugins.Control

namespace FairMQ.Plugins

open FairMQ.Data FairMQ.StateMachine

inductive Startup where
  | initDevice
  | initTask
  | run
deriving DecidableEq, Repr

def Startup.event : Startup → Event
  | .initDevice => .initDevice
  | .initTask => .initTask
  | .run => .run

def Startup.awaited : Startup → State
  | .initDevice => .deviceReady
  | .initTask => .ready
  | .run => .running

/-- `undefined` is `fEvents.front()` on an empty queue. -/
inductive Point where
  | change (startup : Startup)
  | requesting (startup : Startup)
  | waiting (startup : Startup)
  | started
  | shutdown
  | undefined
  | failed
deriving DecidableEq, Repr

def Startup.next : Startup → Point
  | .initDevice => .change .initTask
  | .initTask => .change .run
  | .run => .started

structure StaticMode where
  control : Control
  fDeviceShutdownRequested : Bool
  point : Point
deriving DecidableEq, Repr

def StaticMode.start : StaticMode where
  control := ⟨.start, [], .start⟩
  fDeviceShutdownRequested := false
  point := .change .initDevice

inductive StaticAction where
  | device (action : Action)
  | changeDeviceState
  | changeReturned
  | waitForNextState
  | signal
  | leave
  | shutdown (action : ControlAction)
deriving DecidableEq, Repr

namespace StaticMode

variable (mode : StaticMode)

def changeDeviceState : Option StaticMode :=
  match mode.point with
  | .change startup =>
      (mode.control.machine.request startup.event).map fun machine =>
        { mode with control := { mode.control with machine }, point := .requesting startup }
  | _ => none

def changeReturned : Option StaticMode :=
  match mode.point, mode.control.machine.controller with
  | .requesting startup, .returned _ => some { mode with point := .waiting startup }
  | _, _ => none

def waitForNextState : Option StaticMode :=
  match mode.point, mode.control.fEvents with
  | .waiting startup, front :: rest =>
      if front = .error then some { mode with point := .failed }
      else
        some { mode with
          control := { mode.control with fEvents := rest }
          point := if front = startup.awaited then startup.next else .waiting startup }
  | _, _ => none

/-- The wait behind the startup ends with an event or with a signal; the front of the queue is
read under the same lock. -/
def leave : Option StaticMode :=
  match mode.point, mode.control.fEvents with
  | .started, [] =>
      if mode.fDeviceShutdownRequested then some { mode with point := .undefined } else none
  | .started, front :: _ =>
      some { mode with point := if front = .error then .failed else .shutdown }
  | _, _ => none

def runShutdownSequence (action : ControlAction) : Option StaticMode :=
  match mode.point, action with
  | .shutdown, .device _ => none
  | .shutdown, action => (mode.control.step action).map fun control => { mode with control }
  | _, _ => none

def step : StaticAction → Option StaticMode
  | .device action =>
      (mode.control.step (.device action)).map fun control => { mode with control }
  | .changeDeviceState => mode.changeDeviceState
  | .changeReturned => mode.changeReturned
  | .waitForNextState => mode.waitForNextState
  | .signal =>
      if mode.fDeviceShutdownRequested then none
      else some { mode with fDeviceShutdownRequested := true }
  | .leave => mode.leave
  | .shutdown action => mode.runShutdownSequence action

end StaticMode

def staticSystem : TransitionSystem StaticMode StaticAction where
  initial mode := mode = .start
  step := StaticMode.step

def Faultless (_ : StaticMode) : StaticAction → Prop
  | .device .raiseError => False
  | _ => True

instance (mode : StaticMode) (action : StaticAction) : Decidable (Faultless mode action) := by
  unfold Faultless
  split <;> infer_instance

inductive StaticEffect (mode : StaticMode) : StaticAction → StaticMode → Prop where
  | device {action : Action} {machine : Machine} (own : clientDecides action = false)
      (stepped : mode.control.machine.step action = some machine) :
      StaticEffect mode (.device action)
        { mode with
          control := { mode.control with
            machine, fEvents := mode.control.fEvents ++ pushed mode.control.machine machine } }
  | request {startup : Startup} {machine : Machine} (change : mode.point = .change startup)
      (requested : mode.control.machine.request startup.event = some machine) :
      StaticEffect mode .changeDeviceState
        { mode with control := { mode.control with machine }, point := .requesting startup }
  | changeReturned {startup : Startup} {event : Event} (requesting : mode.point = .requesting startup)
      (returned : mode.control.machine.controller = .returned event) :
      StaticEffect mode .changeReturned { mode with point := .waiting startup }
  | throws {startup : Startup} {rest : List State} (waiting : mode.point = .waiting startup)
      (events : mode.control.fEvents = .error :: rest) :
      StaticEffect mode .waitForNextState { mode with point := .failed }
  | pop {startup : Startup} {front : State} {rest : List State}
      (waiting : mode.point = .waiting startup) (events : mode.control.fEvents = front :: rest)
      (usable : front ≠ .error) :
      StaticEffect mode .waitForNextState
        { mode with
          control := { mode.control with fEvents := rest }
          point := if front = startup.awaited then startup.next else .waiting startup }
  | signal (unset : mode.fDeviceShutdownRequested = false) :
      StaticEffect mode .signal { mode with fDeviceShutdownRequested := true }
  | front (started : mode.point = .started) (events : mode.control.fEvents = [])
      (signalled : mode.fDeviceShutdownRequested = true) :
      StaticEffect mode .leave { mode with point := .undefined }
  | leave {front : State} {rest : List State} (started : mode.point = .started)
      (events : mode.control.fEvents = front :: rest) :
      StaticEffect mode .leave
        { mode with point := if front = .error then .failed else .shutdown }
  | shutdown {action : ControlAction} {control : Control} (point : mode.point = .shutdown)
      (own : ∀ action', action ≠ .device action')
      (effect : ControlEffect mode.control action control) :
      StaticEffect mode (.shutdown action) { mode with control }

theorem StaticMode.step_effect {mode after : StaticMode} {action : StaticAction}
    (stepped : mode.step action = some after) : StaticEffect mode action after := by
  cases action with
  | device action =>
      simp only [StaticMode.step, Option.map_eq_some_iff] at stepped
      obtain ⟨control, moved, rfl⟩ := stepped
      cases Control.step_effect moved with
      | device own stepped => exact .device own stepped
  | changeDeviceState =>
      simp only [StaticMode.step, StaticMode.changeDeviceState] at stepped
      split at stepped
      · rename_i startup change
        obtain ⟨machine, requested, rfl⟩ := Option.map_eq_some_iff.mp stepped
        exact .request change requested
      · contradiction
  | changeReturned =>
      simp only [StaticMode.step, StaticMode.changeReturned] at stepped
      split at stepped <;> cases stepped
      rename_i startup event requesting returned
      exact .changeReturned requesting returned
  | waitForNextState =>
      simp only [StaticMode.step, StaticMode.waitForNextState] at stepped
      split at stepped
      · rename_i startup front rest waiting events
        split at stepped <;> cases stepped
        · rename_i isError
          subst isError
          exact .throws waiting events
        · rename_i usable
          exact .pop waiting events usable
      · contradiction
  | signal =>
      simp only [StaticMode.step] at stepped
      split at stepped <;> cases stepped
      rename_i unset
      exact .signal (by simpa using unset)
  | leave =>
      simp only [StaticMode.step, StaticMode.leave] at stepped
      split at stepped
      · rename_i started events
        split at stepped <;> cases stepped
        rename_i signalled
        exact .front started events signalled
      · rename_i started events
        cases stepped
        exact .leave started events
      · contradiction
  | shutdown action =>
      simp only [StaticMode.step, StaticMode.runShutdownSequence] at stepped
      split at stepped
      · contradiction
      · rename_i point other
        obtain ⟨control, moved, rfl⟩ := Option.map_eq_some_iff.mp stepped
        exact .shutdown point other (Control.step_effect moved)
      · contradiction

theorem static_machine_reaches {allowed : StaticMode → StaticAction → Prop} {mode : StaticMode}
    (reached : staticSystem.ReachesUnder allowed mode) :
    machineSystem.Reaches mode.control.machine := by
  induction reached with
  | initial start =>
      cases start
      exact .initial rfl
  | step _ _ stepped reaches =>
      cases StaticMode.step_effect stepped with
      | device _ moved => exact .step reaches trivial moved
      | @request startup machine _ requested =>
          have moved : machineSystem.step _ (.request startup.event) = some machine := requested
          exact .step reaches trivial moved
      | shutdown _ own effect =>
          cases effect with
          | device _ _ => exact absurd rfl (own _)
          | @request _ event machine _ _ requested =>
              have moved : machineSystem.step _ (.request event) = some machine := requested
              exact .step reaches trivial moved
          | _ => exact reaches
      | _ => exact reaches

end FairMQ.Plugins
