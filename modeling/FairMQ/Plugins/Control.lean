import FairMQ.StateMachine.Consistent

namespace FairMQ.Plugins

open FairMQ.Data FairMQ.StateMachine

/-! # `Control::RunShutdownSequence`

The plugin's thread is the machine's controller.  Every state-change callback
pushes its argument to `fEvents`.  The sequence reads the device state and
empties the queue in two separate steps; a device that settles in between loses
the only event that would have told the plugin about it. -/

/-- Program counter of `RunShutdownSequence`. -/
inductive Sequence where
  | start
  | read (nextState : State)
  | loop (nextState : State)
  | requesting
  | waiting
  | done
  | failed
deriving DecidableEq, Repr

structure Control where
  machine : Machine
  fEvents : List State
  sequence : Sequence
deriving DecidableEq, Repr

inductive ControlAction where
  | device (action : Action)
  | getCurrentDeviceState
  | emptyEventQueue
  | changeDeviceState
  | changeReturned
  | waitForNextState
deriving DecidableEq, Repr

/-- The `switch` of `RunShutdownSequence`, through `fkDeviceStateTransitionMap`:
`Resume` is `RUN`, `End` is `END`; every other state is ignored. -/
def shutdownTransition : State → Option Event
  | .idle => some .endDevice
  | .deviceReady => some .resetDevice
  | .ready => some .resetTask
  | .running => some .stop
  | .paused => some .run
  | _ => none

/-- What a client of the machine decides to do, as opposed to the steps that
its calls and the worker then make. -/
def clientDecides : Action → Bool
  | .request _ | .waitForEndOfState _ | .endOfState => true
  | _ => false

def pushed (before after : Machine) : List State :=
  after.announced.drop before.announced.length

namespace Control

def changeDeviceState (control : Control) : Option Control :=
  match control.sequence with
  | .loop nextState =>
      if nextState = .exiting ∨ nextState = .error then some { control with sequence := .done }
      else
        match shutdownTransition nextState with
        | none => some { control with sequence := .waiting }
        | some event =>
            match control.machine.request event with
            | some machine => some { control with machine, sequence := .requesting }
            | none => none
  | _ => none

/-- `WaitForNextState` throws on `Error` without popping it. -/
def waitForNextState (control : Control) : Option Control :=
  match control.sequence, control.fEvents with
  | .waiting, front :: rest =>
      if front = .error then some { control with sequence := .failed }
      else some { control with fEvents := rest, sequence := .loop front }
  | _, _ => none

def step (control : Control) : ControlAction → Option Control
  | .device action =>
      if clientDecides action then none
      else
        match control.machine.step action with
        | some machine =>
            some { control with machine, fEvents := control.fEvents ++ pushed control.machine machine }
        | none => none
  | .getCurrentDeviceState =>
      match control.sequence with
      | .start => some { control with sequence := .read control.machine.fState }
      | _ => none
  | .emptyEventQueue =>
      match control.sequence with
      | .read nextState => some { control with fEvents := [], sequence := .loop nextState }
      | _ => none
  | .changeDeviceState => control.changeDeviceState
  | .changeReturned =>
      match control.sequence, control.machine.controller with
      | .requesting, .returned _ => some { control with sequence := .waiting }
      | _, _ => none
  | .waitForNextState => control.waitForNextState

end Control

/-- The shutdown may find the device in any state that an arbitrary controller
can have left it in, with anything in the queue. -/
def shutdownSystem : TransitionSystem Control ControlAction where
  initial control :=
    machineSystem.Reaches control.machine ∧ control.sequence = .start ∧
      (control.machine.controller = .idle ∨ ∃ event, control.machine.controller = .returned event)
  step := Control.step

def reporting : Worker → Bool
  | .announcing | .announce _ => true
  | _ => false

def Control.stuck (control : Control) : Bool :=
  control.sequence == .waiting && control.fEvents.isEmpty &&
    !control.machine.fWorkAvailable && !control.machine.fWorkActive &&
    !reporting control.machine.worker &&
    control.machine.fState != .exiting && control.machine.fState != .error

/-- `EmptyEventQueue` discards nothing that the plugin still needs: the device is
in the state that was read or in a final one, or it is still going to report. -/
def Undiscarded (control : Control) : ControlAction → Prop
  | .emptyEventQueue =>
      control.sequence = .read control.machine.fState ∨
        control.machine.fState = .exiting ∨ control.machine.fState = .error ∨
        control.machine.fWorkAvailable = true ∨ control.machine.fWorkActive = true ∨
        control.machine.worker = .announcing ∨
        control.machine.worker = .announce control.machine.fState
  | _ => True

instance (control : Control) (action : ControlAction) :
    Decidable (Undiscarded control action) := by
  unfold Undiscarded
  split <;> infer_instance

inductive ControlEffect (control : Control) : ControlAction → Control → Prop where
  | device {action : Action} {machine : Machine} (own : clientDecides action = false)
      (stepped : control.machine.step action = some machine) :
      ControlEffect control (.device action)
        { control with machine, fEvents := control.fEvents ++ pushed control.machine machine }
  | readState (start : control.sequence = .start) :
      ControlEffect control .getCurrentDeviceState
        { control with sequence := .read control.machine.fState }
  | emptyEventQueue {nextState : State} (read : control.sequence = .read nextState) :
      ControlEffect control .emptyEventQueue
        { control with fEvents := [], sequence := .loop nextState }
  | finish {nextState : State} (loop : control.sequence = .loop nextState)
      (final : nextState = .exiting ∨ nextState = .error) :
      ControlEffect control .changeDeviceState { control with sequence := .done }
  | ignore {nextState : State} (loop : control.sequence = .loop nextState)
      (running : ¬ (nextState = .exiting ∨ nextState = .error))
      (ignored : shutdownTransition nextState = none) :
      ControlEffect control .changeDeviceState { control with sequence := .waiting }
  | request {nextState : State} {event : Event} {machine : Machine}
      (loop : control.sequence = .loop nextState)
      (wanted : shutdownTransition nextState = some event)
      (requested : control.machine.request event = some machine) :
      ControlEffect control .changeDeviceState { control with machine, sequence := .requesting }
  | changeReturned {event : Event} (requesting : control.sequence = .requesting)
      (returned : control.machine.controller = .returned event) :
      ControlEffect control .changeReturned { control with sequence := .waiting }
  | throws {rest : List State} (waiting : control.sequence = .waiting)
      (events : control.fEvents = .error :: rest) :
      ControlEffect control .waitForNextState { control with sequence := .failed }
  | pop {front : State} {rest : List State} (waiting : control.sequence = .waiting)
      (events : control.fEvents = front :: rest) :
      ControlEffect control .waitForNextState
        { control with fEvents := rest, sequence := .loop front }

theorem Control.step_effect {control after : Control} {action : ControlAction}
    (stepped : control.step action = some after) : ControlEffect control action after := by
  cases action with
  | device action =>
      simp only [Control.step] at stepped
      split at stepped
      · contradiction
      · rename_i own
        split at stepped <;> cases stepped
        rename_i machine moved
        exact .device (by simpa using own) moved
  | getCurrentDeviceState =>
      simp only [Control.step] at stepped
      split at stepped <;> cases stepped
      rename_i start
      exact .readState start
  | emptyEventQueue =>
      simp only [Control.step] at stepped
      split at stepped <;> cases stepped
      rename_i nextState read
      exact .emptyEventQueue read
  | changeDeviceState =>
      simp only [Control.step, Control.changeDeviceState] at stepped
      split at stepped
      · rename_i nextState loop
        split at stepped
        · rename_i final
          cases stepped
          exact .finish loop final
        · rename_i running
          split at stepped
          · rename_i ignored
            cases stepped
            exact .ignore loop running ignored
          · rename_i event wanted
            split at stepped <;> cases stepped
            rename_i machine requested
            exact .request loop wanted requested
      · contradiction
  | changeReturned =>
      simp only [Control.step] at stepped
      split at stepped <;> cases stepped
      rename_i event requesting returned
      exact .changeReturned requesting returned
  | waitForNextState =>
      simp only [Control.step, Control.waitForNextState] at stepped
      split at stepped
      · rename_i front rest waiting events
        split at stepped
        · rename_i isError
          cases stepped
          subst isError
          exact .throws waiting events
        · cases stepped
          exact .pop waiting events
      · contradiction

end FairMQ.Plugins
