import FairMQ.Data.TransitionSystem
import Mathlib.Data.List.Chain

namespace FairMQ.StateQueue

open FairMQ.Data

/-! # `fair::mq::StateMachine`

`ChangeState` validates a transition and queues its target; `Run` takes the
targets off the queue.  A regular transition is validated against the last queued
state, or against `fState` when nothing is queued; `ErrorFound` is validated
against the orthogonal `fErrorState`.  The members are accessed under `fMutex`, so a
call of `ChangeState` or `Reset` and an iteration of `Run` are single steps.  Only the
arguments of the callback in `Run` are read without it. -/

inductive State where
  | ok
  | error
  | idle
  | initializingDevice
  | deviceReady
  | initializingTask
  | ready
  | running
  | resettingTask
  | resettingDevice
  | exiting
deriving DecidableEq, Repr

inductive StateTransition where
  | initDevice
  | initTask
  | run
  | stop
  | resetTask
  | resetDevice
  | endDevice
  | errorFound
  | automatic
deriving DecidableEq, Repr

def State.toStr : State → String
  | .ok => "OK"
  | .error => "ERROR"
  | .idle => "IDLE"
  | .initializingDevice => "INITIALIZING DEVICE"
  | .deviceReady => "DEVICE READY"
  | .initializingTask => "INITIALIZING TASK"
  | .ready => "READY"
  | .running => "RUNNING"
  | .resettingTask => "RESETTING TASK"
  | .resettingDevice => "RESETTING DEVICE"
  | .exiting => "EXITING"

def StateTransition.toStr : StateTransition → String
  | .initDevice => "INIT DEVICE"
  | .initTask => "INIT TASK"
  | .run => "RUN"
  | .stop => "STOP"
  | .resetTask => "RESET TASK"
  | .resetDevice => "RESET DEVICE"
  | .endDevice => "END"
  | .errorFound => "ERROR FOUND"
  | .automatic => "AUTOMATIC"

structure IllegalTransition where
  what : String
deriving DecidableEq, Repr

def transition (currentState : State) (transition : StateTransition) :
    Except IllegalTransition State :=
  match currentState, transition with
  | .idle, .initDevice => .ok .initializingDevice
  | .idle, .endDevice => .ok .exiting
  | .initializingDevice, .automatic => .ok .deviceReady
  | .deviceReady, .initTask => .ok .initializingTask
  | .deviceReady, .resetDevice => .ok .resettingDevice
  | .initializingTask, .automatic => .ok .ready
  | .ready, .run => .ok .running
  | .ready, .resetTask => .ok .resettingTask
  | .running, .stop => .ok .ready
  | .resettingTask, .automatic => .ok .deviceReady
  | .resettingDevice, .automatic => .ok .idle
  | .ok, .errorFound => .ok .error
  | currentState, transition => .error
      ⟨"No transition " ++ transition.toStr ++ " from state " ++ currentState.toStr ++ "."⟩

inductive Emission where
  | stateQueued (newState lastState : State)
  | stateChange (newState lastState : State)
deriving DecidableEq, Repr

/-- The members, and the callback invocations so far. -/
structure Machine where
  fState : State
  fErrorState : State
  fNextStates : List State
  emitted : List Emission
deriving DecidableEq, Repr

namespace Machine

def new : Machine := ⟨.idle, .ok, [], []⟩

def emit (emission : Emission) (machine : Machine) : Machine :=
  { machine with emitted := machine.emitted ++ [emission] }

def pushBack (state : State) (machine : Machine) : Machine :=
  { machine with fNextStates := machine.fNextStates ++ [state] }

def lastState (machine : Machine) : StateTransition → State
  | .errorFound => machine.fErrorState
  | _ => machine.fNextStates.getLast?.getD machine.fState

end Machine

/-- `ChangeState`.  An exception leaves the members as they are when it is
thrown. -/
def changeState (requested : StateTransition) : EStateM IllegalTransition Machine Unit := do
  let machine ← get
  let lastState := machine.lastState requested
  match transition lastState requested with
  | .error illegal => throw illegal
  | .ok nextState =>
      modify (Machine.pushBack nextState)
      modify (Machine.emit (.stateQueued nextState lastState))

namespace Machine

/-- The body of the loop in `Run` once `fNewState` has let it pass; the flag says
whether the loop goes on. -/
def runIteration (machine : Machine) : Option (Machine × Bool) :=
  match machine.fNextStates with
  | [] => none
  | .error :: rest =>
      let advanced := { machine with fErrorState := .error, fNextStates := rest }
      some (advanced.emit (.stateChange advanced.fState machine.fErrorState), false)
  | front :: rest =>
      let advanced := { machine with fState := front, fNextStates := rest }
      some (advanced.emit (.stateChange advanced.fState machine.fState),
        advanced.fState != .exiting && advanced.fErrorState != .error)

def reset (machine : Machine) : Machine :=
  { machine with fState := .idle, fErrorState := .ok, fNextStates := [] }

end Machine

inductive Call where
  | changeState (transition : StateTransition)
  | runIteration
  | reset
deriving DecidableEq, Repr

/-- A call that throws is a step as well: the caller catches the exception and
the machine goes on as the call has left it. -/
def Machine.step (machine : Machine) : Call → Option Machine
  | .changeState transition =>
      match (changeState transition).run machine with
      | .ok _ after => some after
      | .error _ after => some after
  | .runIteration => machine.runIteration.map (·.1)
  | .reset => some machine.reset

def machineSystem : TransitionSystem Machine Call where
  initial machine := machine = .new
  step := Machine.step

def Follows (before after : State) : Prop :=
  ∃ requested, transition before requested = .ok after

theorem changeState_run (requested : StateTransition) (machine : Machine) :
    (changeState requested).run machine =
      match transition (machine.lastState requested) requested with
      | .error illegal => .error illegal machine
      | .ok nextState => .ok () ((machine.pushBack nextState).emit
          (.stateQueued nextState (machine.lastState requested))) := by
  simp only [changeState, EStateM.run_bind, EStateM.run_get]
  cases transition (machine.lastState requested) requested with
  | error illegal => simp only [EStateM.run_throw]
  | ok nextState => simp only [EStateM.run_bind, EStateM.run_modify]

inductive Effect (machine : Machine) : Call → Machine → Prop where
  | queued {requested : StateTransition} {nextState : State}
      (allowed : transition (machine.lastState requested) requested = .ok nextState) :
      Effect machine (.changeState requested) ((machine.pushBack nextState).emit
        (.stateQueued nextState (machine.lastState requested)))
  | rejected {requested : StateTransition} {illegal : IllegalTransition}
      (refused : transition (machine.lastState requested) requested = .error illegal) :
      Effect machine (.changeState requested) machine
  | failed {rest : List State} (queue : machine.fNextStates = .error :: rest) :
      Effect machine .runIteration
        (Machine.emit (.stateChange machine.fState machine.fErrorState)
          { machine with fErrorState := .error, fNextStates := rest })
  | entered {front : State} {rest : List State} (queue : machine.fNextStates = front :: rest)
      (noError : front ≠ .error) :
      Effect machine .runIteration
        (Machine.emit (.stateChange front machine.fState)
          { machine with fState := front, fNextStates := rest })
  | reset : Effect machine .reset machine.reset

theorem Machine.step_effect {machine after : Machine} {call : Call}
    (stepped : machine.step call = some after) : Effect machine call after := by
  cases call with
  | changeState requested =>
      simp only [Machine.step, changeState_run] at stepped
      cases allowed : transition (machine.lastState requested) requested with
      | error illegal =>
          simp only [allowed, Option.some.injEq] at stepped
          exact stepped ▸ .rejected allowed
      | ok nextState =>
          simp only [allowed, Option.some.injEq] at stepped
          exact stepped ▸ .queued allowed
  | runIteration =>
      simp only [Machine.step, Machine.runIteration] at stepped
      split at stepped
      · contradiction
      · rename_i rest queue
        cases stepped
        exact .failed queue
      · rename_i front rest noError queue
        cases stepped
        exact .entered queue fun same => noError same
  | reset =>
      cases stepped
      exact .reset

/-- A state of the regular machine, as opposed to the orthogonal error machine. -/
def State.regular : State → Bool
  | .ok | .error => false
  | _ => true

theorem transition_regular {state next : State} {requested : StateTransition}
    (regular : state.regular = true) (allowed : transition state requested = .ok next) :
    next.regular = true := by
  cases state <;> cases requested <;> cases allowed <;> first | rfl | cases regular

theorem transition_from_error {next : State} {requested : StateTransition} :
    transition .error requested ≠ .ok next := by
  cases requested <;> intro allowed <;> cases allowed

theorem transition_errorFound {state next : State}
    (allowed : transition state .errorFound = .ok next) : state = .ok ∧ next = .error := by
  cases state <;> cases allowed
  exact ⟨rfl, rfl⟩

theorem Machine.lastState_regular (machine : Machine) {requested : StateTransition}
    (regular : requested ≠ .errorFound) :
    machine.lastState requested = machine.fNextStates.getLast?.getD machine.fState := by
  cases requested <;> first | rfl | exact absurd rfl regular

/-- The queue holds the regular states still to be entered and, behind them, the
errors still to be reported. -/
structure Pending (machine : Machine) (regulars : List State) (errors : Nat) : Prop where
  queue : machine.fNextStates = regulars ++ List.replicate errors .error
  regular : ∀ state ∈ machine.fState :: regulars, state.regular = true
  path : (machine.fState :: regulars).IsChain Follows

namespace Pending

variable {machine : Machine} {regulars : List State} {errors : Nat}

theorem lastState (pending : Pending machine regulars errors) {requested : StateTransition}
    (regular : requested ≠ .errorFound) :
    machine.lastState requested =
      if errors = 0 then (machine.fState :: regulars).getLast (List.cons_ne_nil _ _)
      else .error := by
  rw [machine.lastState_regular regular, pending.queue]
  cases errors with
  | zero =>
      rw [List.replicate_zero, List.append_nil, if_pos rfl]
      have last := List.getLast?_eq_some_getLast (List.cons_ne_nil machine.fState regulars)
      rw [List.getLast?_cons] at last
      exact Option.some.inj last
  | succ errors =>
      rw [if_neg (Nat.succ_ne_zero errors), List.getLast?_append, List.getLast?_replicate,
        if_neg (Nat.succ_ne_zero errors)]
      rfl

theorem pushError (pending : Pending machine regulars errors) (emission : Emission) :
    Pending ((machine.pushBack .error).emit emission) regulars (errors + 1) where
  queue := by
    change machine.fNextStates ++ [.error] = _
    rw [pending.queue, List.append_assoc, ← List.replicate_succ']
  regular := pending.regular
  path := pending.path

theorem pushRegular (pending : Pending machine regulars errors) {requested : StateTransition}
    {nextState : State} (regular : requested ≠ .errorFound)
    (allowed : transition (machine.lastState requested) requested = .ok nextState)
    (emission : Emission) :
    errors = 0 ∧
      Pending ((machine.pushBack nextState).emit emission) (regulars ++ [nextState]) 0 := by
  rw [pending.lastState regular] at allowed
  split at allowed
  · rename_i noErrors
    subst noErrors
    have last := List.getLast_mem (List.cons_ne_nil machine.fState regulars)
    refine ⟨rfl, ?_, ?_, ?_⟩
    · change machine.fNextStates ++ [nextState] = _
      rw [pending.queue]
      simp
    · intro state member
      rw [← List.cons_append] at member
      cases List.mem_append.mp member with
      | inl old => exact pending.regular state old
      | inr new =>
          rw [List.mem_singleton.mp new]
          exact transition_regular (pending.regular _ last) allowed
    · change ((machine.fState :: regulars) ++ [nextState]).IsChain Follows
      rw [List.isChain_append]
      refine ⟨pending.path, List.isChain_singleton _, ?_⟩
      intro before isLast after isNext
      rw [List.getLast?_eq_some_getLast (List.cons_ne_nil machine.fState regulars)] at isLast
      cases isLast
      cases isNext
      exact ⟨requested, allowed⟩
  · exact absurd allowed transition_from_error

theorem frontError (pending : Pending machine regulars errors) {rest : List State}
    (queue : machine.fNextStates = .error :: rest) :
    regulars = [] ∧ ∃ left, errors = left + 1 ∧ rest = List.replicate left .error := by
  rw [pending.queue] at queue
  cases regulars with
  | nil =>
      cases errors with
      | zero => cases queue
      | succ left =>
          rw [List.nil_append, List.replicate_succ] at queue
          exact ⟨rfl, left, rfl, (List.cons.inj queue).2.symm⟩
  | cons first regulars =>
      have isRegular := pending.regular first (by simp)
      rw [(List.cons.inj queue).1] at isRegular
      cases isRegular

theorem frontRegular (pending : Pending machine regulars errors) {front : State}
    {rest : List State} (queue : machine.fNextStates = front :: rest) (noError : front ≠ .error) :
    ∃ left, regulars = front :: left ∧ rest = left ++ List.replicate errors .error := by
  rw [pending.queue] at queue
  cases regulars with
  | nil =>
      have isError : front = .error := by
        have member : front ∈ List.replicate errors State.error := by
          rw [List.nil_append] at queue
          simp [queue]
        exact List.eq_of_mem_replicate member
      exact absurd isError noError
  | cons first regulars =>
      obtain ⟨isFirst, isRest⟩ := List.cons.inj queue
      exact ⟨regulars, by rw [isFirst], isRest.symm⟩

theorem popError (pending : Pending machine [] (errors + 1)) (emission : Emission) :
    Pending (Machine.emit emission
      { machine with fErrorState := .error, fNextStates := List.replicate errors .error }) []
      errors where
  queue := rfl
  regular := pending.regular
  path := pending.path

theorem popRegular {front : State} (pending : Pending machine (front :: regulars) errors)
    (emission : Emission) :
    Pending (Machine.emit emission
      { machine with
        fState := front, fNextStates := regulars ++ List.replicate errors .error })
      regulars errors where
  queue := rfl
  regular := fun state member => pending.regular state (List.mem_cons_of_mem _ member)
  path := pending.path.tail

end Pending

theorem pending_of_reaches {allowed : Machine → Call → Prop} {machine : Machine}
    (reached : machineSystem.ReachesUnder allowed machine) :
    ∃ regulars errors, Pending machine regulars errors := by
  induction reached with
  | initial start =>
      cases start
      exact ⟨[], 0, rfl, by simp [Machine.new, State.regular], List.isChain_singleton _⟩
  | step _ _ stepped ih =>
      obtain ⟨regulars, errors, pending⟩ := ih
      cases Machine.step_effect stepped with
      | @queued requested nextState allowed =>
          by_cases regular : requested = .errorFound
          · subst regular
            obtain ⟨_, isError⟩ := transition_errorFound allowed
            subst isError
            exact ⟨regulars, errors + 1, pending.pushError _⟩
          · exact ⟨_, _, (pending.pushRegular regular allowed _).2⟩
      | rejected => exact ⟨regulars, errors, pending⟩
      | failed queue =>
          obtain ⟨none, left, counted, isRest⟩ := pending.frontError queue
          subst none counted isRest
          exact ⟨[], left, pending.popError _⟩
      | entered queue noError =>
          obtain ⟨left, isFront, isRest⟩ := pending.frontRegular queue noError
          subst isFront isRest
          exact ⟨left, errors, pending.popRegular _⟩
      | reset =>
          exact ⟨[], 0, rfl, by simp [Machine.reset, State.regular], List.isChain_singleton _⟩

/-- In every reachable state `fState` and the queued regular states form a path of
the transition function, errors are queued behind everything else, and a refused
`ChangeState` changes nothing and calls no callback. -/
theorem queue_is_path {machine : Machine} (reached : machineSystem.Reaches machine) :
    (machine.fState :: machine.fNextStates.filter (· ≠ .error)).IsChain Follows ∧
    machine.fNextStates.Pairwise (fun earlier later => earlier = .error → later = .error) ∧
    ∀ requested illegal after, (changeState requested).run machine = .error illegal after →
      after = machine := by
  obtain ⟨regulars, errors, pending⟩ := pending_of_reaches reached
  have noError : ∀ state ∈ regulars, state ≠ .error := by
    intro state member isError
    have regular := pending.regular state (List.mem_cons_of_mem _ member)
    rw [isError] at regular
    cases regular
  refine ⟨?_, ?_, ?_⟩
  · have kept : machine.fNextStates.filter (· ≠ .error) = regulars := by
      rw [pending.queue, List.filter_append, List.filter_eq_self.mpr (by simpa using noError)]
      simp
    rw [kept]
    exact pending.path
  · rw [pending.queue, List.pairwise_append]
    refine ⟨?_, ?_, ?_⟩
    · refine List.pairwise_of_forall_mem_list ?_
      intro earlier member later _ isError
      exact absurd isError (noError earlier member)
    · exact List.pairwise_replicate.mpr (.inr fun isError => isError)
    · intro earlier _ later member _
      exact List.eq_of_mem_replicate member
  · intro requested illegal after thrown
    rw [changeState_run] at thrown
    split at thrown <;> cases thrown
    rfl

theorem queue_is_path_with_error : ∃ machine : Machine,
    machineSystem.Reaches machine ∧
    machine.fNextStates = [.initializingDevice, .deviceReady, .error] ∧
    (machine.fState :: machine.fNextStates.filter (· ≠ .error)).IsChain Follows := by
  obtain ⟨machine, reached, queued⟩ : ∃ machine,
      machineSystem.ReachesUnder (fun _ _ => True) machine ∧
        machine.fNextStates = [.initializingDevice, .deviceReady, .error] :=
    TransitionSystem.reaches_of_runUnder Machine.new
      [.changeState .initDevice, .changeState .automatic, .changeState .errorFound]
      rfl (by decide)
  exact ⟨machine, reached, queued, (queue_is_path reached).1⟩

end FairMQ.StateQueue
