import FairMQ.Plugins.StaticMode

namespace FairMQ.Plugins

open FairMQ.Data FairMQ.StateMachine

inductive Leg where
  | initDevice
  | initTask
  | run
  | resetTask
  | resetDevice
deriving DecidableEq, Repr

namespace Leg

def event : Leg → Event
  | .initDevice => .initDevice
  | .initTask => .initTask
  | .run => .run
  | .resetTask => .resetTask
  | .resetDevice => .resetDevice

def wrapper : Leg → Wrapper
  | .initDevice => .initWrapper
  | .initTask => .initTaskWrapper
  | .run => .runWrapper
  | .resetTask => .resetTaskWrapper
  | .resetDevice => .resetWrapper

def internal : Leg → Event
  | .initDevice | .resetTask => .internalDeviceReady
  | .initTask | .run => .internalReady
  | .resetDevice => .internalIdle

def source : Leg → State
  | .initDevice => .idle
  | .initTask | .resetDevice => .deviceReady
  | .run | .resetTask => .ready

def target : Leg → State
  | .initDevice | .resetTask => .deviceReady
  | .initTask | .run => .ready
  | .resetDevice => .idle

def working (leg : Leg) : State := leg.wrapper.announces

def earlier : Leg → List State
  | .initDevice => []
  | .initTask => [.initializingDevice, .deviceReady]
  | .run => [.initializingDevice, .deviceReady, .initializingTask, .ready]
  | .resetTask =>
      [.initializingDevice, .deviceReady, .initializingTask, .ready, .running, .ready]
  | .resetDevice =>
      [.initializingDevice, .deviceReady, .initializingTask, .ready, .running, .ready,
        .resettingTask, .deviceReady]

def left : Leg → Nat
  | .initDevice => 5
  | .initTask => 4
  | .run => 3
  | .resetTask => 2
  | .resetDevice => 1

def row (leg : Leg) : Row := ⟨leg.working, .defaultFct⟩

def internalRow : Leg → Row
  | .run => ⟨.ready, .internalStopFct⟩
  | leg => ⟨leg.target, .automaticFct⟩

variable {leg : Leg}

theorem found (leg : Leg) : transitionTable leg.source leg.event = some leg.row := by
  cases leg <;> rfl

theorem internal_found (leg : Leg) :
    transitionTable leg.working leg.internal = some leg.internalRow := by
  cases leg <;> rfl

theorem handler (leg : Leg) : fStateHandlers leg.event = some leg.wrapper := by
  cases leg <;> rfl

theorem issues (leg : Leg) : leg.wrapper.internalEvent = some leg.internal := by
  cases leg <;> rfl

theorem internalRow_target (leg : Leg) : leg.internalRow.target = leg.target := by
  cases leg <;> rfl

theorem end_kept (leg : Leg) {machine : Machine} :
    machine.finishAction leg.internal leg.internalRow.action = some machine := by
  cases leg <;> rfl

end Leg

def itinerary : List State :=
  Leg.resetDevice.earlier ++ [.resettingDevice, .idle, .exiting]

structure AtRest (state : State) (entered : List State) (machine : Machine) : Prop where
  free : machine.controller = .idle ∨ ∃ last, machine.controller = .returned last
  resting : machine.worker = .waiting
  unavailable : machine.fWorkAvailable = false
  state : machine.fState = state
  entered : machine.entered = entered

/-- The places on a leg: the request, the work, its end and the report of it. -/
inductive Place where
  | lock
  | acting
  | wrote
  | posted
  | begun
  | body
  | endLock
  | endActing
  | endWrote
  | post
  | finishing
  | announcing
  | announce
  | settled
deriving DecidableEq, Repr

namespace Leg

variable (leg : Leg)

@[simp] def controller : Place → Controller
  | .lock => .changing (.lock leg.event)
  | .acting => .changing (.acting leg.event leg.row)
  | .wrote => .changing (.wrote leg.event leg.row)
  | _ => .returned leg.event

@[simp] def worker : Place → Worker
  | .lock | .acting | .wrote | .posted | .settled => .waiting
  | .begun => .handling leg.wrapper .begun
  | .body => .handling leg.wrapper .body
  | .endLock => .changing (.lock leg.internal) leg.wrapper .post
  | .endActing => .changing (.acting leg.internal leg.internalRow) leg.wrapper .post
  | .endWrote => .changing (.wrote leg.internal leg.internalRow) leg.wrapper .post
  | .post => .handling leg.wrapper .post
  | .finishing => .finishing
  | .announcing => .announcing
  | .announce => .announce leg.target

@[simp] def way : Place → State × List State
  | .lock | .acting => (leg.source, [])
  | .wrote | .posted | .begun | .body | .endLock | .endActing => (leg.working, [leg.working])
  | _ => (leg.target, [leg.working, leg.target])

@[simp] def told : Place → List State
  | .lock | .acting | .wrote | .posted | .begun => []
  | .settled => [leg.working, leg.target]
  | _ => [leg.working]

end Leg

@[simp] def Place.available : Place → Option Bool
  | .lock | .acting | .wrote | .announcing | .announce | .settled => some false
  | .posted => some true
  | _ => none

structure At (leg : Leg) (place : Place) (machine : Machine) : Prop where
  controller : machine.controller = leg.controller place
  worker : machine.worker = leg.worker place
  state : machine.fState = (leg.way place).1
  entered : machine.entered = leg.earlier ++ (leg.way place).2
  available : ∀ value ∈ place.available, machine.fWorkAvailable = value
  work : place = .posted → machine.fWork = some leg.wrapper

def Travels (leg : Leg) (machine : Machine) (told : List State) : Prop :=
  ∃ place, At leg place machine ∧ told = leg.told place

inductive Failing (machine : Machine) : List State → Prop where
  | raising {stage : Stage} {told : List State}
      (returned : machine.controller = .returned .initDevice)
      (busy : machine.worker = .changing (.lock .errorFound) .initWrapper stage ∨
        machine.worker =
          .changing (.acting .errorFound ⟨.error, .errorFoundFct⟩) .initWrapper stage)
      (state : machine.fState = .initializingDevice)
      (entered : machine.entered = [.initializingDevice])
      (before : stage = .begun ∧ told = [] ∨ stage = .body ∧ told = [.initializingDevice]) :
      Failing machine told
  | raised {stage : Stage} {told : List State}
      (returned : machine.controller = .returned .initDevice)
      (busy : machine.worker =
        .changing (.wrote .errorFound ⟨.error, .errorFoundFct⟩) .initWrapper stage)
      (state : machine.fState = .error)
      (entered : machine.entered = [.initializingDevice, .error])
      (before : told = [] ∨ told = [.initializingDevice]) : Failing machine told
  | failed {told rest : List State}
      (returned : machine.controller = .returned .initDevice)
      (outside : machine.worker.holds = false)
      (state : machine.fState = .error)
      (entered : machine.entered = [.initializingDevice, .error])
      (before : told = .error :: rest ∨ told = .initializingDevice :: .error :: rest) :
      Failing machine told

inductive Exiting (machine : Machine) : List State → Prop where
  | asking {call : Call} (calling : machine.controller = .changing call)
      (asked : call = .lock .endDevice ∨ call = .acting .endDevice ⟨.exiting, .exitingFct⟩)
      (resting : machine.worker = .waiting) (unavailable : machine.fWorkAvailable = false)
      (state : machine.fState = .idle)
      (entered : machine.entered = Leg.resetDevice.earlier ++ [.resettingDevice, .idle]) :
      Exiting machine []
  | wrote (calling : machine.controller = .changing (.wrote .endDevice ⟨.exiting, .exitingFct⟩))
      (resting : machine.worker = .waiting) (unavailable : machine.fWorkAvailable = false)
      (alive : machine.fWorkerTerminated = false)
      (state : machine.fState = .exiting) (entered : machine.entered = itinerary) :
      Exiting machine []
  | exited (returned : machine.controller = .returned .endDevice)
      (resting : machine.worker = .waiting ∨ machine.worker = .stopped)
      (terminated : machine.fWorkerTerminated = true)
      (state : machine.fState = .exiting) (entered : machine.entered = itinerary) :
      Exiting machine [.exiting]

theorem exiting_row {state : State} {event : Event} {row : Row}
    (found : transitionTable state event = some row) :
    (state = .exiting → row.target = .error) ∧ state ≠ .error ∧
      (row.action = .exitingFct → row.target = .exiting) := by
  cases state <;> cases event <;> simp [transitionTable] at found <;> subst found <;> simp

theorem finished_terminated {machine finished : Machine} {event : Event} {fct : Fct}
    (acted : machine.finishAction event fct = some finished)
    (terminated : finished.fWorkerTerminated = true) :
    machine.fWorkerTerminated = true ∨ fct = .exitingFct := by
  rcases Machine.finishAction_cases acted with
    ⟨_, rfl⟩ | ⟨_, _, rfl⟩ | ⟨_, _, _, _, rfl⟩ | ⟨exiting, rfl⟩ | ⟨_, rfl⟩
  case inr.inr.inr.inl => exact .inr exiting
  all_goals exact .inl terminated

theorem terminated_final {machine : Machine} (reached : machineSystem.Reaches machine)
    (terminated : machine.fWorkerTerminated = true) :
    machine.fState = .exiting ∨ machine.fState = .error := by
  induction reached with
  | initial start =>
      cases start
      simp [Machine.start] at terminated
  | @step before after action reached _ stepped ih =>
      have consistent := consistent_of_reaches reached
      cases Machine.step_effect stepped with
      | write calling =>
          obtain ⟨error, sound, _⟩ := exiting_row (consistent.controllerCall _ calling)
          exact .inr (error ((ih terminated).resolve_right sound))
      | workerWrite calling =>
          obtain ⟨error, sound, _⟩ := exiting_row (consistent.workerCall _ _ _ calling)
          exact .inr (error ((ih terminated).resolve_right sound))
      | complete calling acted =>
          obtain ⟨target, source, found⟩ := consistent.controllerCall _ calling
          rw [(Machine.finishAction_frame acted).1]
          rcases finished_terminated acted terminated with early | exiting
          · exact ih early
          · exact .inl (target.trans ((exiting_row found).2.2 exiting))
      | workerComplete calling acted =>
          obtain ⟨target, source, found⟩ := consistent.workerCall _ _ _ calling
          rw [(Machine.finishAction_frame acted).1]
          rcases finished_terminated acted terminated with early | exiting
          · exact ih early
          · exact .inl (target.trans ((exiting_row found).2.2 exiting))
      | _ => exact ih terminated

section Device

variable {leg : Leg} {machine after : Machine} {action : Action} {told : List State}

theorem AtRest.still {state : State} {entered : List State} (rest : AtRest state entered machine)
    (alive : machine.fWorkerTerminated = false) (own : clientDecides action = false) :
    machine.step action = none := by
  obtain ⟨free, resting, unavailable, _, _⟩ := rest
  cases stepped : machine.step action with
  | none => rfl
  | some after =>
      rcases free with idle | ⟨last, returned⟩
      all_goals cases Machine.step_effect stepped <;> simp_all [clientDecides]

theorem At.rest (here : At leg .settled machine) :
    AtRest leg.target (leg.earlier ++ [leg.working, leg.target]) machine where
  free := .inr ⟨_, here.controller⟩
  resting := here.worker
  unavailable := here.available _ rfl
  state := here.state
  entered := here.entered

theorem pushed_state {state : State} (told : after.announced = machine.announced ++ [state]) :
    pushed machine after = [state] := by
  simp [pushed, told]

theorem pushed_nothing {tells : List State → Prop} (holds : tells told)
    (same : after.announced = machine.announced) : tells (told ++ pushed machine after) := by
  simpa [pushed, same] using holds

theorem At.raises {place : Place} {stage : Stage} (here : At leg place machine)
    (early : place = .begun ∨ place = .body)
    (raising : machine.worker = .handling .initWrapper stage) :
    leg = .initDevice ∧ Failing
      { machine with worker := .changing (.lock .errorFound) .initWrapper stage }
      (leg.told place) := by
  obtain ⟨returned, worker, state, entered, _, _⟩ := here
  rcases early with rfl | rfl
  all_goals
    obtain ⟨initial, rfl⟩ := Worker.handling.inj (worker.symm.trans raising)
    cases leg <;> simp [Leg.wrapper] at initial
  · exact ⟨rfl, .raising returned (.inl rfl) state entered (.inl ⟨rfl, rfl⟩)⟩
  · exact ⟨rfl, .raising returned (.inl rfl) state entered (.inr ⟨rfl, rfl⟩)⟩

theorem At.device {place : Place} (here : At leg place machine)
    (alive : machine.fWorkerTerminated = false) (own : clientDecides action = false)
    (stepped : machine.step action = some after) :
    Travels leg after (leg.told place ++ pushed machine after) ∨
      leg = .initDevice ∧ action = .raiseError ∧
        Failing after (leg.told place ++ pushed machine after) := by
  have ⟨controller, worker, state, entered, available, work⟩ := here
  cases place with
  | lock =>
      cases Machine.step_effect stepped with
      | lockIgnored calling _ missing =>
          cases controller.symm.trans calling
          simp [state, leg.found] at missing
      | lockTaken calling _ found =>
          cases controller.symm.trans calling
          simp only [state, Leg.way, leg.found, Option.some.injEq] at found
          subst found
          exact .inl (pushed_nothing ⟨.acting, { here with controller := rfl, work := nofun }, rfl⟩
            rfl)
      | _ => simp_all
  | acting =>
      cases Machine.step_effect stepped with
      | write calling =>
          cases controller.symm.trans calling
          exact .inl (pushed_nothing ⟨.wrote, { here with
            controller := rfl, state := rfl, entered := by simp [entered, Leg.row], work := nofun },
            rfl⟩ rfl)
      | _ => simp_all
  | wrote =>
      cases Machine.step_effect stepped with
      | complete calling acted =>
          cases controller.symm.trans calling
          rcases Machine.finishAction_cases acted with
            ⟨other, _⟩ | ⟨other, _⟩ | ⟨wrapper, _, _, handler, rfl⟩ | ⟨other, _⟩ | ⟨other, _⟩
          · simp [Leg.row] at other
          · simp [Leg.row] at other
          · cases leg.handler.symm.trans handler
            exact .inl (pushed_nothing ⟨.posted, { here with
              controller := rfl, available := by simp, work := fun _ => rfl }, rfl⟩ rfl)
          · simp [Leg.row] at other
          · simp [Leg.row] at other
      | _ => simp_all
  | posted =>
      cases Machine.step_effect stepped with
      | takeWork _ _ _ taken =>
          cases (work rfl).symm.trans taken
          exact .inl (pushed_nothing ⟨.begun, { here with
            worker := rfl, available := nofun, work := nofun }, rfl⟩ rfl)
      | _ => simp_all [clientDecides]
  | begun =>
      cases Machine.step_effect stepped with
      | callback calling =>
          cases worker.symm.trans calling
          rw [pushed_state rfl]
          exact .inl ⟨.body, { here with worker := rfl, work := nofun }, rfl⟩
      | raiseError raising _ =>
          obtain ⟨initial, failing⟩ := here.raises (.inl rfl) raising
          exact .inr ⟨initial, rfl, pushed_nothing failing rfl⟩
      | _ => simp_all [clientDecides]
  | body =>
      cases Machine.step_effect stepped with
      | callInternal body internal _ =>
          cases worker.symm.trans body
          cases leg.issues.symm.trans internal
          exact .inl (pushed_nothing ⟨.endLock, { here with worker := rfl, work := nofun }, rfl⟩ rfl)
      | skipInternal body skipped =>
          cases worker.symm.trans body
          exact absurd state skipped.2
      | raiseError raising _ =>
          obtain ⟨initial, failing⟩ := here.raises (.inr rfl) raising
          exact .inr ⟨initial, rfl, pushed_nothing failing rfl⟩
      | _ => simp_all [clientDecides]
  | endLock =>
      cases Machine.step_effect stepped with
      | workerLockIgnored calling _ missing =>
          cases worker.symm.trans calling
          simp [state, leg.internal_found] at missing
      | workerLockTaken calling _ found =>
          cases worker.symm.trans calling
          simp only [state, Leg.way, leg.internal_found, Option.some.injEq] at found
          subst found
          exact .inl (pushed_nothing ⟨.endActing, { here with worker := rfl, work := nofun }, rfl⟩
            rfl)
      | _ => simp_all [clientDecides]
  | endActing =>
      cases Machine.step_effect stepped with
      | workerWrite calling =>
          cases worker.symm.trans calling
          exact .inl (pushed_nothing ⟨.endWrote, { here with
            worker := rfl, state := leg.internalRow_target
            entered := by simp [entered, leg.internalRow_target], work := nofun }, rfl⟩ rfl)
      | _ => simp_all [clientDecides]
  | endWrote =>
      cases Machine.step_effect stepped with
      | workerComplete calling acted =>
          cases worker.symm.trans calling
          cases leg.end_kept.symm.trans acted
          exact .inl (pushed_nothing ⟨.post, { here with worker := rfl, work := nofun }, rfl⟩ rfl)
      | _ => simp_all [clientDecides]
  | post =>
      cases Machine.step_effect stepped with
      | wrapperReturns _ =>
          exact .inl (pushed_nothing ⟨.finishing, { here with worker := rfl, work := nofun }, rfl⟩
            rfl)
      | _ => simp_all [clientDecides]
  | finishing =>
      cases Machine.step_effect stepped with
      | finishWork _ =>
          exact .inl (pushed_nothing ⟨.announcing, { here with
            worker := rfl, available := by simp, work := nofun }, rfl⟩ rfl)
      | _ => simp_all [clientDecides]
  | announcing =>
      cases Machine.step_effect stepped with
      | readState _ =>
          exact .inl (pushed_nothing ⟨.announce, { here with
            worker := congrArg Worker.announce state, work := nofun }, rfl⟩ rfl)
      | _ => simp_all [clientDecides]
  | announce =>
      cases Machine.step_effect stepped with
      | deliver delivered =>
          cases worker.symm.trans delivered
          rw [pushed_state rfl]
          exact .inl ⟨.settled, { here with worker := rfl, work := nofun }, rfl⟩
      | _ => simp_all [clientDecides]
  | settled =>
      have still := here.rest.still alive own
      simp [stepped] at still

theorem Travels.device (travels : Travels leg machine told)
    (alive : machine.fWorkerTerminated = false) (own : clientDecides action = false)
    (stepped : machine.step action = some after) :
    Travels leg after (told ++ pushed machine after) ∨
      leg = .initDevice ∧ action = .raiseError ∧ Failing after (told ++ pushed machine after) := by
  obtain ⟨place, here, rfl⟩ := travels
  exact here.device alive own stepped

theorem Failing.failed_device {rest : List State}
    (returned : machine.controller = .returned .initDevice)
    (outside : machine.worker.holds = false) (state : machine.fState = .error)
    (entered : machine.entered = [.initializingDevice, .error])
    (before : told = .error :: rest ∨ told = .initializingDevice :: .error :: rest)
    (own : clientDecides action = false) (stepped : machine.step action = some after) :
    Failing after (told ++ pushed machine after) := by
  have longer : ∀ more, told ++ more = .error :: (rest ++ more) ∨
      told ++ more = .initializingDevice :: .error :: (rest ++ more) := by
    intro more
    rcases before with rfl | rfl
    · exact .inl rfl
    · exact .inr rfl
  cases Machine.step_effect stepped with
  | workerLockTaken _ _ found => simp [state, transitionTable] at found
  | workerWrite calling => simp [calling] at outside
  | workerComplete calling _ => simp [calling] at outside
  | workerLockIgnored _ _ _ | terminate _ _ | takeWork _ _ _ _ | callback _ | raiseError _ _
  | callInternal _ _ _ | skipInternal _ _ | wrapperReturns _ | finishWork _ | readState _
  | deliver _ => exact .failed returned rfl state entered (longer _)
  | _ => simp_all [clientDecides]

theorem Failing.device (failing : Failing machine told) (own : clientDecides action = false)
    (stepped : machine.step action = some after) :
    Failing after (told ++ pushed machine after) := by
  cases failing with
  | @raising stage _ returned busy state entered before =>
      rcases busy with locking | acting
      · cases Machine.step_effect stepped with
        | workerLockIgnored calling _ missing =>
            cases locking.symm.trans calling
            simp [state, transitionTable] at missing
        | workerLockTaken calling _ found =>
            cases locking.symm.trans calling
            simp only [state, transitionTable, Option.some.injEq] at found
            subst found
            refine pushed_nothing ?_ rfl
            exact .raising returned (.inr rfl) state entered before
        | _ => simp_all [clientDecides]
      · cases Machine.step_effect stepped with
        | workerWrite calling =>
            cases acting.symm.trans calling
            refine pushed_nothing ?_ rfl
            refine .raised returned rfl rfl (by simp [entered]) ?_
            rcases before with ⟨_, told⟩ | ⟨_, told⟩
            · exact .inl told
            · exact .inr told
        | _ => simp_all [clientDecides]
  | raised returned wrote state entered before =>
      cases Machine.step_effect stepped with
      | workerComplete calling acted =>
          cases wrote.symm.trans calling
          simp only [Machine.finishAction, Option.some.injEq] at acted
          subst acted
          rw [pushed_state rfl]
          have shape : told ++ [.error] = .error :: [] ∨
              told ++ [.error] = .initializingDevice :: .error :: [] := by
            rcases before with rfl | rfl
            · exact .inl rfl
            · exact .inr rfl
          exact .failed returned rfl state entered shape
      | _ => simp_all [clientDecides]
  | failed returned outside state entered before =>
      exact .failed_device returned outside state entered before own stepped

theorem Exiting.device (exiting : Exiting machine told)
    (alive : machine.fState = .idle → machine.fWorkerTerminated = false)
    (own : clientDecides action = false) (stepped : machine.step action = some after) :
    Exiting after (told ++ pushed machine after) := by
  cases exiting with
  | asking calling asked resting unavailable state entered =>
      have alive := alive state
      rcases asked with rfl | rfl
      · cases Machine.step_effect stepped with
        | lockIgnored locking _ missing =>
            cases calling.symm.trans locking
            simp [state, transitionTable] at missing
        | lockTaken locking _ found =>
            cases calling.symm.trans locking
            simp only [state, transitionTable, Option.some.injEq] at found
            subst found
            exact pushed_nothing (.asking rfl (.inr rfl) resting unavailable state entered) rfl
        | _ => simp_all
      · cases Machine.step_effect stepped with
        | write acting =>
            cases calling.symm.trans acting
            exact pushed_nothing
              (.wrote rfl resting unavailable alive rfl (by simp [entered, itinerary])) rfl
        | _ => simp_all
  | wrote calling resting unavailable alive state entered =>
      cases Machine.step_effect stepped with
      | complete wrote acted =>
          cases calling.symm.trans wrote
          simp only [Machine.finishAction, Option.some.injEq] at acted
          subst acted
          rw [pushed_state rfl]
          exact .exited rfl (.inl resting) rfl state entered
      | _ => simp_all
  | exited returned resting terminated state entered =>
      cases Machine.step_effect stepped with
      | terminate _ _ =>
          refine pushed_nothing ?_ rfl
          exact .exited returned (.inr rfl) terminated state entered
      | _ => simp_all [clientDecides]

end Device

end FairMQ.Plugins
