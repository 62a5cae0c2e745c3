import FairMQ.Plugins.Control

namespace FairMQ.Plugins

open FairMQ.Data FairMQ.StateMachine

inductive Reports (machine : Machine) : Prop where
  | exiting (final : machine.fState = .exiting)
  | error (final : machine.fState = .error)
  | available (available : machine.fWorkAvailable = true)
  | active (active : machine.fWorkActive = true)
  | announcing (announcing : machine.worker = .announcing)
  | announce (announce : machine.worker = .announce machine.fState)

def Heading (machine : Machine) : Prop :=
  match machine.controller with
  | .changing (.lock event) => shutdownTransition machine.fState = some event
  | .changing (.acting _ _) => True
  | .changing (.wrote _ row) => row.action = .defaultFct
  | _ => False

inductive Lively (control : Control) : Prop where
  | reports (reports : Reports control.machine)
  | queued (queued : control.machine.fState ∈ control.fEvents)
  | head (head : control.sequence = .loop control.machine.fState)
  | heading (heading : Heading control.machine)

def Sequence.emptied : Sequence → Bool
  | .loop _ | .requesting | .waiting => true
  | _ => false

structure Watched (control : Control) : Prop where
  outside : control.sequence ≠ .requesting →
    control.machine.controller = .idle ∨ ∃ event, control.machine.controller = .returned event
  asked : ∀ call, control.machine.controller = .changing call →
    ∃ state, shutdownTransition state = some call.event
  lively : control.sequence.emptied = true → Lively control

theorem shutdown_row {state : State} {event : Event}
    (wanted : shutdownTransition state = some event) :
    ∃ row, transitionTable state event = some row := by
  cases state <;> simp [shutdownTransition] at wanted <;> subst wanted <;>
    simp [transitionTable]

theorem shutdown_row_cases {asked state : State} {event : Event} {row : Row}
    (wanted : shutdownTransition asked = some event)
    (found : transitionTable state event = some row) :
    row.action = .defaultFct ∨ row.target = .exiting ∨ state = .running := by
  cases asked <;> simp [shutdownTransition] at wanted <;> subst wanted <;>
    cases state <;> simp [transitionTable] at found <;> subst found <;> simp

theorem ignored_working {state : State} (ignored : shutdownTransition state = none)
    (running : ¬ (state = .exiting ∨ state = .error)) (known : state ≠ .ok) :
    state.working = true := by
  cases state <;> simp_all [shutdownTransition, State.working]

theorem served_outstanding {machine : Machine} (consistent : Consistent machine)
    (served : Served machine) : machine.fWorkAvailable = true ∨ machine.fWorkActive = true := by
  obtain ⟨wrapper, _, ⟨untaken, _⟩ | serves⟩ := served
  · simp only [Machine.untaken, Bool.and_eq_true] at untaken
    exact .inl untaken.1
  · refine .inr (consistent.active.trans ?_)
    cases worker : machine.worker <;> simp [worker, Worker.serves] at serves ⊢

theorem Reports.mono {machine after : Machine} (reports : Reports machine)
    (state : after.fState = machine.fState) (worker : after.worker = machine.worker)
    (available : machine.fWorkAvailable = true → after.fWorkAvailable = true)
    (active : after.fWorkActive = machine.fWorkActive) : Reports after := by
  cases reports with
  | exiting final => exact .exiting (state.trans final)
  | error final => exact .error (state.trans final)
  | available posted => exact .available (available posted)
  | active running => exact .active (active.trans running)
  | announcing announcing => exact .announcing (worker.trans announcing)
  | announce announce => exact .announce (by rw [worker, state, announce])

theorem Reports.complete {machine finished : Machine} {event : Event} {fct : Fct}
    (reports : Reports machine) (acted : machine.finishAction event fct = some finished) :
    Reports { finished with controller := .returned event, fChangeStateMutex := none } := by
  obtain ⟨state, worker, active⟩ := Machine.finishAction_frame acted
  refine reports.mono state worker ?_ active
  intro available
  rcases Machine.finishAction_cases acted with
    ⟨_, rfl⟩ | ⟨_, _, rfl⟩ | ⟨_, _, _, _, rfl⟩ | ⟨_, rfl⟩ | ⟨_, rfl⟩
  · exact available
  · exact available
  · rfl
  · exact available
  · exact available

theorem not_heading_of_free {machine : Machine}
    (free : machine.controller = .idle ∨ ∃ event, machine.controller = .returned event) :
    ¬ Heading machine := by
  rcases free with idle | ⟨event, returned⟩
  · simp [Heading, idle]
  · simp [Heading, returned]

section Device

variable {control : Control} {machine : Machine} {action : Action} {events : List State}

theorem Lively.frame (lively : Lively control)
    (state : machine.fState = control.machine.fState)
    (controller : machine.controller = control.machine.controller)
    (reports : Reports control.machine → Reports machine ∨ control.machine.fState ∈ events) :
    Lively { control with machine, fEvents := control.fEvents ++ events } := by
  cases lively with
  | reports old =>
      rcases reports old with new | delivered
      · exact .reports new
      · refine .queued ?_
        rw [state]
        exact List.mem_append_right _ delivered
  | queued queued =>
      refine .queued ?_
      rw [state]
      exact List.mem_append_left _ queued
  | head head =>
      refine .head ?_
      rw [state]
      exact head
  | heading heading =>
      refine .heading ?_
      simpa only [Heading, state, controller] using heading

theorem Lively.write {event : Event} {row : Row} (consistent : Consistent control.machine)
    (attended : Attended control.machine) (watched : Watched control)
    (calling : control.machine.controller = .changing (.acting event row)) :
    Lively { control with
      machine := { control.machine with
        controller := .changing (.wrote event row), fState := row.target
        lastEvent := some event, entered := control.machine.entered ++ [row.target] }
      fEvents := control.fEvents ++ events } := by
  obtain ⟨asked, wanted⟩ := watched.asked _ calling
  have found := consistent.controllerCall _ calling
  rcases shutdown_row_cases wanted found with isDefault | exits | running
  · exact .heading isDefault
  · exact .reports (.exiting exits)
  · -- `RUNNING` was posted or is being served, and `STOP` changes neither
    have served := attended (by rw [running]; rfl) (by rw [calling]; rfl)
    rcases served_outstanding consistent served with available | active
    · exact .reports (.available available)
    · exact .reports (.active active)

theorem Lively.device (consistent : Consistent control.machine)
    (attended : Attended control.machine) (watched : Watched control) (lively : Lively control)
    (own : clientDecides action = false) (stepped : control.machine.step action = some machine) :
    Lively { control with
      machine, fEvents := control.fEvents ++ pushed control.machine machine } := by
  have active := consistent.active
  cases Machine.step_effect stepped with
  | request _ => simp [clientDecides] at own
  | waitForEndOfState _ _ => simp [clientDecides] at own
  | endOfState _ _ _ => simp [clientDecides] at own
  | lockIgnored calling _ missing =>
      cases lively with
      | reports old => exact .reports (old.mono rfl rfl id rfl)
      | queued queued => exact .queued (List.mem_append_left _ queued)
      | head head => exact .head head
      | heading heading =>
          simp only [Heading, calling] at heading
          obtain ⟨row, found⟩ := shutdown_row heading
          simp [missing] at found
  | lockTaken _ _ _ => exact .heading trivial
  | write calling => exact .write consistent attended watched calling
  | @complete event row finished calling acted =>
      obtain ⟨state, _, _⟩ := Machine.finishAction_frame acted
      cases lively with
      | reports old => exact .reports (old.complete acted)
      | queued queued => exact .queued (List.mem_append_left _ (by rw [state]; exact queued))
      | head head => exact .head (by rw [state]; exact head)
      | heading heading =>
          have isDefault : row.action = .defaultFct := by simpa only [Heading, calling] using heading
          rcases Machine.finishAction_cases acted with
            ⟨other, _⟩ | ⟨other, _⟩ | ⟨_, _, _, _, rfl⟩ | ⟨other, _⟩ | ⟨other, _⟩
          · simp [isDefault] at other
          · simp [isDefault] at other
          · exact .reports (.available rfl)
          · simp [isDefault] at other
          · simp [isDefault] at other
  | workerLockIgnored calling _ _ => exact .reports (.active (by simpa [calling] using active))
  | workerLockTaken calling _ _ => exact .reports (.active (by simpa [calling] using active))
  | workerWrite calling => exact .reports (.active (by simpa [calling] using active))
  | workerComplete calling acted =>
      obtain ⟨_, _, same⟩ := Machine.finishAction_frame acted
      exact .reports (.active (same.trans (by simpa [calling] using active)))
  | terminate waiting _ =>
      refine lively.frame rfl rfl fun old => .inl ?_
      cases old with
      | exiting final => exact .exiting final
      | error final => exact .error final
      | available available => exact .available available
      | active running => exact .active running
      | announcing announcing => simp [waiting] at announcing
      | announce announce => simp [waiting] at announce
  | takeWork _ _ _ _ => exact .reports (.active rfl)
  | callback handling => exact .reports (.active (by simpa [handling] using active))
  | raiseError handling _ => exact .reports (.active (by simpa [handling] using active))
  | callInternal handling _ _ => exact .reports (.active (by simpa [handling] using active))
  | skipInternal handling _ => exact .reports (.active (by simpa [handling] using active))
  | wrapperReturns handling => exact .reports (.active (by simpa [handling] using active))
  | finishWork _ => exact .reports (.announcing rfl)
  | readState _ => exact .reports (.announce rfl)
  | deliver announce =>
      refine lively.frame rfl rfl ?_
      intro old
      cases old with
      | exiting final => exact .inl (.exiting final)
      | error final => exact .inl (.error final)
      | available available => exact .inl (.available available)
      | active running => exact .inl (.active running)
      | announcing announcing => simp [announce] at announcing
      | announce current =>
          -- the callback that was outstanding is now in the queue
          rw [announce] at current
          cases current
          exact .inr (by simp [pushed])

end Device

theorem machine_reaches {allowed : Control → ControlAction → Prop} {control : Control}
    (reached : shutdownSystem.ReachesUnder allowed control) :
    machineSystem.Reaches control.machine := by
  induction reached with
  | initial start => exact start.1
  | step _ _ stepped reaches =>
      cases Control.step_effect stepped with
      | device _ moved => exact .step reaches trivial moved
      | @request _ event machine _ _ requested =>
          have moved : machineSystem.step _ (.request event) = some machine := requested
          exact .step reaches trivial moved
      | _ => exact reaches

theorem controller_advances {machine after : Machine} {action : Action}
    (own : clientDecides action = false) (stepped : machine.step action = some after) :
    after.controller = machine.controller ∨ ∃ call, machine.controller = .changing call ∧
      ((∃ next, after.controller = .changing next ∧ next.event = call.event) ∨
        after.controller = .returned call.event) := by
  cases Machine.step_effect stepped with
  | request _ => simp [clientDecides] at own
  | waitForEndOfState _ _ => simp [clientDecides] at own
  | endOfState _ _ _ => simp [clientDecides] at own
  | lockIgnored calling _ _ => exact .inr ⟨_, calling, .inr rfl⟩
  | lockTaken calling _ _ => exact .inr ⟨_, calling, .inl ⟨_, rfl, rfl⟩⟩
  | write calling => exact .inr ⟨_, calling, .inl ⟨_, rfl, rfl⟩⟩
  | complete calling _ => exact .inr ⟨_, calling, .inr rfl⟩
  | workerComplete _ acted =>
      have same := Machine.finishAction_controller acted
      exact .inl same
  | _ => exact .inl rfl

theorem Watched.device {control : Control} {machine : Machine} {action : Action}
    (consistent : Consistent control.machine) (attended : Attended control.machine)
    (watched : Watched control) (own : clientDecides action = false)
    (stepped : control.machine.step action = some machine) :
    Watched { control with
      machine, fEvents := control.fEvents ++ pushed control.machine machine } := by
  have advances := controller_advances own stepped
  refine ⟨?_, ?_, ?_⟩
  · intro other
    have free := watched.outside other
    rcases advances with same | ⟨call, calling, _⟩
    · rw [← same] at free
      exact free
    · simp [calling] at free
  · intro call calls
    change machine.controller = .changing call at calls
    rcases advances with same | ⟨before, calling, ⟨next, moved, sameEvent⟩ | returned⟩
    · exact watched.asked call (same.symm.trans calls)
    · rw [calls] at moved
      cases moved
      rw [sameEvent]
      exact watched.asked before calling
    · simp [calls] at returned
  · intro emptied
    exact (watched.lively emptied).device consistent attended watched own stepped

theorem Watched.moveSequence {control : Control} (watched : Watched control)
    {events : List State} {sequence : Sequence}
    (outside : control.machine.controller = .idle ∨
      ∃ event, control.machine.controller = .returned event)
    (lively : sequence.emptied = true →
      Lively { control with fEvents := events, sequence }) :
    Watched { control with fEvents := events, sequence } where
  outside := fun _ => outside
  asked := watched.asked
  lively := lively

theorem Watched.ignore {control : Control} (consistent : Consistent control.machine)
    (attended : Attended control.machine) (known : control.machine.fState ≠ .ok)
    (watched : Watched control) {nextState : State} (loop : control.sequence = .loop nextState)
    (running : ¬ (nextState = .exiting ∨ nextState = .error))
    (ignored : shutdownTransition nextState = none) :
    Watched { control with sequence := .waiting } := by
  have free := watched.outside (by simp [loop])
  refine watched.moveSequence free fun _ => ?_
  cases watched.lively (by rw [loop]; rfl) with
  | reports reports => exact .reports reports
  | queued queued => exact .queued queued
  | heading heading => exact absurd heading (not_heading_of_free free)
  | head head =>
      rw [loop] at head
      cases head
      have working := ignored_working ignored running known
      have served := attended working (by
        rcases free with idle | ⟨event, returned⟩
        · rw [idle]; rfl
        · rw [returned]; rfl)
      rcases served_outstanding consistent served with available | active
      · exact .reports (.available available)
      · exact .reports (.active active)

theorem Watched.request {control : Control} {machine : Machine} {event : Event}
    (watched : Watched control) {nextState : State} (loop : control.sequence = .loop nextState)
    (wanted : shutdownTransition nextState = some event)
    (requested : control.machine.request event = some machine) :
    Watched { control with machine, sequence := .requesting } := by
  have free := watched.outside (by simp [loop])
  have asks : machine = { control.machine with controller := .changing (.lock event) } := by
    have moved : control.machine.step (.request event) = some machine := requested
    cases Machine.step_effect moved
    rfl
  subst asks
  refine ⟨fun other => absurd rfl other, ?_, fun _ => ?_⟩
  · intro call calls
    cases calls
    exact ⟨nextState, wanted⟩
  · cases watched.lively (by rw [loop]; rfl) with
    | reports reports => exact .reports (reports.mono rfl rfl id rfl)
    | queued queued => exact .queued queued
    | heading heading => exact absurd heading (not_heading_of_free free)
    | head head =>
        rw [loop] at head
        cases head
        exact .heading wanted

theorem Watched.step {control after : Control} {action : ControlAction}
    (consistent : Consistent control.machine) (attended : Attended control.machine)
    (known : control.machine.fState ≠ .ok) (watched : Watched control)
    (permitted : Undiscarded control action) (stepped : control.step action = some after) :
    Watched after := by
  cases Control.step_effect stepped with
  | device own moved => exact watched.device consistent attended own moved
  | readState start =>
      exact watched.moveSequence (watched.outside (by simp [start])) (by simp [Sequence.emptied])
  | @emptyEventQueue nextState read =>
      refine watched.moveSequence (watched.outside (by simp [read])) fun _ => ?_
      rcases permitted with same | exits | fails | available | active | announcing | announce
      · rw [read] at same
        exact .head (by simpa using same)
      · exact .reports (.exiting exits)
      · exact .reports (.error fails)
      · exact .reports (.available available)
      · exact .reports (.active active)
      · exact .reports (.announcing announcing)
      · exact .reports (.announce announce)
  | finish loop _ =>
      exact watched.moveSequence (watched.outside (by simp [loop])) (by simp [Sequence.emptied])
  | ignore loop running ignored =>
      exact watched.ignore consistent attended known loop running ignored
  | request loop wanted requested => exact watched.request loop wanted requested
  | changeReturned requesting returned =>
      refine watched.moveSequence (.inr ⟨_, returned⟩) fun _ => ?_
      cases watched.lively (by rw [requesting]; rfl) with
      | reports reports => exact .reports reports
      | queued queued => exact .queued queued
      | head head => simp [requesting] at head
      | heading heading => simp [Heading, returned] at heading
  | throws waiting _ =>
      exact watched.moveSequence (watched.outside (by simp [waiting])) (by simp [Sequence.emptied])
  | @pop front rest waiting events =>
      refine watched.moveSequence (watched.outside (by simp [waiting])) fun _ => ?_
      cases watched.lively (by rw [waiting]; rfl) with
      | reports reports => exact .reports reports
      | head head => simp [waiting] at head
      | heading heading =>
          exact absurd heading (not_heading_of_free (watched.outside (by simp [waiting])))
      | queued queued =>
          rw [events] at queued
          rcases List.mem_cons.mp queued with current | later
          · exact .head (by simp [current])
          · exact .queued later

/-- A shutdown whose `EmptyEventQueue` discards nothing needed never waits on an
empty queue for a device that has come to rest. -/
theorem undiscarded_shutdown_never_stuck {control : Control}
    (reached : shutdownSystem.ReachesUnder Undiscarded control) : control.stuck = false := by
  have watched : Watched control := by
    refine reached.relative (fun _ => machine_reaches) ?_ ?_
    · intro state start
      obtain ⟨_, sequence, free⟩ := start
      refine ⟨fun _ => free, ?_, by simp [sequence, Sequence.emptied]⟩
      intro call calling
      simp [calling] at free
    · intro before action after reaches watched permitted stepped
      exact watched.step (consistent_of_reaches reaches) (attended_of_reaches reaches)
        (known_of_reaches reaches) permitted stepped
  cases stuck : control.stuck with
  | false => rfl
  | true =>
      simp only [Control.stuck, Bool.and_eq_true, beq_iff_eq, Bool.not_eq_true', bne_iff_ne,
        List.isEmpty_iff] at stuck
      obtain ⟨⟨⟨⟨⟨⟨waiting, empty⟩, unavailable⟩, inactive⟩, silent⟩, notExiting⟩, notError⟩ := stuck
      have free := watched.outside (by simp [waiting])
      cases watched.lively (by rw [waiting]; rfl) with
      | queued queued => simp [empty] at queued
      | head head => simp [waiting] at head
      | heading heading => exact absurd heading (not_heading_of_free free)
      | reports reports =>
          cases reports with
          | exiting final => exact absurd final notExiting
          | error final => exact absurd final notError
          | available available => simp [unavailable] at available
          | active active => simp [inactive] at active
          | announcing announcing => simp [announcing, reporting] at silent
          | announce announce => simp [announce, reporting] at silent

def initializing : Machine :=
  { Machine.start with
    fState := .initializingDevice, fWork := some .initWrapper, fWorkActive := true
    fWorkAvailable := true, controller := .returned .initDevice
    worker := .handling .initWrapper .body, lastEvent := some .initDevice
    entered := [.initializingDevice], announced := [.initializingDevice] }

theorem initializing_start : shutdownSystem.initial ⟨initializing, [], .start⟩ := by
  have replayed : machineSystem.run .start (changeTrace .initDevice ++ [.takeWork, .callback]) =
      some initializing := by decide
  exact ⟨(TransitionSystem.ReachesUnder.initial rfl).runUnder replayed, rfl, .inr ⟨_, rfl⟩⟩

def initReturns : List ControlAction :=
  [.bodyReturns, .lock .worker, .write .worker, .complete .worker, .wrapperReturns, .finishWork,
    .readState, .deliver].map .device

theorem shutdown_while_initializing_waits :
    ∃ control, shutdownSystem.ReachesUnder Undiscarded control ∧ control.sequence = .waiting ∧
      control.fEvents = [] ∧ control.stuck = false := by
  obtain ⟨control, reached, waiting, empty⟩ :
      ∃ control, shutdownSystem.ReachesUnder Undiscarded control ∧ control.sequence = .waiting ∧
        control.fEvents = [] :=
    TransitionSystem.reaches_of_runUnder ⟨initializing, [], .start⟩
      [.getCurrentDeviceState, .emptyEventQueue, .changeDeviceState] initializing_start (by decide)
  exact ⟨control, reached, waiting, empty, undiscarded_shutdown_never_stuck reached⟩

/-- `INITIALIZING_DEVICE` is read, the device gets ready and reports it, and
`EmptyEventQueue` throws the report away. -/
theorem discarded_event_blocks_shutdown :
    ∃ control, shutdownSystem.Reaches control ∧ control.stuck = true :=
  TransitionSystem.reaches_of_runUnder ⟨initializing, [], .start⟩
    ([.getCurrentDeviceState] ++ initReturns ++ [.emptyEventQueue, .changeDeviceState])
    initializing_start (by decide)

end FairMQ.Plugins
