import FairMQ.Plugins.StaticRun

namespace FairMQ.Plugins

open FairMQ.Data FairMQ.StateMachine

def Moves (machine : Machine) : Prop :=
  ∃ action, clientDecides action = false ∧ action ≠ .raiseError ∧
    (machine.step action).isSome = true

section Device

variable {leg : Leg} {machine : Machine} {told : List State} {thread : Thread} {event : Event}
  {row : Row}

theorem mutex_free (consistent : Consistent machine)
    (controller : machine.controller.holds = false) (worker : machine.worker.holds = false) :
    machine.fChangeStateMutex = none := by
  cases held : machine.fChangeStateMutex with
  | none => rfl
  | some thread =>
      cases thread with
      | controller => simp [consistent.controllerHolds.mp held] at controller
      | worker => simp [consistent.workerHolds.mp held] at worker

theorem Moves.lock (calling : machine.call thread = some (.lock event))
    (free : machine.fChangeStateMutex = none) : Moves machine := by
  refine ⟨.lock thread, rfl, by simp, ?_⟩
  simp only [Machine.step, Machine.lock, calling, free]
  split <;> rfl

theorem Moves.write (calling : machine.call thread = some (.acting event row)) :
    Moves machine := by
  refine ⟨.write thread, rfl, by simp, ?_⟩
  simp [Machine.step, Machine.write, calling]

theorem Moves.complete {finished : Machine}
    (calling : machine.call thread = some (.wrote event row))
    (acted : machine.finishAction event row.action = some finished) : Moves machine := by
  refine ⟨.complete thread, rfl, by simp, ?_⟩
  simp [Machine.step, Machine.complete, calling, acted]

theorem Moves.bodyReturns (handling : machine.worker = .handling leg.wrapper .body)
    (state : machine.fState = leg.working) : Moves machine := by
  refine ⟨.bodyReturns, rfl, by simp, ?_⟩
  cases leg <;>
    simp [Machine.step, Machine.bodyReturns, handling, Leg.wrapper, Wrapper.internalEvent, state,
      Leg.working, Wrapper.announces]

theorem Travels.moves (travels : Travels leg machine told) (consistent : Consistent machine)
    (alive : machine.fWorkerTerminated = false) :
    Moves machine ∨ machine.controller = .returned leg.event ∧ told = [leg.working, leg.target] := by
  obtain ⟨place, here, rfl⟩ := travels
  have ⟨controller, worker, state, _, available, work⟩ := here
  cases place with
  | lock =>
      exact .inl (.lock (call_controller.mpr controller)
        (mutex_free consistent (by rw [controller]; rfl) (by rw [worker]; rfl)))
  | acting => exact .inl (.write (call_controller.mpr controller))
  | wrote =>
      have inactive : machine.fWorkActive = false := by rw [consistent.active, worker]; rfl
      have posted : machine.finishAction leg.event leg.row.action =
          some { machine with fWorkAvailable := true, fWork := some leg.wrapper } := by
        simp [Machine.finishAction, Leg.row, inactive, leg.handler]
      exact .inl (.complete (call_controller.mpr controller) posted)
  | posted =>
      exact .inl ⟨.takeWork, rfl, by simp, by
        simp [Machine.step, Machine.takeWork, worker, alive, available _ rfl, work]⟩
  | begun => exact .inl ⟨.callback, rfl, by simp, by simp [Machine.step, worker]⟩
  | body => exact .inl (.bodyReturns worker state)
  | endLock =>
      exact .inl (.lock (call_worker.mpr ⟨_, _, worker⟩)
        (mutex_free consistent (by rw [controller]; rfl) (by rw [worker]; rfl)))
  | endActing => exact .inl (.write (call_worker.mpr ⟨_, _, worker⟩))
  | endWrote => exact .inl (.complete (call_worker.mpr ⟨_, _, worker⟩) leg.end_kept)
  | post => exact .inl ⟨.wrapperReturns, rfl, by simp, by simp [Machine.step, worker]⟩
  | finishing => exact .inl ⟨.finishWork, rfl, by simp, by simp [Machine.step, worker]⟩
  | announcing => exact .inl ⟨.readState, rfl, by simp, by simp [Machine.step, worker]⟩
  | announce => exact .inl ⟨.deliver, rfl, by simp, by simp [Machine.step, worker]⟩
  | settled => exact .inr ⟨controller, rfl⟩

theorem Failing.moves (failing : Failing machine told) (consistent : Consistent machine) :
    machine.controller = .returned .initDevice ∧ (Moves machine ∨ machine.fState = .error ∧
      ∃ rest, told = .error :: rest ∨ told = .initializingDevice :: .error :: rest) := by
  cases failing with
  | raising returned busy _ _ _ =>
      refine ⟨returned, .inl ?_⟩
      rcases busy with locking | acting
      · exact .lock (call_worker.mpr ⟨_, _, locking⟩)
          (mutex_free consistent (by rw [returned]; rfl) (by rw [locking]; rfl))
      · exact .write (call_worker.mpr ⟨_, _, acting⟩)
  | raised returned wrote _ _ _ =>
      exact ⟨returned, .inl (.complete (call_worker.mpr ⟨_, _, wrote⟩) rfl)⟩
  | failed returned _ state _ before => exact ⟨returned, .inr ⟨state, _, before⟩⟩

theorem Exiting.moves (exiting : Exiting machine told) (consistent : Consistent machine) :
    Moves machine ∨ told = [.exiting] ∧ machine.controller = .returned .endDevice ∧
      machine.worker = .stopped ∧ machine.fState = .exiting ∧ machine.entered = itinerary := by
  cases exiting with
  | asking calling asked resting _ _ _ =>
      left
      rcases asked with rfl | rfl
      · exact .lock (call_controller.mpr calling)
          (mutex_free consistent (by rw [calling]; rfl) (by rw [resting]; rfl))
      · exact .write (call_controller.mpr calling)
  | wrote calling _ _ _ _ _ => exact .inl (.complete (call_controller.mpr calling) rfl)
  | exited returned resting terminated state entered =>
      rcases resting with waiting | stopped
      · exact .inl ⟨.takeWork, rfl, by simp, by
          simp [Machine.step, Machine.takeWork, waiting, terminated]⟩
      · exact .inr ⟨rfl, returned, stopped, state, entered⟩

end Device

section Plugin

variable {faulty : Prop} {mode : StaticMode} {left : Nat}

def Continues (mode : StaticMode) : Prop :=
  ∃ action, action ≠ .signal ∧ Faultless mode action ∧ (mode.step action).isSome = true

/-- The device has exited, or `InitWrapper` has failed, or a signal came while nothing was in
the queue. -/
inductive Ended (faulty : Prop) (mode : StaticMode) : Prop where
  | exited (point : mode.point = .shutdown) (sequence : mode.control.sequence = .done)
      (worker : mode.control.machine.worker = .stopped)
      (state : mode.control.machine.fState = .exiting)
      (entered : mode.control.machine.entered = itinerary)
  | failed (fault : faulty) (point : mode.point = .failed)
      (state : mode.control.machine.fState = .error)
  | undefined (point : mode.point = .undefined)
      (signalled : mode.fDeviceShutdownRequested = true)

theorem Moves.continues (moves : Moves mode.control.machine) : Continues mode := by
  obtain ⟨action, own, faultless, moves⟩ := moves
  obtain ⟨machine, stepped⟩ := Option.isSome_iff_exists.mp moves
  refine ⟨.device action, by simp, ?_, ?_⟩
  · cases action <;> simp_all [Faultless]
  · simp [StaticMode.step, Control.step, own, stepped]

theorem AtRest.request_isSome {state : State} {entered : List State} {machine : Machine}
    (rest : AtRest state entered machine) (event : Event) :
    ∃ asked, machine.request event = some asked := by
  refine ⟨{ machine with controller := .changing (.lock event) }, ?_⟩
  rcases rest.free with idle | ⟨last, returned⟩
  · simp [Machine.request, idle]
  · simp [Machine.request, returned]

theorem Continues.of_shutdown (action : ControlAction) (point : mode.point = .shutdown)
    (own : ∀ device, action ≠ .device device)
    (enabled : (mode.control.step action).isSome = true) : Continues mode := by
  obtain ⟨control, stepped⟩ := Option.isSome_iff_exists.mp enabled
  refine ⟨.shutdown action, by simp, trivial, ?_⟩
  cases action with
  | device device => exact absurd rfl (own device)
  | _ => simp [StaticMode.step, StaticMode.runShutdownSequence, point, stepped]

theorem Continues.changeReturned {startup : Startup} {event : Event}
    (point : mode.point = .requesting startup)
    (returned : mode.control.machine.controller = .returned event) : Continues mode :=
  ⟨.changeReturned, by simp, trivial, by
    simp [StaticMode.step, StaticMode.changeReturned, point, returned]⟩

theorem Continues.waitForNextState {startup : Startup} {front : State} {rest : List State}
    (point : mode.point = .waiting startup) (events : mode.control.fEvents = front :: rest) :
    Continues mode := by
  refine ⟨.waitForNextState, by simp, trivial, ?_⟩
  simp only [StaticMode.step, StaticMode.waitForNextState, point, events]
  split <;> rfl

theorem Continues.nextState {front : State} {rest : List State}
    (point : mode.point = .shutdown) (waiting : mode.control.sequence = .waiting)
    (events : mode.control.fEvents = front :: rest) : Continues mode := by
  refine .of_shutdown .waitForNextState point (by simp) ?_
  simp only [Control.step, Control.waitForNextState, waiting, events]
  split <;> rfl

theorem OnCourse.continues (onCourse : OnCourse faulty mode left)
    (reached : machineSystem.Reaches mode.control.machine) :
    Continues mode ∨ Ended faulty mode := by
  have consistent := consistent_of_reaches reached
  obtain ⟨_, course, signalled⟩ := onCourse
  cases course with
  | @change startup point rest events =>
      obtain ⟨machine, requested⟩ := rest.request_isSome startup.event
      exact .inl ⟨.changeDeviceState, by simp, trivial, by
        simp [StaticMode.step, StaticMode.changeDeviceState, point, requested]⟩
  | requesting point device =>
      left
      rcases device with travels | ⟨_, _, failing⟩
      · rcases travels.moves consistent (travels.alive reached) with moves | ⟨returned, _⟩
        · exact moves.continues
        · exact .changeReturned point returned
      · exact .changeReturned point (failing.moves consistent).1
  | @waiting startup told point device events =>
      left
      cases queue : mode.control.fEvents with
      | cons front rest => exact .waitForNextState point queue
      | nil =>
          have none : told = [] ∨ told = [startup.leg.working] := by
            rw [queue] at events
            exact events.imp_right And.right
          rcases device with travels | ⟨_, initial, failing⟩
          · rcases travels.moves consistent (travels.alive reached) with moves | ⟨_, two⟩
            · exact moves.continues
            · simp [two] at none
          · obtain ⟨_, moves | ⟨_, _, told | told⟩⟩ := failing.moves consistent
            · exact moves.continues
            · simp [told, initial, Leg.working, Leg.wrapper, Wrapper.announces] at none
            · simp [told] at none
  | started point device =>
      left
      rcases device.moves consistent (device.alive reached) with moves | ⟨_, two⟩
      · exact moves.continues
      · cases queue : mode.control.fEvents with
        | nil => simp [queue] at two
        | cons front rest =>
            exact ⟨.leave, by simp, trivial, by
              simp [StaticMode.step, StaticMode.leave, point, queue]⟩
  | undefined point device => exact .inr (.undefined point (signalled point))
  | failed point fault device =>
      obtain ⟨_, moves | ⟨state, _⟩⟩ := device.moves consistent
      · exact .inl moves.continues
      · exact .inr (.failed fault point state)
  | emptying point sequence rest =>
      left
      rcases sequence with start | read
      · exact .of_shutdown .getCurrentDeviceState point (by simp) (by simp [Control.step, start])
      · exact .of_shutdown .emptyEventQueue point (by simp) (by simp [Control.step, read])
  | @turn leg point sequence back rest events =>
      obtain ⟨machine, requested⟩ := rest.request_isSome leg.event
      obtain ⟨wanted, running, sound⟩ := Leg.shutdown_source back
      exact .inl (.of_shutdown .changeDeviceState point (by simp) (by
        simp [Control.step, Control.changeDeviceState, sequence, running, sound, wanted,
          requested]))
  | resetting point sequence back device =>
      left
      rcases device.moves consistent (device.alive reached) with moves | ⟨returned, _⟩
      · exact moves.continues
      · exact .of_shutdown .changeReturned point (by simp) (by
          simp [Control.step, sequence, returned])
  | @reset leg told point sequence back device events =>
      left
      cases queue : mode.control.fEvents with
      | cons front rest => exact .nextState point sequence queue
      | nil =>
          rw [queue] at events
          rcases device.moves consistent (device.alive reached) with moves | ⟨_, two⟩
          · exact moves.continues
          · simp [two] at events
  | ignore point sequence back device =>
      obtain ⟨ignored, running, sound⟩ := Leg.shutdown_working back
      exact .inl (.of_shutdown .changeDeviceState point (by simp) (by
        simp [Control.step, Control.changeDeviceState, sequence, running, sound, ignored]))
  | home point sequence rest events =>
      obtain ⟨machine, requested⟩ := rest.request_isSome .endDevice
      exact .inl (.of_shutdown .changeDeviceState point (by simp) (by
        simp [Control.step, Control.changeDeviceState, sequence, shutdownTransition, requested]))
  | exiting point sequence device =>
      left
      rcases device.moves consistent with moves | ⟨told, returned, _⟩
      · exact moves.continues
      · rcases sequence with requesting | waiting
        · exact .of_shutdown .changeReturned point (by simp) (by
            simp [Control.step, requesting, returned])
        · exact .nextState point waiting told
  | exited point sequence device =>
      rcases sequence with loop | done
      · exact .inl (.of_shutdown .changeDeviceState point (by simp) (by
          simp [Control.step, Control.changeDeviceState, loop]))
      · rcases device.moves consistent with moves | ⟨_, _, stopped, state, entered⟩
        · exact .inl moves.continues
        · exact .inr (.exited point done stopped state entered)

end Plugin

theorem onCourse_of_reaches {mode : StaticMode} (reached : staticSystem.Reaches mode) :
    ∃ left, OnCourse True mode left := by
  induction reached with
  | initial start =>
      cases start
      exact ⟨_, .start⟩
  | step reached _ stepped ih =>
      obtain ⟨left, onCourse⟩ := ih
      obtain ⟨next, onCourse, _⟩ :=
        onCourse.step (static_machine_reaches reached) (fun _ => trivial) stepped
      exact ⟨next, onCourse⟩

section Entered

variable {leg : Leg} {machine : Machine} {told : List State}

theorem Leg.way_prefix (leg : Leg) :
    leg.earlier ++ [leg.working, leg.target] <+: itinerary := by
  cases leg <;> decide

theorem AtRest.entered_prefix {state : State} (rest : AtRest state leg.earlier machine) :
    machine.entered <+: itinerary := by
  rw [rest.entered]
  exact (List.prefix_append _ _).trans leg.way_prefix

theorem Travels.entered_prefix (travels : Travels leg machine told) :
    machine.entered <+: itinerary := by
  obtain ⟨place, here, _⟩ := travels
  have part : (leg.way place).2 <+: [leg.working, leg.target] := by
    cases place <;> simp
  rw [here.entered]
  exact ((List.prefix_append_right_inj _).mpr part).trans leg.way_prefix

theorem Exiting.entered_prefix (exiting : Exiting machine told) :
    machine.entered <+: itinerary := by
  cases exiting with
  | asking _ _ _ _ _ entered =>
      rw [entered]
      decide
  | wrote _ _ _ _ _ entered | exited _ _ _ _ entered =>
      rewrite [entered]
      exact List.prefix_refl _

theorem Failing.entered_cases (failing : Failing machine told) :
    machine.entered <+: itinerary ∨ machine.entered = [.initializingDevice, .error] := by
  cases failing with
  | raising _ _ _ entered _ =>
      left
      rw [entered]
      decide
  | raised _ _ _ entered _ => exact .inr entered
  | failed _ _ _ entered _ => exact .inr entered

end Entered

/-- Whatever the order of the steps, every request of static mode finds the device at rest in
the state that it is for, and the device only enters the states of the itinerary, in their
order, or fails in its first leg. -/
theorem static_mode_keeps_to_itinerary {mode : StaticMode} (reached : staticSystem.Reaches mode) :
    (∀ startup, mode.point = .change startup →
      AtRest startup.leg.source startup.leg.earlier mode.control.machine) ∧
    (∀ nextState event, mode.point = .shutdown → mode.control.sequence = .loop nextState →
      shutdownTransition nextState = some event →
      AtRest nextState mode.control.machine.entered mode.control.machine) ∧
    (mode.control.machine.entered <+: itinerary ∨
      mode.control.machine.entered = [.initializingDevice, .error]) := by
  obtain ⟨left, _, course, _⟩ := onCourse_of_reaches reached
  refine ⟨?_, ?_, ?_⟩
  · intro startup point
    cases course with
    | @change other here rest _ =>
        cases point.symm.trans here
        exact rest
    | _ => simp_all
  · intro nextState event point loop wanted
    cases course with
    | turn _ sequence _ rest _ | home _ sequence rest _ =>
        cases loop.symm.trans sequence
        rw [rest.entered]
        exact rest
    | ignore _ sequence back _ =>
        cases loop.symm.trans sequence
        simp [(Leg.shutdown_working back).1] at wanted
    | exited _ sequence _ =>
        rcases sequence with sequence | sequence
        · cases loop.symm.trans sequence
          simp [shutdownTransition] at wanted
        · simp [loop] at sequence
    | _ => simp_all
  · cases course with
    | change _ rest _ | emptying _ _ rest | turn _ _ _ rest _ => exact .inl rest.entered_prefix
    | requesting _ device | waiting _ device _ =>
        rcases device with travels | ⟨_, _, failing⟩
        · exact .inl travels.entered_prefix
        · exact failing.entered_cases
    | started _ device | undefined _ device | resetting _ _ _ device | reset _ _ _ device _
    | ignore _ _ _ device => exact .inl device.entered_prefix
    | failed _ _ device => exact device.entered_cases
    | home _ _ rest _ =>
        rw [rest.entered]
        exact .inl (by decide)
    | exiting _ _ device | exited _ _ device => exact .inl device.entered_prefix

def startupTrace : List StaticAction :=
  [.changeDeviceState, .device (.lock .controller), .device (.write .controller),
    .device (.complete .controller), .changeReturned] ++ workTrace.map .device

def shutdownTrace : List StaticAction :=
  [.shutdown .changeDeviceState, .device (.lock .controller), .device (.write .controller),
    .device (.complete .controller), .shutdown .changeReturned] ++ workTrace.map .device ++
  [.shutdown .waitForNextState, .shutdown .changeDeviceState, .shutdown .waitForNextState]

def outwardTrace : List StaticAction :=
  startupTrace ++ [.waitForNextState, .waitForNextState] ++
  startupTrace ++ [.waitForNextState, .waitForNextState] ++
  startupTrace ++ [.waitForNextState, .leave, .shutdown .getCurrentDeviceState,
    .shutdown .emptyEventQueue]

theorem shutdown_found_at_rest :
    ∃ mode, staticSystem.Reaches mode ∧ mode.control.sequence = .loop .ready ∧
      AtRest .ready mode.control.machine.entered mode.control.machine := by
  obtain ⟨mode, reached, point, loop⟩ : ∃ mode, staticSystem.Reaches mode ∧
      mode.point = .shutdown ∧ mode.control.sequence = .loop .ready :=
    TransitionSystem.reaches_of_runUnder StaticMode.start outwardTrace rfl (by decide)
  exact ⟨mode, reached, loop,
    (static_mode_keeps_to_itinerary reached).2.1 .ready .resetTask point loop rfl⟩

def Carries (count : Nat) (mode : StaticMode) : Prop :=
  ∃ left, staticSystem.ReachesUnder Faultless mode ∧ OnCourse False mode left ∧
    count = mode.rank left

/-- A run in which `InitWrapper` raises no error has a bounded number of steps, and one that
nobody but a signal can continue has taken the device through the whole itinerary, unless the
signal came while the device was running: static mode then reads the front of an empty queue. -/
theorem static_mode_completes {labels : List StaticAction} {mode : StaticMode}
    (replayed : staticSystem.runUnder Faultless .start labels = some mode) :
    labels.length ≤ 313 ∧
    ((∀ action, action ≠ .signal → mode.step action = none) →
      mode.point = .shutdown ∧ mode.control.sequence = .done ∧
        mode.control.machine.worker = .stopped ∧ mode.control.machine.entered = itinerary ∨
      mode.point = .undefined ∧ mode.fDeviceShutdownRequested = true) := by
  have falls : ∀ {count before action after}, Carries count before → Faultless before action →
      staticSystem.step before action = some after → ∃ less < count, Carries less after := by
    rintro count before action after ⟨left, reached, onCourse, rfl⟩ faultless stepped
    have sound : action = .device .raiseError → False := by
      rintro rfl
      exact faultless
    obtain ⟨next, onCourse, lower⟩ :=
      onCourse.step (static_machine_reaches reached) sound stepped
    exact ⟨_, lower faultless, next, reached.step faultless stepped, onCourse, rfl⟩
  obtain ⟨short, _, left, reached, onCourse, _⟩ :=
    TransitionSystem.length_le_of_falling falls ⟨_, .initial rfl, .start, rfl⟩ replayed
  refine ⟨short, ?_⟩
  intro halted
  rcases onCourse.continues (static_machine_reaches reached) with ⟨action, other, _, enabled⟩ | ended
  · simp [halted action other] at enabled
  · cases ended with
    | exited point sequence worker state entered => exact .inl ⟨point, sequence, worker, entered⟩
    | failed fault _ _ => exact fault.elim
    | undefined point signalled => exact .inr ⟨point, signalled⟩

def itineraryTrace : List StaticAction :=
  outwardTrace ++ shutdownTrace ++ shutdownTrace ++
  [.shutdown .changeDeviceState, .device (.lock .controller), .device (.write .controller),
    .device (.complete .controller), .shutdown .changeReturned, .device .takeWork,
    .shutdown .waitForNextState, .shutdown .changeDeviceState]

def StaticMode.exited : StaticMode where
  control :=
    { machine :=
        { Machine.start with
          fState := .exiting, fWork := some .resetWrapper, fWorkerTerminated := true
          controller := .returned .endDevice, worker := .stopped, lastEvent := some .endDevice
          entered := itinerary, announced := itinerary }
      fEvents := []
      sequence := .done }
  fDeviceShutdownRequested := false
  point := .shutdown

theorem itinerary_completed :
    staticSystem.runUnder Faultless .start itineraryTrace = some .exited ∧
      itineraryTrace.length ≤ 313 ∧ StaticMode.exited.control.machine.entered = itinerary := by
  have replayed : staticSystem.runUnder Faultless .start itineraryTrace = some .exited := by decide
  obtain ⟨short, ends⟩ := static_mode_completes replayed
  refine ⟨replayed, short, ?_⟩
  have halted : ∀ action, action ≠ .signal → StaticMode.exited.step action = none := by
    intro action other
    cases action with
    | device action => cases action <;> first | rfl | (rename_i thread; cases thread <;> rfl)
    | shutdown action => cases action <;> rfl
    | signal => exact absurd rfl other
    | _ => rfl
  rcases ends halted with ⟨_, _, _, entered⟩ | ⟨undefined, _⟩
  · exact entered
  · cases undefined

/-- A signal while the device runs: the queue is empty when its front is read. -/
example : (staticSystem.run .start
    (startupTrace ++ [.waitForNextState, .waitForNextState] ++
      startupTrace ++ [.waitForNextState, .waitForNextState] ++
      [.changeDeviceState, .device (.lock .controller), .device (.write .controller),
        .device (.complete .controller), .changeReturned, .device .takeWork, .device .callback,
        .waitForNextState, .signal, .leave])).map (fun mode => (mode.point, mode.control.fEvents)) =
      some (.undefined, []) := by
  decide

end FairMQ.Plugins
