import FairMQ.Plugins.Itinerary
import FairMQ.Plugins.Settling

namespace FairMQ.Plugins

open FairMQ.Data FairMQ.StateMachine

def Startup.leg : Startup → Leg
  | .initDevice => .initDevice
  | .initTask => .initTask
  | .run => .run

def OnLeg (faulty : Prop) (leg : Leg) (machine : Machine) (told : List State) : Prop :=
  Travels leg machine told ∨ faulty ∧ leg = .initDevice ∧ Failing machine told

def Leg.returns : Leg → Bool
  | .resetTask | .resetDevice => true
  | _ => false

inductive Course (faulty : Prop) (here : Point) (control : Control) : Nat → Prop where
  | change {startup : Startup} (point : here = .change startup)
      (rest : AtRest startup.leg.source startup.leg.earlier control.machine)
      (events : control.fEvents = []) : Course faulty here control (startup.leg.left + 1)
  | requesting {startup : Startup} (point : here = .requesting startup)
      (device : OnLeg faulty startup.leg control.machine control.fEvents) :
      Course faulty here control startup.leg.left
  | waiting {startup : Startup} {told : List State} (point : here = .waiting startup)
      (device : OnLeg faulty startup.leg control.machine told)
      (events : told = control.fEvents ∨
        startup ≠ .run ∧ told = startup.leg.working :: control.fEvents) :
      Course faulty here control startup.leg.left
  | started (point : here = .started)
      (device : Travels .run control.machine (.running :: control.fEvents)) :
      Course faulty here control 3
  | undefined {told : List State} (point : here = .undefined)
      (device : Travels .run control.machine told) : Course faulty here control 3
  | failed {told : List State} (point : here = .failed)
      (fault : faulty) (device : Failing control.machine told) : Course faulty here control 5
  | emptying (point : here = .shutdown)
      (sequence : control.sequence = .start ∨ control.sequence = .read .ready)
      (rest : AtRest .ready Leg.resetTask.earlier control.machine) : Course faulty here control 3
  | turn {leg : Leg} (point : here = .shutdown)
      (sequence : control.sequence = .loop leg.source) (back : leg.returns = true)
      (rest : AtRest leg.source leg.earlier control.machine)
      (events : control.fEvents = []) : Course faulty here control (leg.left + 1)
  | resetting {leg : Leg} (point : here = .shutdown)
      (sequence : control.sequence = .requesting) (back : leg.returns = true)
      (device : Travels leg control.machine control.fEvents) : Course faulty here control leg.left
  | reset {leg : Leg} {told : List State} (point : here = .shutdown)
      (sequence : control.sequence = .waiting) (back : leg.returns = true)
      (device : Travels leg control.machine told)
      (events : told = control.fEvents ∨ told = leg.working :: control.fEvents) :
      Course faulty here control leg.left
  | ignore {leg : Leg} (point : here = .shutdown)
      (sequence : control.sequence = .loop leg.working) (back : leg.returns = true)
      (device : Travels leg control.machine (leg.working :: control.fEvents)) :
      Course faulty here control leg.left
  | home (point : here = .shutdown) (sequence : control.sequence = .loop .idle)
      (rest : AtRest .idle (Leg.resetDevice.earlier ++ [.resettingDevice, .idle])
        control.machine)
      (events : control.fEvents = []) : Course faulty here control 1
  | exiting (point : here = .shutdown)
      (sequence : control.sequence = .requesting ∨ control.sequence = .waiting)
      (device : Exiting control.machine control.fEvents) : Course faulty here control 0
  | exited (point : here = .shutdown)
      (sequence : control.sequence = .loop .exiting ∨ control.sequence = .done)
      (device : Exiting control.machine [.exiting]) : Course faulty here control 0

structure OnCourse (faulty : Prop) (mode : StaticMode) (left : Nat) : Prop where
  fresh : mode.point ≠ .shutdown → mode.control.sequence = .start
  course : Course faulty mode.point mode.control left
  signalled : mode.point = .undefined → mode.fDeviceShutdownRequested = true

theorem OnCourse.start {faulty : Prop} :
    OnCourse faulty .start (Startup.initDevice.leg.left + 1) where
  fresh := fun _ => rfl
  course := .change rfl ⟨.inl rfl, rfl, rfl, rfl, rfl⟩ rfl
  signalled := nofun

theorem OnCourse.shutdown {faulty : Prop} {mode : StaticMode} {left : Nat}
    (point : mode.point = .shutdown) (course : Course faulty mode.point mode.control left) :
    OnCourse faulty mode left :=
  ⟨fun other => absurd point other, course, by simp [point]⟩

theorem OnCourse.fresh_of {faulty : Prop} {mode : StaticMode} {left : Nat}
    (fresh : mode.control.sequence = .start) (defined : mode.point ≠ .undefined)
    (course : Course faulty mode.point mode.control left) : OnCourse faulty mode left :=
  ⟨fun _ => fresh, course, fun undefined => absurd undefined defined⟩

section Told

variable {faulty : Prop} {leg : Leg} {machine : Machine} {told : List State}

theorem Travels.told_cases (travels : Travels leg machine told) :
    told = [] ∨ told = [leg.working] ∨ told = [leg.working, leg.target] ∧
      AtRest leg.target (leg.earlier ++ [leg.working, leg.target]) machine := by
  obtain ⟨place, here, rfl⟩ := travels
  cases place with
  | lock | acting | wrote | posted | begun => exact .inl rfl
  | settled => exact .inr (.inr ⟨rfl, here.rest⟩)
  | _ => exact .inr (.inl rfl)

theorem Failing.told_cases (failing : Failing machine told) :
    told = [] ∨ told = [.initializingDevice] ∨
      ∃ rest, told = .error :: rest ∨ told = .initializingDevice :: .error :: rest := by
  cases failing with
  | raising _ _ _ _ before =>
      rcases before with ⟨_, none⟩ | ⟨_, one⟩
      · exact .inl none
      · exact .inr (.inl one)
  | raised _ _ _ _ before => exact before.imp_right .inl
  | failed _ _ _ _ before => exact .inr (.inr ⟨_, before⟩)

theorem Exiting.told_cases (exiting : Exiting machine told) : told = [] ∨ told = [.exiting] := by
  cases exiting with
  | asking | wrote => exact .inl rfl
  | exited => exact .inr rfl

theorem Travels.first {front : State} {rest : List State}
    (travels : Travels leg machine (front :: rest)) : front = leg.working := by
  rcases travels.told_cases with none | one | ⟨two, _⟩
  · simp at none
  · simp at one
    exact one.1
  · simp at two
    exact two.1

theorem Travels.second {first front : State} {rest : List State}
    (travels : Travels leg machine (first :: front :: rest)) :
    front = leg.target ∧ rest = [] ∧
      AtRest leg.target (leg.earlier ++ [leg.working, leg.target]) machine := by
  rcases travels.told_cases with none | one | ⟨two, atRest⟩
  · simp at none
  · simp at one
  · simp at two
    exact ⟨two.2.1, two.2.2, atRest⟩

theorem OnLeg.first {front : State} {rest : List State}
    (device : OnLeg faulty leg machine (front :: rest)) (usable : front ≠ .error) :
    front = leg.working := by
  rcases device with travels | ⟨_, rfl, failing⟩
  · exact travels.first
  · rcases failing.told_cases with none | one | ⟨_, failed | failed⟩
    · simp at none
    · simp at one
      exact one.1
    · simp at failed
      exact absurd failed.1 usable
    · simp at failed
      exact failed.1

theorem OnLeg.second {front : State} {rest : List State}
    (device : OnLeg faulty leg machine (leg.working :: front :: rest)) (usable : front ≠ .error) :
    front = leg.target ∧ rest = [] ∧
      AtRest leg.target (leg.earlier ++ [leg.working, leg.target]) machine := by
  rcases device with travels | ⟨_, rfl, failing⟩
  · exact travels.second
  · rcases failing.told_cases with none | one | ⟨_, failed | failed⟩
    · simp at none
    · simp at one
    · simp [Leg.working, Leg.wrapper, Wrapper.announces] at failed
    · simp at failed
      exact absurd failed.2.1 usable

theorem Travels.not_error {rest : List State} (travels : Travels leg machine told) :
    told ≠ .error :: rest ∧ told ≠ leg.working :: .error :: rest := by
  rcases travels.told_cases with none | one | ⟨two, _⟩
  · simp [none]
  · simp [one]
    cases leg <;> simp [Leg.working, Leg.wrapper, Wrapper.announces]
  · simp [two]
    cases leg <;> simp [Leg.working, Leg.wrapper, Wrapper.announces, Leg.target]

end Told

section Device

variable {faulty : Prop} {leg : Leg} {machine after : Machine} {action : Action}
  {told : List State}

theorem AtRest.alive {state : State} {entered : List State} (rest : AtRest state entered machine)
    (reached : machineSystem.Reaches machine) (running : state ≠ .exiting) (sound : state ≠ .error) :
    machine.fWorkerTerminated = false := by
  cases terminated : machine.fWorkerTerminated with
  | false => rfl
  | true =>
      rcases terminated_final reached terminated with final | final
      · exact absurd (rest.state.symm.trans final) running
      · exact absurd (rest.state.symm.trans final) sound

theorem Travels.alive (travels : Travels leg machine told)
    (reached : machineSystem.Reaches machine) : machine.fWorkerTerminated = false := by
  obtain ⟨place, here, _⟩ := travels
  have state : machine.fState = leg.source ∨ machine.fState = leg.working ∨
      machine.fState = leg.target := by
    rw [here.state]
    cases place <;> simp
  cases terminated : machine.fWorkerTerminated with
  | false => rfl
  | true =>
      have final := terminated_final reached terminated
      rcases state with state | state | state <;> rw [state] at final <;> cases leg <;>
        simp [Leg.source, Leg.working, Leg.wrapper, Wrapper.announces, Leg.target] at final

theorem OnLeg.device (device : OnLeg faulty leg machine told)
    (reached : machineSystem.Reaches machine) (fault : action = .raiseError → faulty)
    (own : clientDecides action = false) (stepped : machine.step action = some after) :
    OnLeg faulty leg after (told ++ pushed machine after) := by
  rcases device with travels | ⟨fault, initial, failing⟩
  · rcases travels.device (travels.alive reached) own stepped with
      travels | ⟨initial, raised, failing⟩
    · exact .inl travels
    · exact .inr ⟨fault raised, initial, failing⟩
  · exact .inr ⟨fault, initial, failing.device own stepped⟩

theorem Travels.onward (travels : Travels leg machine told) (later : leg ≠ .initDevice)
    (reached : machineSystem.Reaches machine) (own : clientDecides action = false)
    (stepped : machine.step action = some after) :
    Travels leg after (told ++ pushed machine after) := by
  rcases travels.device (travels.alive reached) own stepped with travels | ⟨initial, _, _⟩
  · exact travels
  · exact absurd initial later

theorem Leg.later_of_returns (back : leg.returns = true) : leg ≠ .initDevice := by
  rintro rfl
  simp [Leg.returns] at back

theorem Exiting.onward (exiting : Exiting machine told) (reached : machineSystem.Reaches machine)
    (own : clientDecides action = false) (stepped : machine.step action = some after) :
    Exiting after (told ++ pushed machine after) := by
  refine exiting.device (fun idle => ?_) own stepped
  cases terminated : machine.fWorkerTerminated with
  | false => rfl
  | true =>
      have final := terminated_final reached terminated
      simp [idle] at final

end Device

section Step

variable {faulty : Prop} {mode : StaticMode} {left : Nat} {machine : Machine} {action : Action}

theorem Course.device {here : Point} {control : Control} (course : Course faulty here control left)
    (reached : machineSystem.Reaches control.machine)
    (fault : action = .raiseError → faulty) (own : clientDecides action = false)
    (stepped : control.machine.step action = some machine) :
    Course faulty here { control with
      machine, fEvents := control.fEvents ++ pushed control.machine machine } left := by
  cases course with
  | @change startup point rest _ =>
      have alive := rest.alive reached (by cases startup <;> decide) (by cases startup <;> decide)
      simp [rest.still alive own] at stepped
  | requesting point device => exact .requesting point (device.device reached fault own stepped)
  | waiting point device events =>
      refine .waiting point (device.device reached fault own stepped) ?_
      rcases events with rfl | ⟨early, rfl⟩
      · exact .inl rfl
      · exact .inr ⟨early, rfl⟩
  | started point device =>
      exact .started point (device.onward (by decide) reached own stepped)
  | undefined point device =>
      exact .undefined point (device.onward (by decide) reached own stepped)
  | failed point fault device => exact .failed point fault (device.device own stepped)
  | emptying _ _ rest =>
      simp [rest.still (rest.alive reached (by decide) (by decide)) own] at stepped
  | @turn leg _ _ _ rest _ =>
      have alive := rest.alive reached (by cases leg <;> decide) (by cases leg <;> decide)
      simp [rest.still alive own] at stepped
  | resetting point sequence back device =>
      exact .resetting point sequence back
        (device.onward (Leg.later_of_returns back) reached own stepped)
  | reset point sequence back device events =>
      refine .reset point sequence back
        (device.onward (Leg.later_of_returns back) reached own stepped) ?_
      rcases events with rfl | rfl
      · exact .inl rfl
      · exact .inr rfl
  | ignore point sequence back device =>
      exact .ignore point sequence back
        (device.onward (Leg.later_of_returns back) reached own stepped)
  | home _ _ rest _ =>
      simp [rest.still (rest.alive reached (by decide) (by decide)) own] at stepped
  | exiting point sequence device =>
      exact .exiting point sequence (device.onward reached own stepped)
  | exited point sequence device =>
      have next := device.onward reached own stepped
      rcases next.told_cases with none | one
      · simp at none
      · rw [one] at next
        exact .exited point sequence next

theorem remaining_of_request {event : Event} {before : Machine}
    (requested : before.request event = some machine) :
    machine = { before with controller := .changing (.lock event) } ∧
      machine.remaining = 13 + before.remaining := by
  have stepped : before.step (.request event) = some machine := requested
  cases Machine.step_effect stepped with
  | request free =>
      refine ⟨rfl, ?_⟩
      have idle : before.controller.remaining = 0 := by
        rcases free with idle | ⟨last, returned⟩
        · rw [idle]
          rfl
        · rw [returned]
          rfl
      rw [Machine.remaining_of_calling rfl, Machine.remaining, idle, Call.remaining]
      change 10 + 3 + before.postedWork + before.worker.remaining = _
      omega

@[simp]
def Sequence.rank : Sequence → Nat
  | .start => 7
  | .read _ => 6
  | .loop _ | .requesting => 5
  | .waiting => 4
  | .done | .failed => 0

@[simp]
def StaticMode.pluginRank (mode : StaticMode) : Nat :=
  match mode.point with
  | .requesting _ => 10
  | .change _ | .waiting _ => 9
  | .started => 8
  | .shutdown => mode.control.sequence.rank
  | .undefined | .failed => 0

def StaticMode.rank (mode : StaticMode) (left : Nat) : Nat :=
  50 * left + 3 * mode.control.machine.remaining + 2 * mode.control.fEvents.length +
    mode.pluginRank + if mode.fDeviceShutdownRequested then 0 else 1

def Advances (faulty : Prop) (mode : StaticMode) (left : Nat) (after : StaticMode) : Prop :=
  ∃ next, OnCourse faulty after next ∧ after.rank next < mode.rank left

variable {after : StaticMode}

theorem StaticMode.rank_lt {next : Nat}
    (machine : after.control.machine = mode.control.machine)
    (flag : after.fDeviceShutdownRequested = mode.fDeviceShutdownRequested)
    (fewer : next ≤ left)
    (lower : 2 * after.control.fEvents.length + after.pluginRank <
      2 * mode.control.fEvents.length + mode.pluginRank) :
    after.rank next < mode.rank left := by
  rw [rank, rank, machine, flag]
  omega

theorem Travels.of_request {leg : Leg} {before : Machine}
    (rest : AtRest leg.source leg.earlier before) :
    Travels leg { before with controller := .changing (.lock leg.event) } [] :=
  ⟨.lock, ⟨rfl, rest.resting, rest.state, rest.entered.trans (List.append_nil _).symm,
    by simpa using rest.unavailable, nofun⟩, rfl⟩

theorem Leg.shutdown_source {leg : Leg} (back : leg.returns = true) :
    shutdownTransition leg.source = some leg.event ∧ leg.source ≠ .exiting ∧
      leg.source ≠ .error := by
  cases leg <;> simp [Leg.returns] at back <;> decide

theorem Leg.shutdown_working {leg : Leg} (back : leg.returns = true) :
    shutdownTransition leg.working = none ∧ leg.working ≠ .exiting ∧ leg.working ≠ .error := by
  cases leg <;> simp [Leg.returns] at back <;> decide

section Course

variable (course : Course faulty mode.point mode.control left)

include course

theorem Course.request {startup : Startup}
    (point : mode.point = .change startup) (fresh : mode.control.sequence = .start)
    (requested : mode.control.machine.request startup.event = some machine) :
    Advances faulty mode left
      { mode with control := { mode.control with machine }, point := .requesting startup } := by
  cases course with
  | @change other here rest events =>
      cases point.symm.trans here
      obtain ⟨moved, remaining⟩ := remaining_of_request requested
      have same : startup.event = startup.leg.event := by cases startup <;> rfl
      refine ⟨_, .fresh_of fresh (by simp) (.requesting rfl (.inl ?_)), ?_⟩
      · rw [moved, same, events]
        exact .of_request rest
      · simp only [StaticMode.rank, StaticMode.pluginRank, point, remaining, events]
        omega
  | _ => simp_all

theorem Course.pop {startup : Startup} {front : State} {rest : List State}
    (point : mode.point = .waiting startup) (fresh : mode.control.sequence = .start)
    (events : mode.control.fEvents = front :: rest) (usable : front ≠ .error) :
    Advances faulty mode left
      { mode with
        control := { mode.control with fEvents := rest }
        point := if front = startup.awaited then startup.next else .waiting startup } := by
  have lower : StaticMode.rank
      { mode with
        control := { mode.control with fEvents := rest }
        point := if front = startup.awaited then startup.next else .waiting startup } left <
      mode.rank left := by
    refine StaticMode.rank_lt rfl rfl (Nat.le_refl _) ?_
    by_cases awaited : front = startup.awaited
    · cases startup <;>
        simp only [StaticMode.pluginRank, point, events, awaited, if_true, Startup.next,
          List.length_cons] <;> omega
    · simp [point, events, awaited]
  have defined : (if front = startup.awaited then startup.next else .waiting startup) ≠
      .undefined := by
    cases startup <;> split <;> simp [Startup.next]
  cases course with
  | @waiting other told here device read =>
      cases point.symm.trans here
      rcases read with rfl | ⟨early, rfl⟩
      · -- the working state, which only ends the wait for `Running`
        rw [events] at device
        cases device.first usable
        cases startup with
        | run =>
            have travels : Travels .run mode.control.machine (.running :: rest) :=
              device.resolve_right (by simp [Startup.leg])
            exact ⟨3, .fresh_of fresh defined (.started rfl travels), lower⟩
        | initDevice | initTask =>
            exact ⟨_, .fresh_of fresh defined (.waiting rfl device (.inr ⟨by decide, rfl⟩)), lower⟩
      · rw [events] at device
        obtain ⟨rfl, rfl, atRest⟩ := device.second usable
        cases startup with
        | run => exact absurd rfl early
        | initDevice | initTask =>
            exact ⟨_, .fresh_of fresh defined (.change rfl atRest rfl), lower⟩
  | _ => simp_all

theorem Course.throws {startup : Startup} {rest : List State}
    (point : mode.point = .waiting startup) (fresh : mode.control.sequence = .start)
    (events : mode.control.fEvents = .error :: rest) :
    Advances faulty mode left { mode with point := .failed } := by
  cases course with
  | @waiting other told here device read =>
      cases point.symm.trans here
      rw [events] at read
      rcases device with travels | ⟨fault, initial, failing⟩
      · obtain ⟨first, second⟩ := travels.not_error
        rcases read with same | ⟨_, same⟩
        · exact absurd same first
        · exact absurd same second
      · refine ⟨5, .fresh_of fresh (by simp) (.failed rfl fault failing), ?_⟩
        rw [initial]
        exact StaticMode.rank_lt rfl rfl (Nat.le_refl _) (by simp [point])
  | _ => simp_all

theorem Course.leave {front : State} {rest : List State}
    (point : mode.point = .started) (fresh : mode.control.sequence = .start)
    (events : mode.control.fEvents = front :: rest) :
    Advances faulty mode left { mode with point := if front = .error then .failed else .shutdown } := by
  cases course with
  | started _ device =>
      rw [events] at device
      have usable : front ≠ .error := by
        rintro rfl
        exact device.not_error.2 rfl
      obtain ⟨_, _, atRest⟩ := device.second
      rw [if_neg usable]
      refine ⟨3, .shutdown rfl (.emptying rfl (.inl fresh) atRest), ?_⟩
      exact StaticMode.rank_lt rfl rfl (Nat.le_refl _) (by simp [point, fresh])
  | _ => simp_all

theorem Course.changeDeviceState {nextState : State} {event : Event}
    (point : mode.point = .shutdown) (loop : mode.control.sequence = .loop nextState)
    (wanted : shutdownTransition nextState = some event)
    (requested : mode.control.machine.request event = some machine) :
    Advances faulty mode left
      { mode with control := { mode.control with machine, sequence := .requesting } } := by
  obtain ⟨moved, remaining⟩ := remaining_of_request requested
  cases course with
  | @turn leg _ sequence back rest events =>
      cases loop.symm.trans sequence
      cases (Leg.shutdown_source back).1.symm.trans wanted
      refine ⟨leg.left, .shutdown point (.resetting point rfl back ?_), ?_⟩
      · rw [moved, events]
        exact .of_request rest
      · simp only [StaticMode.rank, StaticMode.pluginRank, point, loop, remaining, Sequence.rank]
        omega
  | home _ sequence rest events =>
      cases loop.symm.trans sequence
      cases wanted
      refine ⟨0, .shutdown point (.exiting point (.inl rfl) ?_), ?_⟩
      · rw [moved, events]
        exact .asking rfl (.inl rfl) rest.resting rest.unavailable rest.state rest.entered
      · simp only [StaticMode.rank, StaticMode.pluginRank, point, loop, remaining, Sequence.rank]
        omega
  | ignore _ sequence back _ =>
      cases loop.symm.trans sequence
      simp [(Leg.shutdown_working back).1] at wanted
  | exited _ sequence _ =>
      rcases sequence with sequence | sequence
      · cases loop.symm.trans sequence
        simp [shutdownTransition] at wanted
      · simp [loop] at sequence
  | _ => simp_all

theorem Course.nextState {front : State} {rest : List State}
    (point : mode.point = .shutdown) (waiting : mode.control.sequence = .waiting)
    (events : mode.control.fEvents = front :: rest) :
    Advances faulty mode left
      { mode with control := { mode.control with fEvents := rest, sequence := .loop front } } := by
  have lower : ∀ next ≤ left, StaticMode.rank
      { mode with control := { mode.control with fEvents := rest, sequence := .loop front } } next <
      mode.rank left := by
    intro next fewer
    refine StaticMode.rank_lt rfl rfl fewer ?_
    simp [point, waiting, events]
    omega
  cases course with
  | @reset leg told _ _ back device read =>
      rw [events] at read
      rcases read with rfl | rfl
      · cases device.first
        exact ⟨_, .shutdown point (.ignore point rfl back device), lower _ (Nat.le_refl _)⟩
      · obtain ⟨rfl, rfl, atRest⟩ := device.second
        cases leg with
        | resetTask =>
            have course : Course faulty mode.point { mode.control with
                fEvents := [], sequence := .loop .deviceReady } (Leg.resetDevice.left + 1) :=
              .turn point rfl rfl atRest rfl
            exact ⟨_, .shutdown point course, lower _ (Nat.le_refl _)⟩
        | resetDevice =>
            exact ⟨_, .shutdown point (.home point rfl atRest rfl), lower _ (Nat.le_refl _)⟩
        | initDevice | initTask | run => simp [Leg.returns] at back
  | exiting _ _ device =>
      rw [events] at device
      have told := device.told_cases
      simp only [reduceCtorEq, List.cons.injEq, false_or] at told
      obtain ⟨rfl, rfl⟩ := told
      exact ⟨0, .shutdown point (.exited point (.inl rfl) device), lower _ (Nat.le_refl _)⟩
  | _ => simp_all

theorem Course.shutdown {action : ControlAction} {control : Control}
    (point : mode.point = .shutdown) (own : ∀ device, action ≠ .device device)
    (effect : ControlEffect mode.control action control) :
    Advances faulty mode left { mode with control } := by
  cases effect with
  | device _ _ => exact absurd rfl (own _)
  | readState start =>
      cases course with
      | emptying _ _ rest =>
          refine ⟨3, .shutdown point (.emptying point (.inr (by simp [rest.state])) rest), ?_⟩
          exact StaticMode.rank_lt rfl rfl (Nat.le_refl _) (by simp [point, start])
      | _ => simp_all
  | @emptyEventQueue nextState read =>
      cases course with
      | emptying _ sequence rest =>
          have same : nextState = .ready := by simpa [read] using sequence
          subst same
          have course : Course faulty mode.point { mode.control with
              fEvents := [], sequence := .loop .ready } (Leg.resetTask.left + 1) :=
            .turn point rfl rfl rest rfl
          refine ⟨_, .shutdown point course, ?_⟩
          exact StaticMode.rank_lt rfl rfl (Nat.le_refl _) (by simp [point, read])
      | _ => simp_all
  | finish loop final =>
      cases course with
      | turn _ sequence back _ _ =>
          cases loop.symm.trans sequence
          have other := Leg.shutdown_source back
          simp [other] at final
      | ignore _ sequence back _ =>
          cases loop.symm.trans sequence
          have other := Leg.shutdown_working back
          simp [other] at final
      | home _ sequence _ _ =>
          cases loop.symm.trans sequence
          simp at final
      | exited _ _ device =>
          refine ⟨0, .shutdown point (.exited point (.inr rfl) device), ?_⟩
          exact StaticMode.rank_lt rfl rfl (Nat.le_refl _) (by simp [point, loop])
      | _ => simp_all
  | ignore loop running ignored =>
      cases course with
      | turn _ sequence back _ _ =>
          cases loop.symm.trans sequence
          simp [(Leg.shutdown_source back).1] at ignored
      | ignore _ sequence back device =>
          refine ⟨_, .shutdown point (.reset point rfl back device (.inr rfl)), ?_⟩
          exact StaticMode.rank_lt rfl rfl (Nat.le_refl _) (by simp [point, loop])
      | home _ sequence _ _ =>
          cases loop.symm.trans sequence
          simp [shutdownTransition] at ignored
      | _ => simp_all
  | request loop wanted requested => exact course.changeDeviceState point loop wanted requested
  | changeReturned requesting returned =>
      have lower : ∀ next ≤ left, StaticMode.rank
          { mode with control := { mode.control with sequence := .waiting } } next <
          mode.rank left := by
        intro next fewer
        refine StaticMode.rank_lt rfl rfl fewer ?_
        simp [point, requesting]
      cases course with
      | resetting _ _ back device =>
          exact ⟨_, .shutdown point (.reset point rfl back device (.inl rfl)), lower _ (Nat.le_refl _)⟩
      | exiting _ _ device =>
          exact ⟨0, .shutdown point (.exiting point (.inr rfl) device), lower _ (Nat.le_refl _)⟩
      | _ => simp_all
  | throws waiting events =>
      cases course with
      | reset _ _ _ device read =>
          rw [events] at read
          rcases read with rfl | rfl
          · exact absurd rfl device.not_error.1
          · exact absurd rfl device.not_error.2
      | exiting _ _ device =>
          have told := device.told_cases
          simp [events] at told
      | _ => simp_all
  | pop waiting events => exact course.nextState point waiting events

end Course

theorem OnCourse.step {action : StaticAction} (onCourse : OnCourse faulty mode left)
    (reached : machineSystem.Reaches mode.control.machine)
    (fault : action = .device .raiseError → faulty)
    (stepped : mode.step action = some after) :
    ∃ next, OnCourse faulty after next ∧ (Faultless mode action → after.rank next < mode.rank left) := by
  obtain ⟨fresh, course, undefined⟩ := onCourse
  have advances : Advances faulty mode left after → ∃ next, OnCourse faulty after next ∧
      (Faultless mode action → after.rank next < mode.rank left) := by
    rintro ⟨next, onCourse, lower⟩
    exact ⟨next, onCourse, fun _ => lower⟩
  cases StaticMode.step_effect stepped with
  | @device action machine own moved =>
      have fault : action = .raiseError → faulty := fun raised => fault (by rw [raised])
      refine ⟨left, ⟨fresh, course.device reached fault own moved, undefined⟩, ?_⟩
      intro faultless
      have other : action ≠ .raiseError := by
        rintro rfl
        exact faultless
      have nearer := Machine.remaining_lt (consistent_of_reaches reached) own other moved
      have pushes := pushed_length_le moved
      simp only [StaticMode.rank, StaticMode.pluginRank, List.length_append]
      omega
  | request change requested =>
      exact advances (course.request change (fresh (by simp [change])) requested)
  | changeReturned requesting _ =>
      cases course with
      | @requesting other point device =>
          cases requesting.symm.trans point
          refine advances ⟨_, .fresh_of (fresh (by simp [point])) (by simp)
            (.waiting rfl device (.inl rfl)), ?_⟩
          exact StaticMode.rank_lt rfl rfl (Nat.le_refl _) (by simp [point])
      | _ => simp_all
  | throws waiting events =>
      exact advances (course.throws waiting (fresh (by simp [waiting])) events)
  | pop waiting events usable =>
      exact advances (course.pop waiting (fresh (by simp [waiting])) events usable)
  | signal unset =>
      refine advances ⟨left, ⟨fresh, course, fun _ => rfl⟩, ?_⟩
      simp [StaticMode.rank, unset]
  | front started events signalled =>
      cases course with
      | started _ device =>
          refine advances ⟨3, ⟨fun _ => fresh (by simp [started]),
            .undefined rfl device, fun _ => signalled⟩, ?_⟩
          exact StaticMode.rank_lt rfl rfl (Nat.le_refl _) (by simp [started])
      | _ => simp_all
  | leave started events =>
      exact advances (course.leave started (fresh (by simp [started])) events)
  | shutdown point own effect => exact advances (course.shutdown point own effect)

end Step

end FairMQ.Plugins
