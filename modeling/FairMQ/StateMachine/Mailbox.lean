import FairMQ.StateMachine.Consistent

namespace FairMQ.StateMachine

open FairMQ.Data

def Machine.stores (machine : Machine) : Action → Bool
  | .complete thread =>
      match machine.call thread with
      | some (.wrote _ row) => row.action == .defaultFct
      | _ => false
  | _ => false

/-- What one step owes the mailbox: the worker takes the handler registered for
the event that last set `fState`, and an untaken handler is not replaced. -/
structure HandsOver (machine : Machine) (action : Action) (after : Machine) : Prop where
  taken : machine.fWorkActive = false → after.fWorkActive = true →
    machine.fWork = machine.lastEvent.bind fStateHandlers
  kept : machine.stores action = true → machine.untaken = false

def Collected (machine : Machine) : Action → Prop
  | .write .controller => machine.untaken = false
  | _ => True

instance (machine : Machine) (action : Action) : Decidable (Collected machine action) :=
  match action with
  | .write .controller => inferInstanceAs (Decidable (machine.untaken = false))
  | .write .worker | .request _ | .waitForEndOfState _ | .endOfState | .lock _ | .complete _
  | .takeWork | .callback | .raiseError | .bodyReturns | .wrapperReturns | .finishWork
  | .readState | .deliver => isTrue trivial

structure MailboxSound (machine : Machine) : Prop where
  posted : machine.untaken = true → machine.fWork = machine.lastEvent.bind fStateHandlers
  writing : ∀ event row, machine.controller = .changing (.wrote event row) →
    machine.untaken = false ∧ machine.lastEvent = some event

theorem MailboxSound.frame {machine after : Machine} (sound : MailboxSound machine)
    (untaken : after.untaken = true → machine.untaken = true)
    (work : after.fWork = machine.fWork) (last : after.lastEvent = machine.lastEvent)
    (writing : ∀ event row, after.controller = .changing (.wrote event row) →
      machine.controller = .changing (.wrote event row)) : MailboxSound after where
  posted := by
    intro waits
    rw [work, last]
    exact sound.posted (untaken waits)
  writing := by
    intro event row calling
    obtain ⟨collected, isLast⟩ := sound.writing event row (writing event row calling)
    refine ⟨?_, last.trans isLast⟩
    cases waits : after.untaken with
    | false => rfl
    | true =>
        rw [untaken waits] at collected
        contradiction

theorem Machine.untaken_of_active {machine : Machine} (active : machine.fWorkActive = true) :
    machine.untaken = false := by
  simp [Machine.untaken, active]

theorem MailboxSound.complete {machine finished : Machine} {event : Event} {row : Row}
    (sound : MailboxSound machine)
    (calling : machine.controller = .changing (.wrote event row))
    (acted : machine.finishAction event row.action = some finished) :
    MailboxSound { finished with controller := .returned event, fChangeStateMutex := none } := by
  obtain ⟨collected, isLast⟩ := sound.writing event row calling
  rcases Machine.finishAction_cases acted with
    ⟨_, rfl⟩ | ⟨_, _, rfl⟩ | ⟨wrapper, _, _, handler, rfl⟩ | ⟨_, rfl⟩ | ⟨_, rfl⟩
  · exact sound.frame id rfl rfl (by simp)
  · exact sound.frame id rfl rfl (by simp)
  · refine ⟨fun _ => ?_, by simp⟩
    simp [isLast, handler]
  · exact sound.frame id rfl rfl (by simp)
  · exact sound.frame id rfl rfl (by simp)

theorem MailboxSound.workerComplete {machine finished : Machine} {event : Event} {row : Row}
    {wrapper : Wrapper} {resume : Stage} (consistent : Consistent machine)
    (sound : MailboxSound machine)
    (calling : machine.worker = .changing (.wrote event row) wrapper resume)
    (acted : machine.finishAction event row.action = some finished) :
    MailboxSound { finished with worker := .handling wrapper resume, fChangeStateMutex := none } := by
  have never := consistent.worker_row calling
  rcases Machine.finishAction_cases acted with
    ⟨_, rfl⟩ | ⟨_, _, rfl⟩ | ⟨_, isDefault, _, _, rfl⟩ | ⟨_, rfl⟩ | ⟨_, rfl⟩
  · exact sound.frame id rfl rfl fun _ _ => id
  · exact sound.frame id rfl rfl fun _ _ => id
  · simp [isDefault, Fct.waits] at never
  · exact sound.frame id rfl rfl fun _ _ => id
  · exact sound.frame id rfl rfl fun _ _ => id

theorem MailboxSound.step {machine after : Machine} {action : Action}
    (consistent : Consistent machine) (sound : MailboxSound machine)
    (permitted : Collected machine action) (stepped : machine.step action = some after) :
    MailboxSound after := by
  have active := consistent.active
  cases Machine.step_effect stepped with
  | request _ => exact sound.frame id rfl rfl (by simp)
  | waitForEndOfState _ target =>
      refine sound.frame id rfl rfl ?_
      intro event row calling
      rcases target with rfl | ⟨rfl, _⟩ <;> simp at calling
  | endOfState _ _ _ => exact sound.frame id rfl rfl (by simp)
  | lockIgnored _ _ _ => exact sound.frame id rfl rfl (by simp)
  | lockTaken _ _ _ => exact sound.frame id rfl rfl (by simp)
  | write calling =>
      have collected : machine.untaken = false := permitted
      refine ⟨?_, ?_⟩
      · intro waits
        change machine.untaken = true at waits
        rw [collected] at waits
        contradiction
      · intro event row calls
        cases calls
        exact ⟨collected, rfl⟩
  | complete calling acted => exact sound.complete calling acted
  | workerLockIgnored _ _ _ => exact sound.frame id rfl rfl fun _ _ => id
  | workerLockTaken _ _ _ => exact sound.frame id rfl rfl fun _ _ => id
  | workerWrite calling =>
      -- the worker is active, so nothing is posted that the new event could belie
      have running : machine.fWorkActive = true := by simpa [calling] using active
      have outside := consistent.worker_alone (by simp [calling])
      refine ⟨?_, ?_⟩
      · intro waits
        change machine.untaken = true at waits
        rw [Machine.untaken_of_active running] at waits
        contradiction
      · intro event row calls
        change machine.controller = _ at calls
        simp [calls] at outside
  | workerComplete calling acted => exact sound.workerComplete consistent calling acted
  | terminate _ _ => exact sound.frame id rfl rfl fun _ _ => id
  | takeWork _ _ _ _ =>
      exact sound.frame (by simp [Machine.untaken]) rfl rfl fun _ _ => id
  | callback _ => exact sound.frame id rfl rfl fun _ _ => id
  | raiseError _ _ => exact sound.frame id rfl rfl fun _ _ => id
  | callInternal _ _ _ => exact sound.frame id rfl rfl fun _ _ => id
  | skipInternal _ _ => exact sound.frame id rfl rfl fun _ _ => id
  | wrapperReturns _ => exact sound.frame id rfl rfl fun _ _ => id
  | finishWork _ =>
      exact sound.frame (by simp [Machine.untaken]) rfl rfl fun _ _ => id
  | readState _ => exact sound.frame id rfl rfl fun _ _ => id
  | deliver _ => exact sound.frame id rfl rfl fun _ _ => id

theorem mailbox_of_reaches {machine : Machine}
    (reached : machineSystem.ReachesUnder Collected machine) : MailboxSound machine := by
  refine reached.relative (fun _ => consistent_of_reaches) ?_ ?_
  · intro state start
    cases start
    exact ⟨by simp [Machine.untaken, Machine.start], by simp [Machine.start]⟩
  · intro before action after consistent sound permitted stepped
    exact sound.step consistent permitted stepped

theorem Machine.raises_active {machine after : Machine} {action : Action}
    (stepped : machine.step action = some after) (inactive : machine.fWorkActive = false)
    (active : after.fWorkActive = true) : machine.untaken = true := by
  cases Machine.step_effect stepped with
  | takeWork _ _ available _ => simp [Machine.untaken, available, inactive]
  | complete _ acted =>
      obtain ⟨_, _, same⟩ := Machine.finishAction_frame acted
      simp [same, inactive] at active
  | workerComplete _ acted =>
      obtain ⟨_, _, same⟩ := Machine.finishAction_frame acted
      simp [same, inactive] at active
  | finishWork _ => simp at active
  | _ => simp [inactive] at active

/-- In every run whose controller writes `fState` only with an empty mailbox,
every step hands the handlers over as it should. -/
theorem collected_mailbox_hands_over {machine after : Machine} {action : Action}
    (reached : machineSystem.ReachesUnder Collected machine)
    (stepped : machine.step action = some after) : HandsOver machine action after := by
  have sound := mailbox_of_reaches reached
  have consistent := consistent_of_reaches reached
  refine ⟨?_, ?_⟩
  · intro inactive active
    exact sound.posted (Machine.raises_active stepped inactive active)
  · intro stores
    cases Machine.step_effect stepped with
    | complete calling _ => exact (sound.writing _ _ calling).1
    | workerComplete calling _ =>
        have running : machine.fWorkActive = true := by simpa [calling] using consistent.active
        exact Machine.untaken_of_active running
    | _ => simp [Machine.stores] at stores

def runPosted : List Action :=
  changeTrace .initDevice ++ workTrace ++ changeTrace .initTask ++ workTrace ++ changeTrace .run

theorem taken_run_hands_over :
    ∃ machine after, machineSystem.ReachesUnder Collected machine ∧
      machine.step .takeWork = some after ∧ machine.fState = .running ∧
      after.fWorkActive = true ∧ HandsOver machine .takeWork after := by
  obtain ⟨machine, after, reached, stepped, running, active⟩ :
      ∃ machine after, machineSystem.ReachesUnder Collected machine ∧
        machineSystem.step machine .takeWork = some after ∧
        machine.fState = .running ∧ after.fWorkActive = true :=
    TransitionSystem.step_of_runUnder Machine.start runPosted rfl (by decide)
  exact ⟨machine, after, reached, stepped, running, active,
    collected_mailbox_hands_over reached stepped⟩

/-- `STOP` overtakes the worker, which then takes `RunWrapper` in `READY`; or
`PAUSE` overtakes it and stores `PauseWrapper` over the untaken `RunWrapper`. -/
theorem overtaken_worker_breaks_mailbox :
    (∃ machine after, machineSystem.Reaches machine ∧ machine.step .takeWork = some after ∧
      machine.fState = .ready ∧ machine.fWork = some .runWrapper ∧
      ¬ HandsOver machine .takeWork after) ∧
    ∃ machine after, machineSystem.Reaches machine ∧
      machine.step (.complete .controller) = some after ∧
      machine.fWork = some .runWrapper ∧ after.fWork = some .pauseWrapper ∧
      ¬ HandsOver machine (.complete .controller) after := by
  refine ⟨?_, ?_⟩
  · obtain ⟨machine, after, reached, stepped, ready, work, inactive, active, last⟩ :
        ∃ machine after, machineSystem.Reaches machine ∧
          machineSystem.step machine .takeWork = some after ∧ machine.fState = .ready ∧
          machine.fWork = some .runWrapper ∧ machine.fWorkActive = false ∧ after.fWorkActive = true ∧
          machine.lastEvent = some .stop :=
      TransitionSystem.step_of_runUnder Machine.start (runPosted ++ changeTrace .stop) rfl (by decide)
    refine ⟨machine, after, reached, stepped, ready, work, fun handsOver => ?_⟩
    have registered := handsOver.taken inactive active
    simp [work, last, fStateHandlers] at registered
  · obtain ⟨machine, after, reached, stepped, before, overwritten, stores, untaken⟩ :
        ∃ machine after, machineSystem.Reaches machine ∧
          machineSystem.step machine (.complete .controller) = some after ∧
          machine.fWork = some .runWrapper ∧ after.fWork = some .pauseWrapper ∧
          machine.stores (.complete .controller) = true ∧ machine.untaken = true :=
      TransitionSystem.step_of_runUnder Machine.start
        (runPosted ++ [.request .pause, .lock .controller, .write .controller]) rfl (by decide)
    refine ⟨machine, after, reached, stepped, before, overwritten, fun handsOver => ?_⟩
    have collected := handsOver.kept stores
    simp [untaken] at collected

end FairMQ.StateMachine
