import FairMQ.Plugins.Control

namespace FairMQ.StateMachine

open FairMQ.Plugins

def Call.remaining : Call → Nat
  | .lock _ => 3
  | .acting _ _ => 2
  | .wrote _ _ => 1

def Stage.remaining : Stage → Nat
  | .begun => 10
  | .body => 9
  | .post => 5

def Controller.remaining : Controller → Nat
  | .changing call => 10 + call.remaining
  | _ => 0

def Worker.remaining : Worker → Nat
  | .waiting => 1
  | .handling _ stage => stage.remaining
  | .changing call _ resume => resume.remaining + call.remaining
  | .finishing => 4
  | .announcing => 3
  | .announce _ => 2
  | .stopped => 0

def Machine.postedWork (machine : Machine) : Nat :=
  if machine.untaken then 10 else 0

def Machine.remaining (machine : Machine) : Nat :=
  machine.controller.remaining + machine.postedWork + machine.worker.remaining

variable {machine after finished : Machine} {action : Action} {event : Event} {row : Row}

theorem Machine.postedWork_le (machine : Machine) : machine.postedWork ≤ 10 := by
  rw [postedWork]
  split <;> omega

theorem Machine.postedWork_of_active (active : machine.fWorkActive = true) :
    machine.postedWork = 0 := by
  simp [postedWork, untaken, active]

theorem Machine.remaining_le_of_returned (returned : machine.controller = .returned event) :
    machine.remaining ≤ 10 + machine.worker.remaining := by
  have posted := machine.postedWork_le
  simp only [remaining, returned, Controller.remaining]
  omega

theorem Machine.remaining_of_calling {call : Call} (calling : machine.controller = .changing call) :
    machine.remaining =
      10 + call.remaining + machine.postedWork + machine.worker.remaining := by
  rw [remaining, calling, Controller.remaining]

theorem Machine.remaining_complete
    (calling : machine.controller = .changing (.wrote event row))
    (acted : machine.finishAction event row.action = some finished) :
    { finished with
      controller := .returned event, fChangeStateMutex := none : Machine }.remaining <
      machine.remaining := by
  refine Nat.lt_of_le_of_lt (remaining_le_of_returned rfl) ?_
  change 10 + finished.worker.remaining < machine.remaining
  rw [(finishAction_frame acted).2.1, remaining_of_calling calling, Call.remaining]
  omega

theorem Machine.remaining_still (still : after.postedWork = machine.postedWork)
    (nearer : after.controller.remaining + after.worker.remaining <
      machine.controller.remaining + machine.worker.remaining) :
    after.remaining < machine.remaining := by
  rw [remaining, remaining, still]
  omega

theorem Machine.remaining_working (consistent : Consistent machine) {worker : Worker}
    (running : machine.worker = worker) (active : worker.active = true)
    (controller : after.controller = machine.controller) (still : after.postedWork = 0)
    (nearer : after.worker.remaining < worker.remaining) :
    after.remaining < machine.remaining := by
  have posted := postedWork_of_active (consistent.active.trans (running ▸ active))
  refine remaining_still (still.trans posted.symm) ?_
  rw [controller, running]
  omega

theorem Machine.remaining_lt (consistent : Consistent machine) (own : clientDecides action = false)
    (faultless : action ≠ .raiseError) (stepped : machine.step action = some after) :
    after.remaining < machine.remaining := by
  have active := consistent.active
  have busy : machine.worker.active = true → machine.postedWork = 0 := fun running =>
    postedWork_of_active (active.trans running)
  cases step_effect stepped with
  | lockIgnored calling _ _ | lockTaken calling _ _ | write calling =>
      refine remaining_still rfl ?_
      simp only [calling, Controller.remaining, Call.remaining]
      omega
  | complete calling acted => exact remaining_complete calling acted
  | workerLockIgnored here _ _ | workerLockTaken here _ _ | workerWrite here | callback here
  | callInternal here _ _ | skipInternal here _ | wrapperReturns here =>
      refine remaining_working consistent here rfl rfl (busy (by rw [here]; rfl)) ?_
      simp [Worker.remaining, Stage.remaining, Call.remaining]
  | workerComplete calling acted =>
      have running : machine.fWorkActive = true := by rw [active, calling]; rfl
      have kept := (finishAction_frame acted).2.2.trans running
      have controller := finishAction_controller acted
      refine remaining_working consistent calling rfl controller (postedWork_of_active kept) ?_
      simp [Worker.remaining, Call.remaining]
  | takeWork waiting _ available _ =>
      have posted : machine.postedWork = 10 := by
        simp [postedWork, untaken, available, active, waiting]
      rw [remaining, remaining, postedWork_of_active rfl, waiting, posted]
      simp only [Worker.remaining, Stage.remaining]
      omega
  | raiseError _ _ => exact absurd rfl faultless
  | finishWork finishing =>
      exact remaining_working consistent finishing rfl rfl rfl (by simp [Worker.remaining])
  | terminate here _ | readState here | deliver here =>
      refine remaining_still rfl ?_
      simp only [here, Worker.remaining]
      omega
  | _ => simp [clientDecides] at own

theorem pushed_length_le (stepped : machine.step action = some after) :
    (pushed machine after).length ≤ 1 := by
  cases Machine.step_effect stepped with
  | complete _ acted | workerComplete _ acted =>
      rcases Machine.finishAction_cases acted with
        ⟨_, rfl⟩ | ⟨_, _, rfl⟩ | ⟨_, _, _, _, rfl⟩ | ⟨_, rfl⟩ | ⟨_, rfl⟩
      all_goals simp [pushed]
  | _ => simp [pushed]

end FairMQ.StateMachine
