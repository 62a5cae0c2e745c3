import FairMQ.Data.Trace
import FairMQ.StateMachine.Transitions

namespace FairMQ.Plugins

open FairMQ.Data FairMQ.StateMachine

inductive DeviceStateTransition where
  | initDevice
  | initTask
  | run
  | pause
  | resume
  | stop
  | resetTask
  | resetDevice
  | endDevice
  | errorFound
deriving DecidableEq, Repr

def deviceStateTransitionMap : DeviceStateTransition → Event
  | .initDevice => .initDevice
  | .initTask => .initTask
  | .run => .run
  | .pause => .pause
  | .resume => .run
  | .stop => .stop
  | .resetTask => .resetTask
  | .resetDevice => .resetDevice
  | .endDevice => .endDevice
  | .errorFound => .errorFound

structure DeviceControlError where
  what : String
deriving DecidableEq, Repr

/-- A call of `FairMQDevice::ChangeState`: the plugin on whose behalf it is made,
and `fDeviceController` at that moment. -/
structure Forwarded where
  plugin : String
  fDeviceController : Option String
  event : Event
deriving DecidableEq, Repr

structure Services where
  fDeviceController : Option String
  forwarded : List Forwarded
deriving DecidableEq, Repr

namespace Services

def new : Services := ⟨none, []⟩

def control (controller : Option String) (services : Services) : Services :=
  { services with fDeviceController := controller }

def forward (plugin : String) (event : Event) (services : Services) : Services :=
  { services with
    forwarded := services.forwarded ++ [⟨plugin, services.fDeviceController, event⟩] }

end Services

abbrev Operation := EStateM DeviceControlError Services

namespace PluginServices

def changeDeviceState (controller : String) (next : DeviceStateTransition) : Operation Unit := do
  if (← get).fDeviceController = none then modify (Services.control (some controller))
  let holder := (← get).fDeviceController
  if holder = some controller then
    modify (Services.forward controller (deviceStateTransitionMap next))
  else
    throw ⟨"Plugin '" ++ controller ++ "' is not allowed to change device states. " ++
      "Currently, plugin '" ++ holder.getD "" ++ "' has taken control."⟩

def takeDeviceControl (controller : String) : Operation Unit := do
  let holder := (← get).fDeviceController
  if holder = none then modify (Services.control (some controller))
  else if holder = some controller then pure ()
  else
    throw ⟨"Plugin '" ++ controller ++ "' is not allowed to take over control. " ++
      "Currently, plugin '" ++ holder.getD "" ++ "' has taken control."⟩

def stealDeviceControl (controller : String) : Operation Unit :=
  modify (Services.control (some controller))

def releaseDeviceControl (controller : String) : Operation Unit := do
  if (← get).fDeviceController = some controller then modify (Services.control none)
  else
    throw ⟨"Plugin '" ++ controller ++
      "' cannot release control because it has not taken over control."⟩

end PluginServices

inductive ControlCall where
  | changeDeviceState (controller : String) (next : DeviceStateTransition)
  | takeDeviceControl (controller : String)
  | stealDeviceControl (controller : String)
  | releaseDeviceControl (controller : String)
deriving DecidableEq, Repr

def ControlCall.operation : ControlCall → Operation Unit
  | .changeDeviceState controller next => PluginServices.changeDeviceState controller next
  | .takeDeviceControl controller => PluginServices.takeDeviceControl controller
  | .stealDeviceControl controller => PluginServices.stealDeviceControl controller
  | .releaseDeviceControl controller => PluginServices.releaseDeviceControl controller

def Services.perform (services : Services) (call : ControlCall) :
    Option DeviceControlError × Services :=
  match call.operation.run services with
  | .ok _ after => (none, after)
  | .error error after => (some error, after)

def ControlCall.Denied (holder : Option String) : ControlCall → Prop
  | .changeDeviceState controller _ | .takeDeviceControl controller =>
      holder ≠ none ∧ holder ≠ some controller
  | .stealDeviceControl _ => False
  | .releaseDeviceControl controller => holder ≠ some controller

inductive Performed (services : Services) :
    ControlCall → Option DeviceControlError → Services → Prop where
  | changed {controller : String} {next : DeviceStateTransition}
      (free : services.fDeviceController = none ∨ services.fDeviceController = some controller) :
      Performed services (.changeDeviceState controller next) none
        ((services.control (some controller)).forward controller (deviceStateTransitionMap next))
  | taken {controller : String}
      (free : services.fDeviceController = none ∨ services.fDeviceController = some controller) :
      Performed services (.takeDeviceControl controller) none (services.control (some controller))
  | stolen {controller : String} :
      Performed services (.stealDeviceControl controller) none (services.control (some controller))
  | released {controller : String} (holds : services.fDeviceController = some controller) :
      Performed services (.releaseDeviceControl controller) none (services.control none)
  | refused {call : ControlCall} {error : DeviceControlError}
      (denied : call.Denied services.fDeviceController) :
      Performed services call (some error) services

theorem performed (services : Services) (call : ControlCall) :
    Performed services call (services.perform call).1 (services.perform call).2 := by
  obtain ⟨holder, forwarded⟩ := services
  cases call with
  | changeDeviceState controller next =>
      simp only [Services.perform, ControlCall.operation, PluginServices.changeDeviceState,
        EStateM.run_bind, EStateM.run_get]
      by_cases free : holder = none
      · subst free
        simp only [if_true, EStateM.run_bind, EStateM.run_modify, EStateM.run_get, Services.control]
        exact .changed (.inl rfl)
      · simp only [if_neg free, EStateM.run_bind, EStateM.run_get]
        by_cases own : holder = some controller
        · subst own
          simp only [if_true, EStateM.run_modify]
          exact .changed (.inr rfl)
        · simp only [if_neg own, EStateM.run_throw]
          exact .refused ⟨free, own⟩
  | takeDeviceControl controller =>
      simp only [Services.perform, ControlCall.operation, PluginServices.takeDeviceControl,
        EStateM.run_bind, EStateM.run_get]
      by_cases free : holder = none
      · subst free
        simp only [if_true, EStateM.run_modify]
        exact .taken (.inl rfl)
      · by_cases own : holder = some controller
        · subst own
          simp only [if_neg free, if_true, EStateM.run_pure]
          exact .taken (.inr rfl)
        · simp only [if_neg free, if_neg own, EStateM.run_throw]
          exact .refused ⟨free, own⟩
  | stealDeviceControl controller => exact .stolen
  | releaseDeviceControl controller =>
      simp only [Services.perform, ControlCall.operation, PluginServices.releaseDeviceControl,
        EStateM.run_bind, EStateM.run_get]
      by_cases own : holder = some controller
      · simp only [if_pos own, EStateM.run_modify]
        exact .released own
      · simp only [if_neg own, EStateM.run_throw]
        exact .refused own

abbrev ControlOccurrence := Occurrence Services ControlCall (Option DeviceControlError)

def sent (occurred : ControlOccurrence) : List Forwarded :=
  occurred.after.forwarded.drop occurred.before.forwarded.length

def Yields (occurred : ControlOccurrence) : Prop :=
  match occurred.call with
  | .stealDeviceControl _ => True
  | .releaseDeviceControl controller => occurred.before.fDeviceController = some controller
  | _ => False

section Occurrences

variable {calls : List ControlCall} {start : Services} {occurred : ControlOccurrence}

theorem performed_of_mem_trace (member : occurred ∈ trace Services.perform start calls) :
    Performed occurred.before occurred.call occurred.outcome occurred.after := by
  rw [occurrence_of_mem_trace member]
  exact performed occurred.before occurred.call

theorem sent_by_controller {forwarded : Forwarded}
    (done : Performed occurred.before occurred.call occurred.outcome occurred.after)
    (member : forwarded ∈ sent occurred) :
    ∃ next, occurred.call = .changeDeviceState forwarded.plugin next ∧
      forwarded.event = deviceStateTransitionMap next ∧
      forwarded.fDeviceController = some forwarded.plugin ∧
      (occurred.before.fDeviceController = none ∨
        occurred.before.fDeviceController = some forwarded.plugin) ∧
      occurred.after.fDeviceController = some forwarded.plugin := by
  obtain ⟨before, call, outcome, after⟩ := occurred
  dsimp only at done
  cases done with
  | @changed controller next free =>
      simp only [sent, Services.forward, Services.control, List.drop_left, List.mem_singleton]
        at member
      subst member
      exact ⟨next, rfl, rfl, rfl, free, rfl⟩
  | taken | stolen | released | refused => simp [sent, Services.control] at member

theorem holder_kept {holder : String}
    (done : Performed occurred.before occurred.call occurred.outcome occurred.after)
    (unyielding : ¬ Yields occurred)
    (holds : occurred.before.fDeviceController = some holder) :
    occurred.after.fDeviceController = some holder := by
  obtain ⟨before, call, outcome, after⟩ := occurred
  dsimp only at done
  cases done with
  | changed free | taken free =>
      dsimp only at free holds
      simp only [holds, reduceCtorEq, Option.some.injEq, false_or] at free
      rw [free]
      rfl
  | stolen => exact absurd trivial unyielding
  | released own => exact absurd own unyielding
  | refused => exact holds

end Occurrences

/-- For every interleaving of the plugins' calls: an event reaches the device only
on behalf of the device controller; control passes from one plugin that forwards
an event to another through a theft or the holder's release; and a call that
throws forwards nothing and leaves the controller alone. -/
theorem control_arbitrated (calls : List ControlCall) :
    (∀ occurred ∈ trace Services.perform .new calls, ∀ forwarded ∈ sent occurred,
      forwarded.fDeviceController = some forwarded.plugin ∧
      ∃ next, occurred.call = .changeDeviceState forwarded.plugin next ∧
        forwarded.event = deviceStateTransitionMap next) ∧
    (∀ front earlier between later rest,
      trace Services.perform .new calls = front ++ earlier :: (between ++ later :: rest) →
      ∀ first ∈ sent earlier, ∀ second ∈ sent later, first.plugin ≠ second.plugin →
        ∃ occurred ∈ between, Yields occurred) ∧
    (∀ occurred ∈ trace Services.perform .new calls, occurred.outcome ≠ none →
      occurred.after.fDeviceController = occurred.before.fDeviceController ∧
      sent occurred = []) := by
  refine ⟨?_, ?_, ?_⟩
  · intro occurred member forwarded isSent
    obtain ⟨next, call, event, controller, _⟩ :=
      sent_by_controller (performed_of_mem_trace member) isSent
    exact ⟨controller, next, call, event⟩
  · intro front earlier between later rest split first isFirst second isSecond different
    have done : ∀ occurred ∈ earlier :: (between ++ later :: rest),
        Performed occurred.before occurred.call occurred.outcome occurred.after := by
      intro occurred member
      have traced : occurred ∈ trace Services.perform .new calls :=
        split ▸ List.mem_append_right front member
      exact performed_of_mem_trace traced
    have linked : (front ++ earlier :: (between ++ later :: rest)).IsChain fun earlier later =>
        later.before = earlier.after := split ▸ trace_linked Services.new calls
    have linked := (List.isChain_append.mp linked).2.1
    obtain ⟨_, _, _, _, _, afterFirst⟩ := sent_by_controller (done earlier (by simp)) isFirst
    obtain ⟨_, _, _, _, beforeSecond, _⟩ := sent_by_controller (done later (by simp)) isSecond
    by_contra none
    -- nobody gives control up in between, so the second plugin finds the first in charge
    have stillFirst : later.before.fDeviceController = some first.plugin := by
      refine kept_between (fun services => services.fDeviceController = some first.plugin)
        linked afterFirst ?_
      intro occurred member holds
      exact holder_kept (done occurred (by simp [member]))
        (fun yields => none ⟨occurred, member, yields⟩) holds
    simp only [stillFirst, reduceCtorEq, Option.some.injEq, false_or] at beforeSecond
    exact different beforeSecond
  · intro occurred member thrown
    have done := performed_of_mem_trace member
    obtain ⟨before, call, outcome, after⟩ := occurred
    dsimp only at done
    cases done with
    | changed | taken | stolen | released => exact absurd rfl thrown
    | refused => exact ⟨rfl, by simp [sent]⟩

end FairMQ.Plugins
