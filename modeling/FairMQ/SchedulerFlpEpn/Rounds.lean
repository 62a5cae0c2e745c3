import FairMQ.SchedulerFlpEpn.Facility
import FairMQ.SchedulerFlpEpn.Selection

namespace FairMQ.SchedulerFlpEpn

open FairMQ.Data

section Frames

variable {facility : Facility} {c : Nat} {node : EpnNode}

theorem Scheduler.record_numEPNS {scheduler recorded : Scheduler} {key epnId myMem : Nat}
    (done : scheduler.record key epnId myMem = .updated recorded) :
    recorded.numEPNS = scheduler.numEPNS := by
  simp only [Scheduler.record, Scheduler.overwrite] at done
  repeat' split at done
  all_goals
    cases done
    try rfl

theorem Scheduler.update_numEPNS {scheduler after : Scheduler} {key epnId myMem : Nat}
    (done : scheduler.update key epnId myMem = .updated after) :
    after.numEPNS = scheduler.numEPNS := by
  simp only [Scheduler.update] at done
  split at done
  · rename_i recorded recordedOk
    split at done
    · rename_i trimmed trimmedOk
      have same := UpdateResult.updated.inj done
      have written : after.numEPNS = trimmed.numEPNS := by
        rw [← same]
        exact (writeOut_frame trimmed key).2.1
      exact written.trans ((trim_trimmed trimmedOk).numEPNS.trans
        (Scheduler.record_numEPNS recordedOk))
    · contradiction
  · rename_i other
    exact absurd done (other after)

theorem EpnNode.receive_frame {numFLPS i : Nat} {message : FLPtoEPN} {after : EpnNode}
    (counted : node.receive numFLPS i message = some after) :
    after.reporting.sent = node.reporting.sent ∧ after.wake = node.wake := by
  simp only [EpnNode.receive] at counted
  split at counted
  · split at counted
    · cases counted
      exact ⟨rfl, rfl⟩
    · split at counted
      · obtain ⟨reporting, moved, rfl⟩ := Option.map_eq_some_iff.mp counted
        obtain ⟨slots, _, rfl⟩ := Option.map_eq_some_iff.mp moved
        exact ⟨rfl, rfl⟩
      · cases counted
        exact ⟨rfl, rfl⟩
  · contradiction

theorem Reporting.slot_sent {reporting after : Reporting} {action : SlotAction}
    (stepped : reporting.step (.slot action) = some after) : after.sent = reporting.sent := by
  obtain ⟨slots, _, rfl⟩ := Option.map_eq_some_iff.mp stepped
  rfl

end Frames

def Facility.taken (facility : Facility) (c : Nat) : Nat :=
  facility.schedules.length + if c ≤ facility.i then 1 else 0

structure InRound (times : InitTimes) (facility : Facility) : Prop where
  place : facility.i ≤ facility.numEPNS
  awaits : facility.awaiting = true → facility.i < facility.numEPNS
  between : facility.dispatch.main ≠ .collecting → facility.i = 0
  queue : ∀ c, 1 ≤ c → c ≤ facility.numEPNS →
    facility.taken c ≤ (facility.epn c).reports.length ∧
      facility.reports c =
        ((facility.epn c).reports.drop (facility.taken c)).map (EPNtoScheduler.mk (toInt32 c))
  paced : ∀ c, (times.epn c).wake + 1000 * (facility.epn c).reports.length ≤
      (facility.epn c).wake + 1000 * (times.epn c).early ∧
    (facility.epn c).wake ≤ max (times.epn c).wake (facility.now + 1000)

theorem InRound.start (conf : FacilityConf) (times : InitTimes) :
    InRound times (.start conf times) where
  place := Nat.zero_le _
  awaits := by simp [Facility.start]
  between := fun _ => rfl
  queue := by
    intro c first _
    have notYet : ¬ c ≤ 0 := by omega
    simp [Facility.start, Facility.taken, EpnNode.start, EpnNode.reports, notYet]
  paced := by
    intro c
    simp [Facility.start, EpnNode.start, EpnNode.reports]

section InRound

variable {facility : Facility} {times : InitTimes}

theorem InRound.moveEpn {c : Nat} {node : EpnNode} {channel : Nat × Nat → List FLPtoEPN}
    (inRound : InRound times facility)
    (silent : node.reporting.sent = (facility.epn c).reporting.sent ∧
      node.wake = (facility.epn c).wake) :
    InRound times { facility with epn := Function.update facility.epn c node, channel } := by
  have same : ∀ d, (Function.update facility.epn c node d).reports = (facility.epn d).reports ∧
      (Function.update facility.epn c node d).wake = (facility.epn d).wake := by
    intro d
    by_cases own : d = c
    · subst own
      simpa [EpnNode.reports] using silent
    · simp [own]
  refine { inRound with queue := ?_, paced := ?_ }
  · intro d first last
    rw [(same d).1]
    exact inRound.queue d first last
  · intro d
    rw [(same d).1, (same d).2]
    exact inRound.paced d

theorem InRound.report {c : Nat} {reporting : Reporting} (inRound : InRound times facility)
    (awake : (facility.epn c).wake ≤ facility.now)
    (read : (facility.epn c).reporting.step .report = some reporting) :
    InRound times (facility.reported c reporting) := by
  cases read
  refine { inRound with queue := ?_, paced := ?_ }
  · intro d first last
    obtain ⟨taken, queued⟩ := inRound.queue d first last
    by_cases same : d = c
    · subst same
      simp only [Facility.reported, Function.update_self]
      rw [queued]
      constructor
      · simp only [EpnNode.reports, List.reverse_cons, List.length_append] at taken ⊢
        exact Nat.le_add_right_of_le taken
      · simp only [EpnNode.reports, List.reverse_cons] at taken ⊢
        change _ = List.map _ (List.drop (facility.taken d) _)
        rw [List.drop_append_of_le_length taken, List.map_append]
        rfl
    · simp only [Facility.reported, Function.update_of_ne same]
      exact ⟨taken, queued⟩
  · intro d
    by_cases same : d = c
    · subst same
      have paced := (inRound.paced d).1
      simp only [Facility.reported, EpnNode.reports, Function.update_self, List.reverse_cons,
        List.length_append, List.length_singleton] at paced ⊢
      omega
    · simp only [Facility.reported, Function.update_of_ne same]
      exact inRound.paced d

theorem InRound.next {message : EPNtoScheduler} {rest : List EPNtoScheduler}
    (inRound : InRound times facility) (inside : facility.i < facility.numEPNS)
    (queued : facility.reports (facility.i + 1) = message :: rest) :
    message.Id = toInt32 (facility.i + 1) ∧
      (facility.epn (facility.i + 1)).reports[facility.schedules.length]? =
        some message.freeSlots ∧
      rest = ((facility.epn (facility.i + 1)).reports.drop (facility.schedules.length + 1)).map
        (EPNtoScheduler.mk (toInt32 (facility.i + 1))) := by
  obtain ⟨_, waiting⟩ := inRound.queue (facility.i + 1) (by omega) (by omega)
  have notYet : ¬ facility.i + 1 ≤ facility.i := by omega
  rw [queued, Facility.taken, if_neg notYet] at waiting
  change _ = List.map _ (List.drop facility.schedules.length _) at waiting
  obtain ⟨value, others, split, isMessage, isRest⟩ := List.map_eq_cons_iff.mp waiting.symm
  refine ⟨by rw [← isMessage], ?_, ?_⟩
  · have found := congrArg (·[0]?) split
    simpa [← isMessage] using found
  · rw [← isRest, ← List.drop_drop, split]
    rfl

theorem InRound.collect {message : EPNtoScheduler} {rest : List EPNtoScheduler}
    {scheduler : Scheduler} (inRound : InRound times facility) (awaiting : facility.awaiting = true)
    (main : facility.dispatch.main = .collecting)
    (queued : facility.reports (facility.i + 1) = message :: rest)
    (same : scheduler.numEPNS = facility.numEPNS) :
    InRound times (facility.collected message rest { facility.dispatch with scheduler }) := by
  have inside := inRound.awaits awaiting
  obtain ⟨_, found, isRest⟩ := inRound.next inside queued
  refine ⟨?_, nofun, fun elsewhere => absurd main elsewhere, ?_, inRound.paced⟩
  · change facility.i + 1 ≤ scheduler.numEPNS
    omega
  · intro c first last
    change c ≤ scheduler.numEPNS at last
    rw [same] at last
    obtain ⟨taken, waiting⟩ := inRound.queue c first last
    simp only [Facility.taken, Facility.collected] at taken waiting ⊢
    by_cases own : c = facility.i + 1
    · subst own
      have bound := (List.getElem?_eq_some_iff.mp found).1
      simp only [Function.update_self, Nat.le_refl, if_true]
      exact ⟨bound, isRest⟩
    · have place : c ≤ facility.i + 1 ↔ c ≤ facility.i := by omega
      simp only [Function.update_of_ne own, place]
      exact ⟨taken, waiting⟩

theorem InRound.schedule {schedule : List Nat} (inRound : InRound times facility)
    (complete : facility.i = facility.numEPNS) :
    InRound times (facility.scheduled (facility.dispatch.assigned schedule)) := by
  refine ⟨Nat.zero_le _, ?_, fun _ => rfl, ?_, inRound.paced⟩
  · intro awaiting
    have inside := inRound.awaits awaiting
    omega
  · intro c first last
    have before : c ≤ facility.i := complete ▸ last
    have after : ¬ c ≤ (facility.scheduled (facility.dispatch.assigned schedule)).i :=
      Nat.not_le.mpr first
    have same : (facility.scheduled (facility.dispatch.assigned schedule)).taken c =
        facility.taken c := by
      rw [Facility.taken, if_neg after, Facility.taken, if_pos before]
      exact List.length_append
    rw [same]
    exact inRound.queue c first last

theorem InRound.step {after : Facility} {action : FacilityAction}
    (inRound : InRound times facility) (effect : FacilityEffect facility action after) :
    InRound times after := by
  cases effect with
  | tick =>
      refine { inRound with paced := fun c => ⟨(inRound.paced c).1, ?_⟩ }
      refine (inRound.paced c).2.trans (max_le_max_left _ ?_)
      exact Nat.add_le_add_right (Nat.le_add_right _ _) _
  | report _ _ awake read => exact inRound.report awake read
  | check _ inside => exact { inRound with awaits := fun _ => inside }
  | collect awaiting main queued updated =>
      exact inRound.collect awaiting main queued (Scheduler.update_numEPNS updated)
  | schedule complete _ _ => exact inRound.schedule complete
  | startThread main =>
      exact { inRound with between := fun _ => inRound.between (by simp [main]) }
  | clear main => exact { inRound with between := by simp }
  | receiveFrame _ _ counted => exact inRound.moveEpn (EpnNode.receive_frame counted)
  | slot stepped => exact inRound.moveEpn ⟨Reporting.slot_sent stepped, rfl⟩
  | expire _ _ | leave _ _ | sendSchedule _ _ | receiveSchedule _ _ _ | sendFrame _ _ _ _ =>
      exact { inRound with }

end InRound

theorem inRound_of_reaches {conf : FacilityConf} {times : InitTimes}
    {allowed : Facility → FacilityAction → Prop} {facility : Facility}
    (reached : (facilitySystem conf times).ReachesUnder allowed facility) :
    InRound times facility := by
  refine reached.invariant ?_ ?_
  · rintro _ rfl
    exact .start conf times
  · intro before action after inRound _ stepped
    exact inRound.step (Facility.step_effect stepped)

theorem conf_of_reaches {conf : FacilityConf} {times : InitTimes}
    {allowed : Facility → FacilityAction → Prop} {facility : Facility}
    (reached : (facilitySystem conf times).ReachesUnder allowed facility) :
    facility.numEPNS = conf.numEPNS ∧ facility.dispatch.numFLPS = conf.numFLPS ∧
      facility.dispatch.amountEPNs = conf.amountEPNs := by
  induction reached with
  | initial start =>
      cases start
      exact ⟨rfl, rfl, rfl⟩
  | step _ _ stepped same =>
      cases Facility.step_effect stepped with
      | collect _ _ _ updated =>
          have numEPNS := Scheduler.update_numEPNS updated
          exact ⟨numEPNS.trans same.1, same.2⟩
      | _ => exact same

structure Supplied (dispatch : Dispatch) (flp : Nat → Flp) (schedules : List (List Nat)) :
    Prop where
  threads : dispatch.threads.length + (if dispatch.main = .assigned then 1 else 0) =
    schedules.length
  passed : ∀ f < dispatch.numFLPS,
    (dispatch.sent f).length = dispatch.threads.countP (f < ·)
  received : ∀ f, (flp f).schedules = (dispatch.received f).length
  position : ∀ f, (flp f).sTF + dispatch.amountEPNs =
    (flp f).schedules * dispatch.amountEPNs + (flp f).i ∧ (flp f).i ≤ dispatch.amountEPNs

section Supplied

variable {dispatch : Dispatch} {flp : Nat → Flp} {schedules : List (List Nat)} {f : Nat}

theorem Supplied.post {thread p : Nat} (supplied : Supplied dispatch flp schedules)
    (running : dispatch.threads[thread]? = some p) :
    Supplied (dispatch.posted thread p) flp schedules := by
  refine { supplied with threads := ?_, passed := ?_ }
  · change (dispatch.threads.set thread (p + 1)).length + _ = _
    rw [List.length_set]
    exact supplied.threads
  · intro f inside
    have passed := supplied.passed f inside
    simp only [Dispatch.sent, Dispatch.posted] at passed ⊢
    rw [countP_advance running]
    by_cases same : f = p
    · subst same
      simp only [Function.update_self, if_true, List.length_append, List.length_singleton]
        at passed ⊢
      omega
    · simp only [Function.update_of_ne same, if_neg same]
      exact passed

theorem Supplied.accept {message : List Nat} {rest : List (List Nat)}
    (supplied : Supplied dispatch flp schedules) (waiting : (flp f).i = dispatch.amountEPNs)
    (queued : dispatch.channel f = message :: rest) :
    Supplied (dispatch.delivered f message rest)
      (Function.update flp f ((flp f).accept dispatch.amountEPNs message)) schedules := by
  refine { supplied with passed := ?_, received := ?_, position := ?_ }
  · intro g inside
    exact (congrArg List.length (sent_receive queued g)).trans (supplied.passed g inside)
  · intro g
    have received := supplied.received g
    by_cases same : g = f
    · subst same
      simpa [Flp.accept, Dispatch.delivered] using received
    · simpa [same, Dispatch.delivered] using received
  · intro g
    have position := supplied.position g
    by_cases same : g = f
    · subst same
      rw [waiting] at position
      simp only [Function.update_self, Flp.accept, Dispatch.delivered]
      refine ⟨?_, Nat.zero_le _⟩
      rw [Nat.add_mul]
      omega
    · rw [Function.update_of_ne same]
      exact position

theorem Supplied.next (supplied : Supplied dispatch flp schedules)
    (sending : (flp f).i < dispatch.amountEPNs) :
    Supplied dispatch (Function.update flp f (flp f).next) schedules := by
  refine { supplied with received := ?_, position := ?_ }
  · intro g
    have received := supplied.received g
    by_cases same : g = f
    · subst same
      simpa [Flp.next] using received
    · simpa [same] using received
  · intro g
    have position := supplied.position g
    by_cases same : g = f
    · subst same
      simp only [Function.update_self, Flp.next]
      omega
    · simpa only [Function.update_of_ne same] using position

theorem Supplied.sTF_le (supplied : Supplied dispatch flp schedules) (inside : f < dispatch.numFLPS) :
    (flp f).sTF ≤ schedules.length * dispatch.amountEPNs := by
  obtain ⟨position, below⟩ := supplied.position f
  have passed := supplied.passed f inside
  have threads := supplied.threads
  have atMost : dispatch.threads.countP (f < ·) ≤ dispatch.threads.length := List.countP_le_length
  have received : (flp f).schedules ≤ schedules.length := by
    rw [supplied.received f]
    rw [Dispatch.sent, List.length_append] at passed
    omega
  have product := Nat.mul_le_mul_right dispatch.amountEPNs received
  omega

end Supplied

theorem supplied_of_reaches {conf : FacilityConf} {times : InitTimes}
    {allowed : Facility → FacilityAction → Prop} {facility : Facility}
    (reached : (facilitySystem conf times).ReachesUnder allowed facility) :
    Supplied facility.dispatch facility.flp facility.schedules := by
  induction reached with
  | initial start =>
      cases start
      exact ⟨rfl, fun _ _ => rfl, fun _ => rfl, by simp [Facility.start, Dispatch.start]⟩
  | step _ _ stepped supplied =>
      have threads := supplied.threads
      cases Facility.step_effect stepped with
      | schedule _ main _ =>
          exact { supplied with
            threads := by simpa [main, Facility.scheduled, Dispatch.assigned] using threads }
      | startThread main =>
          exact { supplied with
            threads := by simpa [main, Dispatch.started] using threads
            passed := fun f inside => by
              simpa [Dispatch.sent, Dispatch.started] using supplied.passed f inside }
      | clear main => exact { supplied with threads := by simpa [main] using threads }
      | sendSchedule running _ => exact supplied.post running
      | receiveSchedule _ waiting queued => exact supplied.accept waiting queued
      | sendFrame _ sending _ _ => exact supplied.next sending
      | _ => exact { supplied with }

/-- However the devices interleave, the scheduler has generated no more schedules than
any EPN has sent reports, so none any more once an EPN has fallen silent.  After those from before
the scheduler's start, an EPN sends its reports at least a second apart; they may wait, so
this bounds the schedules on average only.  The counter of an FLP has passed no more than these
schedules. -/
theorem facility_waits_for_every_epn {conf : FacilityConf} {times : InitTimes}
    {facility : Facility} (reached : (facilitySystem conf times).Reaches facility) {c : Nat}
    (first : 1 ≤ c) (last : c ≤ conf.numEPNS) :
    facility.schedules.length ≤ (facility.epn c).reports.length ∧
      (times.epn c).wake + 1000 * (facility.epn c).reports.length ≤
        max (times.epn c).wake (facility.now + 1000) + 1000 * (times.epn c).early ∧
      ∀ f < conf.numFLPS,
        (facility.flp f).sTF ≤ facility.schedules.length * conf.amountEPNs := by
  have inRound := inRound_of_reaches reached
  have supplied := supplied_of_reaches reached
  obtain ⟨numEPNS, numFLPS, amountEPNs⟩ := conf_of_reaches reached
  have taken := (inRound.queue c first (by omega)).1
  obtain ⟨lower, upper⟩ := inRound.paced c
  refine ⟨Nat.le_trans (Nat.le_add_right _ _) taken, by omega, ?_⟩
  intro f inside
  rw [← amountEPNs]
  exact supplied.sTF_le (numFLPS ▸ inside)

def smallConf : FacilityConf := ⟨2, 1, 1, 1⟩

def smallTimes : InitTimes := ⟨10000, 10000, 10000, 10000, fun _ => ⟨0, 10000⟩⟩

def firstRound : List FacilityAction :=
  [.report 1, .report 2, .tick 1000, .check, .collect, .check, .collect, .endRound, .startThread,
    .sendSchedule 0, .clear]

theorem first_round_waits : ∃ facility, (facilitySystem smallConf smallTimes).Reaches facility ∧
    facility.schedules = [[1]] ∧ facility.schedules.length ≤ (facility.epn 2).reports.length := by
  obtain ⟨facility, reached, schedules⟩ : ∃ facility,
      (facilitySystem smallConf smallTimes).Reaches facility ∧ facility.schedules = [[1]] :=
    TransitionSystem.reaches_of_runUnder (Facility.start smallConf smallTimes) firstRound rfl
      (by decide)
  exact ⟨facility, reached, schedules,
    (facility_waits_for_every_epn reached (by decide) (by decide)).1⟩

theorem histKey_mono {earlier later : Nat} (le : earlier ≤ later) :
    histKey earlier ≤ histKey later :=
  Nat.mul_le_mul_right _ (Nat.div_le_div_right le)

theorem intervalPassed_of_late {localkey keyForGeneratingArray : Nat}
    (late : 2 ^ 34 ≤ keyForGeneratingArray) (later : keyForGeneratingArray ≤ localkey) :
    intervalPassed localkey keyForGeneratingArray = true := by
  have some : keyForGeneratingArray ≠ 0 := by omega
  have log : 34 ≤ keyForGeneratingArray.log2 := (Nat.le_log2 some).mpr late
  have coarse : 2 ^ 11 ≤ spacing 24 keyForGeneratingArray :=
    Nat.pow_le_pow_right (by decide) (by omega)
  have lost : toFloat (toFloat keyForGeneratingArray + 500) = toFloat keyForGeneratingArray :=
    rounded_add_small (by decide) some (by omega)
  have passed := rounded_mono (show 0 < 24 by decide) later
  simp only [intervalPassed, lost, decide_eq_true_eq]
  exact passed

theorem generating_of_reaches {conf : FacilityConf} {times : InitTimes}
    {allowed : Facility → FacilityAction → Prop} {facility : Facility}
    (ordered : times.generating ≤ times.now)
    (reached : (facilitySystem conf times).ReachesUnder allowed facility) :
    histKey times.generating ≤ facility.keyForGeneratingArray ∧
      facility.keyForGeneratingArray ≤ facility.key := by
  induction reached with
  | initial start =>
      cases start
      exact ⟨le_rfl, histKey_mono ordered⟩
  | step _ _ stepped ih =>
      obtain ⟨lower, upper⟩ := ih
      cases Facility.step_effect stepped with
      | tick => exact ⟨lower, upper.trans (histKey_mono (Nat.le_add_right _ _))⟩
      | schedule _ _ _ => exact ⟨lower.trans upper, le_rfl⟩
      | _ => exact ⟨lower, upper⟩

def todaysTimes : InitTimes :=
  ⟨1500000000000, 1500000000000, 1500000000000, 1500000000000, fun _ => ⟨0, 1500000000000⟩⟩

/-- Two rounds in one second: with a clock that has just started the scheduler leaves. -/
def hastyRounds : List FacilityAction :=
  [.report 1, .report 2, .tick 1000, .report 1, .report 2, .check, .collect, .check, .collect,
    .endRound, .startThread, .sendSchedule 0, .clear, .check, .collect, .check, .collect,
    .endRound]

example : ((facilitySystem smallConf smallTimes).run (.start smallConf smallTimes)
    hastyRounds).any (fun facility => facility.terminated) = true := by decide +kernel

example : ((facilitySystem smallConf todaysTimes).run (.start smallConf todaysTimes)
    hastyRounds).any (fun facility => !facility.terminated && facility.schedules.length = 2) =
      true := by decide +kernel

end FairMQ.SchedulerFlpEpn
