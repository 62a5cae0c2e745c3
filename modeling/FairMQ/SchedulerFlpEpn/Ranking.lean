import FairMQ.SchedulerFlpEpn.Rounds

namespace FairMQ.SchedulerFlpEpn

open FairMQ.Data

/-- No EPN reports while it rejects a time frame, no update has more than one row to
trim, and a round takes at most five seconds. -/
def Regular (facility : Facility) : FacilityAction → Prop
  | .report c => (facility.epn c).reporting.overdrawn = false
  | .collect =>
      (facility.dispatch.scheduler.due facility.key).length ≤ 1 ∧ facility.now < 2 ^ 63 ∧
        (facility.i = 0 ∨ facility.key ≤ facility.roundKey + 5000)
  | _ => True

instance (facility : Facility) (action : FacilityAction) : Decidable (Regular facility action) := by
  cases action <;> unfold Regular <;> infer_instance

structure Answered (numEPNS : Nat) (epn : Nat → EpnNode) (n : Nat) (values : List Nat) :
    Prop where
  length : values.length = numEPNS
  reports : ∀ c, 1 ≤ c → c ≤ numEPNS → (epn c).reports[n]? = values[c - 1]?

structure Ranked (facility : Facility) : Prop where
  started : 5000 < facility.key
  clock : ∀ key ∈ facility.dispatch.scheduler.history.keys, key ≤ facility.key
  bounded : ∀ c, Bounded 4 (facility.epn c).reporting.slots (facility.epn c).reporting.overdrawn
  small : ∀ c, ∀ value ∈ (facility.epn c).reports, value ≤ 4
  view : ∃ latest row, Exact ⟨facility.dispatch.scheduler, facility.log⟩ latest row ∧
    (0 < facility.i → latest ≤ facility.roundKey + 5000)
  round : 0 < facility.i → facility.roundKey ≤ facility.key
  heard : ∀ c, 1 ≤ c → c ≤ facility.i → ∃ report, mostRecent facility.log c = some report ∧
    facility.roundKey ≤ report.key ∧
    (facility.epn c).reports[facility.schedules.length]? = some report.myMem
  ranked : ∀ n schedule, facility.schedules[n]? = some schedule → ∃ values,
    Answered facility.numEPNS facility.epn n values ∧
      pushMaxima facility.dispatch.amountEPNs (values.map Nat.cast) = some schedule

theorem Ranked.start {conf : FacilityConf} {times : InitTimes} (started : 5000 < histKey times.now) :
    Ranked (.start conf times) where
  started := started
  clock := by
    intro key member
    change key ∈ [histKey times.now] at member
    rw [List.mem_singleton.mp member]
    exact le_rfl
  bounded := by
    intro c
    refine ⟨?_, ?_, ?_, ?_, ?_⟩ <;>
      simp [Accounted, Facility.start, EpnNode.start, Reporting.start, Slots.start]
  small := by
    intro c value member
    simp only [Facility.start, EpnNode.start, EpnNode.reports, List.reverse_replicate,
      List.mem_replicate] at member
    exact Nat.le_of_eq member.2
  view := by
    have initial : loggedSystem.initial
        ⟨(Facility.start conf times).dispatch.scheduler, (Facility.start conf times).log⟩ :=
      ⟨⟨conf.numEPNS, _, _, rfl⟩, rfl⟩
    obtain ⟨latest, row, exact⟩ := Exact.initial initial
    exact ⟨latest, row, exact, fun begun => absurd begun (Nat.lt_irrefl 0)⟩
  round := fun begun => absurd begun (Nat.lt_irrefl 0)
  heard := by
    intro c first last
    have none : c ≤ 0 := last
    omega
  ranked := by
    intro n schedule found
    simp [Facility.start] at found

section Steps

variable {facility : Facility}

theorem getElem?_of_prefix {earlier later : List Nat} {n value : Nat} (grown : earlier <+: later)
    (found : earlier[n]? = some value) : later[n]? = some value := by
  obtain ⟨inside, rfl⟩ := List.getElem?_eq_some_iff.mp found
  exact List.prefix_iff_getElem?.mp grown n inside

theorem Answered.grow {numEPNS : Nat} {epn later : Nat → EpnNode} {n : Nat} {values : List Nat}
    (answered : Answered numEPNS epn n values)
    (grown : ∀ c, (epn c).reports <+: (later c).reports) : Answered numEPNS later n values := by
  refine { answered with reports := ?_ }
  intro c first last
  have found := answered.reports c first last
  have inside : c - 1 < values.length := by
    rw [answered.length]
    omega
  rw [List.getElem?_eq_getElem inside] at found ⊢
  exact getElem?_of_prefix (grown c) found

theorem Ranked.tick (ranked : Ranked facility) (milliseconds : Nat) :
    Ranked { facility with now := facility.now + milliseconds } := by
  have keys : facility.key ≤ histKey (facility.now + milliseconds) :=
    histKey_mono (Nat.le_add_right _ _)
  exact { ranked with
    started := ranked.started.trans_le keys
    clock := fun key member => (ranked.clock key member).trans keys
    round := fun begun => (ranked.round begun).trans keys }

theorem Ranked.moveEpns {epn : Nat → EpnNode} {reports : Nat → List EPNtoScheduler}
    {channel : Nat × Nat → List FLPtoEPN} (ranked : Ranked facility)
    (bounded : ∀ c, Bounded 4 (epn c).reporting.slots (epn c).reporting.overdrawn)
    (small : ∀ c, ∀ value ∈ (epn c).reports, value ≤ 4)
    (grown : ∀ c, (facility.epn c).reports <+: (epn c).reports) :
    Ranked { facility with epn, reports, channel } := by
  refine { ranked with bounded, small, heard := ?_, ranked := ?_ }
  · intro c first last
    obtain ⟨report, recent, inRound, found⟩ := ranked.heard c first last
    exact ⟨report, recent, inRound, getElem?_of_prefix (grown c) found⟩
  · intro n schedule found
    obtain ⟨values, answered, pushed⟩ := ranked.ranked n schedule found
    exact ⟨values, answered.grow grown, pushed⟩

theorem EpnNode.receive_bounded {node after : EpnNode} {numFLPS i : Nat} {message : FLPtoEPN}
    (bounded : Bounded 4 node.reporting.slots node.reporting.overdrawn)
    (counted : node.receive numFLPS i message = some after) :
    Bounded 4 after.reporting.slots after.reporting.overdrawn := by
  simp only [EpnNode.receive] at counted
  split at counted
  · split at counted
    · cases counted
      exact bounded
    · split at counted
      · obtain ⟨reporting, moved, rfl⟩ := Option.map_eq_some_iff.mp counted
        obtain ⟨slots, done, rfl⟩ := Option.map_eq_some_iff.mp moved
        exact bounded.step done
      · cases counted
        exact bounded
  · contradiction

theorem Ranked.moveEpn {c : Nat} {node : EpnNode} {channel : Nat × Nat → List FLPtoEPN}
    (ranked : Ranked facility) (bounded : Bounded 4 node.reporting.slots node.reporting.overdrawn)
    (silent : node.reporting.sent = (facility.epn c).reporting.sent) :
    Ranked { facility with epn := Function.update facility.epn c node, channel } := by
  have same : ∀ d, (Function.update facility.epn c node d).reports = (facility.epn d).reports := by
    intro d
    by_cases own : d = c
    · subst own
      rw [Function.update_self, EpnNode.reports, silent, EpnNode.reports]
    · rw [Function.update_of_ne own]
  refine ranked.moveEpns ?_ ?_ ?_
  · intro d
    by_cases own : d = c
    · subst own
      simpa using bounded
    · simpa [own] using ranked.bounded d
  · intro d
    rw [same]
    exact ranked.small d
  · intro d
    rw [same]

theorem Ranked.report {c : Nat} {reporting : Reporting} (ranked : Ranked facility)
    (settled : (facility.epn c).reporting.overdrawn = false)
    (read : (facility.epn c).reporting.step .report = some reporting) :
    Ranked (facility.reported c reporting) := by
  have bounded := ranked.bounded c
  have fits := (bounded.reported_iff (by decide)).mpr settled
  cases read
  refine ranked.moveEpns ?_ ?_ ?_
  · intro d
    by_cases own : d = c
    · subst own
      simpa using bounded
    · simpa [own] using ranked.bounded d
  · intro d value member
    by_cases own : d = c
    · subst own
      simp only [Function.update_self, EpnNode.reports, List.reverse_cons, List.mem_append,
        List.mem_singleton] at member
      rcases member with old | rfl
      · exact ranked.small d value old
      · exact fits
    · simp only [Function.update_of_ne own] at member
      exact ranked.small d value member
  · intro d
    by_cases own : d = c
    · subst own
      simp only [Function.update_self, EpnNode.reports, List.reverse_cons]
      exact List.prefix_append _ _
    · simp only [Function.update_of_ne own]
      exact List.prefix_refl _

theorem update_last {scheduler after : Scheduler} {report : Report}
    (wellFormed : WellFormed scheduler) (orderly : Orderly scheduler report)
    (done : scheduler.update report.key report.epnId report.myMem = .updated after) :
    (∃ row, after.history.last? = some (report.key, row)) ∧
      ∀ key ∈ after.history.keys, key ≤ report.key := by
  obtain ⟨recorded, trimmed, record, trim, isAfter⟩ := update_parts wellFormed orderly done
  obtain ⟨history, _, _⟩ := writeOut_frame trimmed report.key
  rw [← isAfter] at history
  obtain ⟨_, _, row, _, _, last⟩ := record.last
  refine ⟨⟨_, by rw [history, trim.last, last]⟩, ?_⟩
  intro key member
  rw [history] at member
  exact record.largest orderly.2.2.1 key (trim.fewer key member)

theorem toUint64_toInt32 {number : Nat} (small : number < 2 ^ 31) :
    toUint64 (toInt32 number) = number := by
  rw [toInt32_of_lt small]
  unfold toUint64
  omega

theorem Ranked.timely {times : InitTimes} {message : EPNtoScheduler} {rest : List EPNtoScheduler}
    (ranked : Ranked facility) (inRound : InRound times facility)
    (few : facility.numEPNS < 2 ^ 31) (inside : facility.i < facility.numEPNS)
    (queued : facility.reports (facility.i + 1) = message :: rest)
    (regular : Regular facility .collect) :
    toUint64 message.Id = facility.i + 1 ∧
      Timely ⟨facility.dispatch.scheduler, facility.log⟩ (facility.asReport message) := by
  obtain ⟨isId, found, _⟩ := inRound.next inside queued
  have isNext : toUint64 message.Id = facility.i + 1 := by
    rw [isId]
    exact toUint64_toInt32 (by omega)
  have small := ranked.small _ _ (List.mem_of_getElem? found)
  obtain ⟨due, clock, _⟩ := regular
  have key : facility.key ≤ facility.now := Nat.div_mul_le_self _ _
  simp only [Facility.asReport]
  rw [isNext]
  refine ⟨rfl, ⟨⟨by simp, inside⟩, ?_, ranked.clock, ?_⟩, ranked.started, ?_, due⟩
  · simp only
    omega
  · simp only
    omega
  · simp only
    omega

theorem Ranked.collect {times : InitTimes} {message : EPNtoScheduler} {rest : List EPNtoScheduler}
    {scheduler : Scheduler} (ranked : Ranked facility) (inRound : InRound times facility)
    (few : facility.numEPNS < 2 ^ 31) (awaiting : facility.awaiting = true)
    (queued : facility.reports (facility.i + 1) = message :: rest)
    (updated : facility.dispatch.scheduler.update facility.key (toUint64 message.Id)
      message.freeSlots = .updated scheduler)
    (regular : Regular facility .collect) :
    Ranked (facility.collected message rest { facility.dispatch with scheduler }) := by
  have inside := inRound.awaits awaiting
  obtain ⟨_, found, _⟩ := inRound.next inside queued
  obtain ⟨isNext, timely⟩ := ranked.timely inRound few inside queued regular
  obtain ⟨_, _, punctual⟩ := regular
  obtain ⟨latest, row, exact, _⟩ := ranked.view
  obtain ⟨⟨row', last⟩, keys⟩ := update_last exact.wellFormed timely.1 updated
  have stepped : loggedSystem.step ⟨facility.dispatch.scheduler, facility.log⟩
      (facility.asReport message) = some ⟨scheduler, facility.asReport message :: facility.log⟩ := by
    simp only [loggedSystem, historySystem, Facility.asReport, updated, Option.map_some]
  obtain ⟨latest', row'', exact'⟩ := exact.step timely stepped
  have isLatest : latest' = facility.key := by
    have same := exact'.last.symm.trans last
    cases same
    rfl
  subst isLatest
  -- the first report of a round sets the key of the round
  have roundLe : (if facility.i = 0 then facility.key else facility.roundKey) ≤ facility.key := by
    split
    · exact le_rfl
    · rename_i begun
      exact ranked.round (Nat.pos_of_ne_zero begun)
  have window : facility.key ≤
      (if facility.i = 0 then facility.key else facility.roundKey) + 5000 := by
    split
    · exact Nat.le_add_right _ _
    · rename_i begun
      exact punctual.resolve_left begun
  refine ⟨ranked.started, keys, ranked.bounded, ranked.small, ⟨_, _, exact', fun _ => window⟩,
    fun _ => roundLe, ?_, ?_⟩
  · intro c first upTo
    simp only [Facility.collected, Facility.asReport, mostRecent_cons, isNext]
    by_cases own : facility.i + 1 = c
    · subst own
      exact ⟨_, if_pos rfl, roundLe, found⟩
    · have before : c ≤ facility.i := by
        change c ≤ facility.i + 1 at upTo
        omega
      obtain ⟨report, recent, inRound, taken⟩ := ranked.heard c first before
      have begun : facility.i ≠ 0 := by omega
      rw [if_neg own, if_neg begun]
      exact ⟨report, recent, inRound, taken⟩
  · change ∀ n schedule, _ → ∃ values, Answered scheduler.numEPNS facility.epn n values ∧ _
    rw [Scheduler.update_numEPNS updated]
    exact ranked.ranked

theorem Ranked.array (ranked : Ranked facility) (complete : facility.i = facility.numEPNS) :
    ∃ values, Answered facility.numEPNS facility.epn facility.schedules.length values ∧
      facility.dispatch.scheduler.generateArray1 = some (values.map Nat.cast) := by
  obtain ⟨latest, row, exact, window⟩ := ranked.view
  have full : row.length = facility.numEPNS := exact.wellFormed.full.last exact.last
  -- the value of every EPN, and its entry in the latest row
  have entry : ∀ a < facility.numEPNS, ∃ value,
      (facility.epn (a + 1)).reports[facility.schedules.length]? = some value ∧
        (row.map (slotsOf latest))[a]? = some (value : Int) := by
    intro a inside
    obtain ⟨report, recent, key, found⟩ := ranked.heard (a + 1) (by omega) (by omega)
    obtain ⟨info, isInfo, answers⟩ := exact.answers a inside
    obtain ⟨clock, small, started⟩ := exact.timely report (mem_of_mostRecent recent)
    have inWindow := window (by omega)
    dsimp only at answers
    rw [recent] at answers
    have view : slotsOf latest info = viewOf latest (some report) := by
      refine answers.view started ?_
      rintro other same
      cases same
      exact ⟨clock, small⟩
    refine ⟨report.myMem, found, ?_⟩
    rw [List.getElem?_map, isInfo, Option.map_some, view, viewOf, if_pos (by omega)]
  refine ⟨(List.range facility.numEPNS).map fun a =>
    ((facility.epn (a + 1)).reports[facility.schedules.length]?).getD 0, ⟨by simp, ?_⟩, ?_⟩
  · intro c first last
    obtain ⟨value, found, _⟩ := entry (c - 1) (by omega)
    have back : c - 1 + 1 = c := by omega
    rw [back] at found
    have inside : c - 1 < facility.numEPNS := by omega
    simp [found, inside, back]
  · rw [generateArray1_eq exact.last full]
    congr 1
    refine List.ext_getElem? fun a => ?_
    by_cases inside : a < facility.numEPNS
    · obtain ⟨value, found, isEntry⟩ := entry a inside
      rw [isEntry]
      simp [found, inside]
    · rw [List.getElem?_eq_none (by simpa [full] using inside),
        List.getElem?_eq_none (by simpa using inside)]

theorem Ranked.schedule {schedule : List Nat} (ranked : Ranked facility)
    (complete : facility.i = facility.numEPNS)
    (generated : facility.dispatch.scheduler.generateSchedule facility.dispatch.amountEPNs =
      some schedule) :
    Ranked (facility.scheduled (facility.dispatch.assigned schedule)) := by
  obtain ⟨latest, row, exact, _⟩ := ranked.view
  refine ⟨ranked.started, ranked.clock, ranked.bounded, ranked.small,
    ⟨latest, row, exact, nofun⟩, nofun, ?_, ?_⟩
  · intro c first last
    have none : c ≤ 0 := last
    omega
  · intro n other found
    change (facility.schedules ++ [schedule])[n]? = some other at found
    rw [List.getElem?_append] at found
    split at found
    · exact ranked.ranked n other found
    · rename_i last
      rw [List.getElem?_singleton] at found
      split at found <;> cases found
      obtain ⟨values, answered, array⟩ := ranked.array complete
      have isLast : n = facility.schedules.length := by omega
      rw [Scheduler.generateSchedule, array] at generated
      subst isLast
      exact ⟨values, answered, generated⟩

theorem Ranked.step {times : InitTimes} {after : Facility} {action : FacilityAction}
    (ranked : Ranked facility) (inRound : InRound times facility)
    (few : facility.numEPNS < 2 ^ 31) (regular : Regular facility action)
    (effect : FacilityEffect facility action after) : Ranked after := by
  cases effect with
  | tick => exact ranked.tick _
  | report _ _ _ read => exact ranked.report regular read
  | collect awaiting _ queued updated =>
      exact ranked.collect inRound few awaiting queued updated regular
  | schedule complete _ generated => exact ranked.schedule complete generated
  | @receiveFrame c f message rest node _ _ counted =>
      exact ranked.moveEpn (EpnNode.receive_bounded (ranked.bounded c) counted)
        (EpnNode.receive_frame counted).1
  | @slot c action reporting stepped =>
      have silent := Reporting.slot_sent stepped
      obtain ⟨slots, done, rfl⟩ := Option.map_eq_some_iff.mp stepped
      exact ranked.moveEpn ((ranked.bounded c).step done) silent
  | expire _ _ | check _ _ | leave _ _ | startThread _ | clear _ | sendSchedule _ _
    | receiveSchedule _ _ _ | sendFrame _ _ _ _ =>
      exact { ranked with }

end Steps

theorem ranked_of_reaches {conf : FacilityConf} {times : InitTimes} {facility : Facility}
    (few : conf.numEPNS < 2 ^ 31) (started : 5000 < histKey times.now)
    (reached : (facilitySystem conf times).ReachesUnder Regular facility) : Ranked facility := by
  induction reached with
  | initial start =>
      cases start
      exact .start started
  | step earlier regular stepped ih =>
      have numEPNS := (conf_of_reaches earlier).1
      exact ih.step (inRound_of_reaches earlier) (by omega) regular (Facility.step_effect stepped)

theorem stableTopK_of_pushed {values : List Nat} {amountEPNs : Nat} {schedule : List Nat}
    (inhabited : values ≠ []) (few : values.length < 2 ^ 31)
    (pushed : pushMaxima amountEPNs (values.map Nat.cast) = some schedule) :
    StableTopK (values.map Nat.cast) amountEPNs schedule := by
  have lower : ∀ value ∈ values.map (Nat.cast : Nat → Int), -1 ≤ value := by
    intro value member
    obtain ⟨slots, _, rfl⟩ := List.mem_map.mp member
    omega
  have enough : min amountEPNs (validCount (values.map Nat.cast)) ≤
      usableCount (values.map Nat.cast) := by
    rw [usableCount_eq_validCount (by simpa using few) lower]
    exact Nat.min_le_right _ _
  have nonempty : values.map (Nat.cast : Nat → Int) ≠ [] := by simpa using inhabited
  obtain ⟨other, isOther, selected⟩ := (stableTopK_iff nonempty lower
    (by simpa using few.trans (by decide)) amountEPNs).mpr enough
  cases pushed.symm.trans isOther
  exact selected

end FairMQ.SchedulerFlpEpn
