import FairMQ.SchedulerFlpEpn.Schedule
import FairMQ.SchedulerFlpEpn.Trim

namespace FairMQ.SchedulerFlpEpn

open FairMQ.Data

structure Logged where
  scheduler : Scheduler
  reports : List Report

def loggedSystem : TransitionSystem Logged Report where
  initial logged := historySystem.initial logged.scheduler ∧ logged.reports = []
  step logged report :=
    (historySystem.step logged.scheduler report).map fun after => ⟨after, report :: logged.reports⟩

/-- Known EPNs, clock keys beyond the first five seconds, slots that fit an `int`,
and no more than one row to trim. -/
def Timely (logged : Logged) (report : Report) : Prop :=
  Orderly logged.scheduler report ∧ 5000 < report.key ∧ report.myMem ≤ 2 ^ 31 - 1 ∧
    (logged.scheduler.due report.key).length ≤ 1

instance (logged : Logged) (report : Report) : Decidable (Timely logged report) :=
  inferInstanceAs (Decidable (_ ∧ _ ∧ _ ∧ _))

def mostRecent (reports : List Report) (epnId : Nat) : Option Report :=
  reports.find? fun report => report.epnId = epnId

def viewOf (latest : Nat) : Option Report → Int
  | some report => if latest ≤ report.key + 5000 then report.myMem else -1
  | none => -1

def Answers (latest : Nat) (info : EpnInfo) : Option Report → Prop
  | some report =>
      info = ⟨report.key, report.myMem⟩ ∨
        info = .zero ∧ report.key + historyMaxMs ≤ latest
  | none => info = .zero

structure Exact (logged : Logged) (latest : Nat) (row : List EpnInfo) : Prop where
  wellFormed : WellFormed logged.scheduler
  last : logged.scheduler.history.last? = some (latest, row)
  answers : ∀ a < logged.scheduler.numEPNS, ∃ info, row[a]? = some info ∧
    Answers latest info (mostRecent logged.reports (a + 1))
  seen : ∀ report ∈ logged.reports,
    report.key ∈ logged.scheduler.history.keys ∨ report.key + historyMaxMs ≤ latest
  oldest : ∀ key ∈ logged.scheduler.history.keys, logged.scheduler.tooOld ≤ key
  timely : ∀ report ∈ logged.reports,
    report.key < 2 ^ 63 ∧ report.myMem ≤ 2 ^ 31 - 1 ∧ 5000 < latest

section Rows

variable {scheduler : Scheduler} {previous : List EpnInfo} {info : EpnInfo} {a : Nat}

theorem nextRow_getElem? (known : a < scheduler.numEPNS) (found : previous[a]? = some info) :
    (scheduler.nextRow previous)[a]? = some (Scheduler.carry scheduler.tooOld info) := by
  have copied : a < ((previous.take scheduler.numEPNS).map
      (Scheduler.carry scheduler.tooOld)).length := by
    obtain ⟨inside, _⟩ := List.getElem?_eq_some_iff.mp found
    simp only [List.length_map, List.length_take]
    omega
  rw [Scheduler.nextRow, List.getElem?_append_left copied, List.getElem?_map,
    List.getElem?_take_of_lt known, found]
  rfl

theorem carry_zero (tooOld : Nat) : Scheduler.carry tooOld .zero = .zero := by
  unfold Scheduler.carry
  split <;> rfl

theorem Answers.carry {latest key tooOld : Nat} {report? : Option Report}
    (answers : Answers latest info report?) (later : latest ≤ key)
    (gone : ∀ report ∈ report?, report.key < tooOld → report.key + historyMaxMs ≤ latest) :
    Answers key (Scheduler.carry tooOld info) report? := by
  cases report? with
  | none =>
      rw [show info = .zero from answers]
      exact carry_zero tooOld
  | some report =>
      cases answers with
      | inl same =>
          subst same
          by_cases old : report.key < tooOld
          · have out := gone report rfl old
            exact .inr ⟨if_pos old, by omega⟩
          · exact .inl (if_neg old)
      | inr reset =>
          obtain ⟨isZero, out⟩ := reset
          subst isZero
          exact .inr ⟨carry_zero tooOld, by omega⟩

theorem Answers.view {latest : Nat} {report? : Option Report}
    (answers : Answers latest info report?) (started : 5000 < latest)
    (timely : ∀ report ∈ report?, report.key < 2 ^ 63 ∧ report.myMem ≤ 2 ^ 31 - 1) :
    slotsOf latest info = viewOf latest report? := by
  have unreported : slotsOf latest .zero = -1 := by
    have old : ¬ latest ≤ uint64Add 0 5000 := by
      rw [uint64Add_clock (by decide) (by decide)]
      omega
    exact if_neg old
  cases report? with
  | none =>
      rw [show info = .zero from answers]
      exact unreported
  | some report =>
      obtain ⟨clock, small⟩ := timely report rfl
      cases answers with
      | inl same =>
          subst same
          have slots : toInt32 report.myMem = report.myMem := toInt32_of_lt (by omega)
          have noWrap : uint64Add report.key 5000 = report.key + 5000 :=
            uint64Add_clock clock (by decide)
          simp only [slotsOf, viewOf, noWrap, slots]
      | inr reset =>
          obtain ⟨isZero, out⟩ := reset
          subst isZero
          have old : ¬ latest ≤ report.key + 5000 := by
            have window : historyMaxMs = 60000 := rfl
            omega
          rw [unreported]
          exact (if_neg old).symm

end Rows

theorem mem_of_mostRecent {reports : List Report} {epnId : Nat} {report : Report}
    (found : report ∈ mostRecent reports epnId) : report ∈ reports :=
  List.mem_of_find?_eq_some found

theorem mostRecent_cons (report : Report) (reports : List Report) (epnId : Nat) :
    mostRecent (report :: reports) epnId =
      if report.epnId = epnId then some report else mostRecent reports epnId := by
  unfold mostRecent
  split <;> simp_all

theorem writeOut_frame (scheduler : Scheduler) (key : Nat) :
    (scheduler.writeOut key).history = scheduler.history ∧
      (scheduler.writeOut key).numEPNS = scheduler.numEPNS ∧
      (scheduler.writeOut key).tooOld = scheduler.tooOld := by
  unfold Scheduler.writeOut
  split <;> exact ⟨rfl, rfl, rfl⟩

theorem update_parts {scheduler after : Scheduler} {report : Report}
    (wellFormed : WellFormed scheduler) (orderly : Orderly scheduler report)
    (done : scheduler.update report.key report.epnId report.myMem = .updated after) :
    ∃ recorded trimmed, Recorded scheduler report recorded ∧
      Trimmed report.key recorded trimmed ∧ after = trimmed.writeOut report.key := by
  obtain ⟨recorded, recordedOk, record⟩ := record_orderly wellFormed orderly
  simp only [Scheduler.update, recordedOk] at done
  split at done
  · rename_i trimmed trimmedOk
    injection done with same
    exact ⟨recorded, trimmed, record, trim_trimmed trimmedOk, same.symm⟩
  · contradiction

namespace Exact

variable {logged : Logged} {latest : Nat} {row : List EpnInfo}

theorem initial (start : loggedSystem.initial logged) : ∃ latest row, Exact logged latest row := by
  obtain ⟨scheduler, reports⟩ := logged
  obtain ⟨⟨numEPNS, keyForToFile, key, isStart⟩, unreported⟩ := start
  dsimp only at isStart unreported
  subst isStart unreported
  refine ⟨key, List.replicate numEPNS .zero, .initial .., rfl, ?_, ?_, ?_, ?_⟩
  · intro a known
    exact ⟨.zero, List.getElem?_replicate_of_lt known, rfl⟩
  · intro report member
    cases member
  · intro row _
    exact Nat.zero_le row
  · intro report member
    cases member

theorem latest_mem (exact : Exact logged latest row) :
    latest ∈ logged.scheduler.history.keys :=
  logged.scheduler.history.mem_keys.mpr ⟨row, List.mem_of_getLast? exact.last⟩

theorem base (exact : Exact logged latest row) {report : Report} {base : List EpnInfo}
    (isBase : base = row ∧ latest = report.key ∨
      base = logged.scheduler.nextRow row ∧ latest < report.key) :
    ∀ a < logged.scheduler.numEPNS, ∃ info, base[a]? = some info ∧
      Answers report.key info (mostRecent logged.reports (a + 1)) := by
  intro a known
  obtain ⟨info, found, answers⟩ := exact.answers a known
  cases isBase with
  | inl same =>
      obtain ⟨isRow, isLatest⟩ := same
      subst isRow isLatest
      exact ⟨info, found, answers⟩
  | inr copied =>
      obtain ⟨isNext, later⟩ := copied
      subst isNext
      refine ⟨_, nextRow_getElem? known found, answers.carry (le_of_lt later) ?_⟩
      intro earlier recent old
      -- a row older than `tooOld` is no longer there
      cases exact.seen earlier (mem_of_mostRecent recent) with
      | inl present => exact absurd (exact.oldest _ present) (not_le_of_gt old)
      | inr out => exact out

theorem written {report : Report} {reports : List Report} {base : List EpnInfo} {numEPNS : Nat}
    (positive : 1 ≤ report.epnId)
    (answers : ∀ a < numEPNS, ∃ info, base[a]? = some info ∧
      Answers report.key info (mostRecent reports (a + 1))) :
    ∀ a < numEPNS, ∃ info,
      (base.set (report.epnId - 1) ⟨report.key, report.myMem⟩)[a]? = some info ∧
        Answers report.key info (mostRecent (report :: reports) (a + 1)) := by
  intro a known
  obtain ⟨info, found, answer⟩ := answers a known
  rw [mostRecent_cons, List.getElem?_set]
  by_cases own : report.epnId = a + 1
  · have position : report.epnId - 1 = a := by omega
    obtain ⟨bound, _⟩ := List.getElem?_eq_some_iff.mp found
    rw [if_pos own, if_pos position, if_pos (position ▸ bound)]
    exact ⟨_, rfl, .inl rfl⟩
  · rw [if_neg own, if_neg (by omega)]
    exact ⟨info, found, answer⟩

theorem step (exact : Exact logged latest row) {report : Report} {after : Logged}
    (timely : Timely logged report) (stepped : loggedSystem.step logged report = some after) :
    ∃ latest row, Exact after latest row := by
  obtain ⟨orderly, started, small, _⟩ := timely
  obtain ⟨scheduler, moved, isAfter⟩ := Option.map_eq_some_iff.mp stepped
  subst isAfter
  have done : logged.scheduler.update report.key report.epnId report.myMem =
      .updated scheduler := by
    simp only [historySystem] at moved
    split at moved <;> cases moved
    assumption
  obtain ⟨recorded, trimmed, record, trim, isScheduler⟩ :=
    update_parts exact.wellFormed orderly done
  have wellFormed := exact.wellFormed.update done
  obtain ⟨⟨positive, known⟩, word, later, clock⟩ := orderly
  obtain ⟨history, numEPNS, tooOld⟩ := writeOut_frame trimmed report.key
  rw [← isScheduler] at history numEPNS tooOld
  obtain ⟨latest', previous, base, last, isBase, recordedLast⟩ := record.last
  rw [exact.last] at last
  cases last
  have answers := written positive (exact.base isBase)
  have largest := record.largest later
  -- a row disappears only when it leaves the window
  have kept : ∀ key ∈ recorded.history.keys,
      key ∈ scheduler.history.keys ∨ key + historyMaxMs ≤ report.key := by
    intro key member
    have noWrap : uint64Add key historyMaxMs = key + historyMaxMs :=
      uint64Add_clock (lt_of_le_of_lt (largest key member) clock) (by decide)
    rw [history, ← noWrap]
    exact trim.removed key member
  refine ⟨report.key, base.set (report.epnId - 1) ⟨report.key, report.myMem⟩, wellFormed, ?_, ?_,
    ?_, ?_, ?_⟩
  · rw [history, trim.last, recordedLast]
  · rw [numEPNS, trim.numEPNS, record.numEPNS]
    exact answers
  · intro earlier member
    cases List.mem_cons.mp member with
    | inl same =>
        rw [same]
        exact kept report.key record.current
    | inr old =>
        cases exact.seen earlier old with
        | inl present => exact kept earlier.key (record.keeps present)
        | inr out =>
            have monotone := later latest (exact.latest_mem)
            exact .inr (out.trans monotone)
  · intro key member
    rw [history] at member
    rw [tooOld]
    exact trim.oldest key member
  · intro earlier member
    cases List.mem_cons.mp member with
    | inl same =>
        rw [same]
        exact ⟨clock, small, started⟩
    | inr old =>
        obtain ⟨earlierClock, earlierSmall, _⟩ := exact.timely earlier old
        exact ⟨earlierClock, earlierSmall, started⟩

end Exact

theorem exact_of_reaches {logged : Logged} (reached : loggedSystem.ReachesUnder Timely logged) :
    ∃ latest row, Exact logged latest row := by
  induction reached with
  | initial start => exact Exact.initial start
  | step _ timely stepped ih =>
      obtain ⟨latest, row, exact⟩ := ih
      exact exact.step timely stepped

/-- In every run of timely reports each update returns, and after it
`generateArray1` holds for every EPN the slots of its most recent report if that
report is at most five seconds older than the largest key, and `-1` otherwise. -/
theorem scheduler_view_exact {logged : Logged} (reached : loggedSystem.ReachesUnder Timely logged) :
    (∀ report, Timely logged report → ∃ after, loggedSystem.step logged report = some after) ∧
    (logged.reports ≠ [] → ∃ latest arr,
      latest ∈ logged.scheduler.history.keys ∧
      (∀ key ∈ logged.scheduler.history.keys, key ≤ latest) ∧
      logged.scheduler.generateArray1 = some arr ∧
      ∀ a, 1 ≤ a → a ≤ logged.scheduler.numEPNS →
        arr[a - 1]? = some (viewOf latest (mostRecent logged.reports a))) := by
  obtain ⟨latest, row, exact⟩ := exact_of_reaches reached
  refine ⟨?_, ?_⟩
  · intro report timely
    obtain ⟨after, done⟩ := update_of_due exact.wellFormed timely.1 timely.2.2.2
    exact ⟨⟨after, report :: logged.reports⟩, by simp [loggedSystem, historySystem, done]⟩
  · intro reported
    have full : row.length = logged.scheduler.numEPNS := exact.wellFormed.full.last exact.last
    have started : 5000 < latest := by
      obtain ⟨report, member⟩ := List.exists_mem_of_ne_nil _ reported
      exact (exact.timely report member).2.2
    refine ⟨latest, row.map (slotsOf latest), exact.latest_mem, ?_, ?_, ?_⟩
    · exact logged.scheduler.history.le_last exact.last
    · rw [Scheduler.generateArray1, exact.last]
      dsimp only
      rw [if_pos (le_of_eq full.symm), ← full, List.take_length]
    · intro a positive known
      obtain ⟨info, found, answers⟩ := exact.answers (a - 1) (by omega)
      rw [Nat.sub_add_cancel positive] at answers
      rw [List.getElem?_map, found, Option.map_some]
      congr 1
      refine answers.view started ?_
      intro report recent
      obtain ⟨clock, small, _⟩ := exact.timely report (mem_of_mostRecent recent)
      exact ⟨clock, small⟩

/-- Two EPNs; the second reports ten seconds after the first. -/
theorem first_of_two_epns_is_stale : ∃ logged arr,
    loggedSystem.ReachesUnder Timely logged ∧ logged.scheduler.numEPNS = 2 ∧
    logged.reports = [⟨20000, 2, 3⟩, ⟨10000, 1, 4⟩] ∧
    logged.scheduler.generateArray1 = some arr ∧ arr[0]? = some (-1) ∧ arr[1]? = some 3 := by
  obtain ⟨logged, reached, two, reports, keys⟩ :
      ∃ logged, loggedSystem.ReachesUnder Timely logged ∧ logged.scheduler.numEPNS = 2 ∧
        logged.reports = [⟨20000, 2, 3⟩, ⟨10000, 1, 4⟩] ∧
        logged.scheduler.history.keys = [9000, 10000, 20000] :=
    TransitionSystem.reaches_of_runUnder
      ⟨(Scheduler.configured 2 9000).initializeHistory 9000, []⟩
      [⟨10000, 1, 4⟩, ⟨20000, 2, 3⟩] ⟨⟨2, 9000, 9000, rfl⟩, rfl⟩ (by decide)
  obtain ⟨latest, arr, member, largest, generated, view⟩ :=
    (scheduler_view_exact reached).2 (by simp [reports])
  rw [keys] at member largest
  have isLatest : latest = 20000 := by
    have upper := largest 20000 (by simp)
    simp only [List.mem_cons, List.not_mem_nil, or_false] at member
    omega
  subst isLatest
  have first := view 1 (by decide) (by omega)
  have second := view 2 (by decide) (by omega)
  rw [reports] at first second
  exact ⟨logged, arr, reached, two, reports, generated, first, second⟩

/-- `initialize(numEPNS)` followed by calls of `update` that return or throw. -/
def callSystem : TransitionSystem Scheduler Report where
  initial := historySystem.initial
  step scheduler report :=
    match scheduler.update report.key report.epnId report.myMem with
    | .updated after => some after
    | .outOfRange after => some after
    | .undefined => none

def Scheduler.refused (scheduler : Scheduler) (key : Nat) : Scheduler :=
  match scheduler.history.get? key, scheduler.history.last? with
  | none, some (_, previous) =>
      { scheduler with history := scheduler.history.insert key (scheduler.nextRow previous) }
  | _, _ => scheduler

section Refused

variable {scheduler after : Scheduler} {row : List EpnInfo} {key epnId myMem : Nat}

theorem overwrite_outOfRange
    (refused : scheduler.overwrite row key epnId myMem = .outOfRange after) :
    after = scheduler := by
  simp only [Scheduler.overwrite] at refused
  split at refused <;> cases refused
  rfl

theorem record_outOfRange (refused : scheduler.record key epnId myMem = .outOfRange after) :
    after = scheduler.refused key := by
  unfold Scheduler.refused
  simp only [Scheduler.record] at refused
  split at refused
  · rename_i found
    rw [found]
    exact overwrite_outOfRange refused
  · rename_i absent
    split at refused
    · contradiction
    · rename_i isLast
      rw [absent, isLast]
      split at refused
      · cases refused
        rfl
      · exact overwrite_outOfRange refused

theorem update_outOfRange (refused : scheduler.update key epnId myMem = .outOfRange after) :
    scheduler.record key epnId myMem = .outOfRange after := by
  simp only [Scheduler.update] at refused
  split at refused
  · split at refused <;> contradiction
  · exact refused

theorem WellFormed.refused (wellFormed : WellFormed scheduler) (key : Nat) :
    WellFormed (scheduler.refused key) := by
  unfold Scheduler.refused
  split
  · refine ⟨OrderedMap.insert_ne_nil _ _ _, ?_⟩
    exact wellFormed.full.insert (nextRow_length scheduler _)
  · exact wellFormed

theorem wellFormed_of_calls (reached : callSystem.Reaches scheduler) : WellFormed scheduler := by
  induction reached with
  | initial start =>
      obtain ⟨numEPNS, keyForToFile, key, rfl⟩ := start
      exact .initial numEPNS keyForToFile key
  | step _ _ stepped ih =>
      simp only [callSystem] at stepped
      split at stepped <;> cases stepped
      · rename_i done
        exact ih.update done
      · rename_i refused
        rw [record_outOfRange (update_outOfRange refused)]
        exact ih.refused _

theorem record_refuses (wellFormed : WellFormed scheduler)
    (beyond : scheduler.numEPNS ≤ uint64Add epnId (2 ^ 64 - 1)) (key myMem : Nat) :
    scheduler.record key epnId myMem = .outOfRange (scheduler.refused key) := by
  unfold Scheduler.record Scheduler.refused
  cases found : scheduler.history.get? key with
  | some row =>
      have full : row.length = scheduler.numEPNS :=
        wellFormed.full _ (scheduler.history.mem_of_get? found)
      simp only [Scheduler.overwrite]
      rw [if_neg (by omega)]
  | none =>
      obtain ⟨⟨latest, previous⟩, isLast⟩ : ∃ entry, scheduler.history.last? = some entry :=
        Option.ne_none_iff_exists'.mp (by simpa [OrderedMap.last?] using wellFormed.nonempty)
      have full : previous.length = scheduler.numEPNS := wellFormed.full.last isLast
      simp only [isLast, Scheduler.overwrite, nextRow_length]
      rw [if_neg (by omega), if_neg (by omega)]

theorem refused_eq_self (known : key ∈ scheduler.history.keys) :
    scheduler.refused key = scheduler := by
  unfold Scheduler.refused
  cases found : scheduler.history.get? key with
  | some row => rfl
  | none =>
      obtain ⟨row, member⟩ := scheduler.history.mem_keys.mp known
      exact absurd rfl (scheduler.history.get?_eq_none_iff.mp found _ member)

theorem mem_refused (wellFormed : WellFormed scheduler) (key : Nat) :
    key ∈ (scheduler.refused key).history.keys := by
  unfold Scheduler.refused
  cases found : scheduler.history.get? key with
  | some row => exact scheduler.history.mem_keys.mpr ⟨row, scheduler.history.mem_of_get? found⟩
  | none =>
      obtain ⟨⟨latest, previous⟩, isLast⟩ : ∃ entry, scheduler.history.last? = some entry :=
        Option.ne_none_iff_exists'.mp (by simpa [OrderedMap.last?] using wellFormed.nonempty)
      simp only [isLast]
      exact OrderedMap.mem_keys_insert ..

end Refused

/-- A report of an unknown EPN always throws.  It leaves the scheduler as it was
exactly when its interval has a row already. -/
theorem refused_report_unchanged_iff {scheduler : Scheduler}
    (reached : callSystem.Reaches scheduler) (words : scheduler.numEPNS < 2 ^ 64)
    (key epnId myMem : Nat) (word : epnId < 2 ^ 64)
    (unknown : ¬ (1 ≤ epnId ∧ epnId ≤ scheduler.numEPNS)) :
    ∃ after, scheduler.update key epnId myMem = .outOfRange after ∧
      (after.history = scheduler.history ∧ after.tooOld = scheduler.tooOld ↔
        key ∈ scheduler.history.keys) ∧
      (key ∈ scheduler.history.keys → after = scheduler) := by
  have wellFormed := wellFormed_of_calls reached
  have beyond : scheduler.numEPNS ≤ uint64Add epnId (2 ^ 64 - 1) := by
    unfold uint64Add
    omega
  have refused := record_refuses wellFormed beyond key myMem
  refine ⟨scheduler.refused key, ?_, ⟨?_, ?_⟩, refused_eq_self⟩
  · simp only [Scheduler.update, refused]
  · intro unchanged
    rw [← unchanged.1]
    exact mem_refused wellFormed key
  · intro known
    rw [refused_eq_self known]
    exact ⟨rfl, rfl⟩

theorem repeated_interval_keeps_history : ∃ scheduler,
    callSystem.Reaches scheduler ∧ scheduler.history.keys = [1000, 2000] ∧
    scheduler.update 2000 0 4 = .outOfRange scheduler := by
  obtain ⟨scheduler, reached, one, keys⟩ :
      ∃ scheduler, callSystem.ReachesUnder (fun _ _ => True) scheduler ∧
        scheduler.numEPNS = 1 ∧ scheduler.history.keys = [1000, 2000] :=
    TransitionSystem.reaches_of_runUnder oneEpn [⟨2000, 1, 4⟩] ⟨1, 1000, 1000, rfl⟩ (by decide)
  obtain ⟨after, refused, _, same⟩ := refused_report_unchanged_iff reached (by omega) 2000 0 4
    (by decide) (by omega)
  rw [same (by simp [keys])] at refused
  exact ⟨scheduler, reached, keys, refused⟩

/-- EPN `0` reports six seconds after EPN `1`.  The report is refused, but its row
makes EPN `1` look silent, and the next schedule has no EPN left. -/
theorem refused_report_hides_epn : ∃ scheduler after,
    callSystem.Reaches scheduler ∧ scheduler.numEPNS = 1 ∧
    scheduler.update 8000 0 4 = .outOfRange after ∧
    after.history.keys ≠ scheduler.history.keys ∧
    scheduler.generateSchedule 1 = some [1] ∧
    after.generateSchedule 1 = some [2 ^ 64 - 1] := by
  obtain ⟨scheduler, reached, one, before, keys, hidden⟩ :
      ∃ scheduler, callSystem.ReachesUnder (fun _ _ => True) scheduler ∧
        scheduler.numEPNS = 1 ∧ scheduler.generateSchedule 1 = some [1] ∧
        (scheduler.refused 8000).history.keys ≠ scheduler.history.keys ∧
        (scheduler.refused 8000).generateSchedule 1 = some [2 ^ 64 - 1] :=
    TransitionSystem.reaches_of_runUnder oneEpn [⟨2000, 1, 4⟩] ⟨1, 1000, 1000, rfl⟩ (by decide)
  have beyond : scheduler.numEPNS ≤ uint64Add 0 (2 ^ 64 - 1) := by
    rw [one]
    decide
  have refused := record_refuses (wellFormed_of_calls reached) beyond 8000 4
  refine ⟨scheduler, scheduler.refused 8000, reached, one, ?_, keys, before, hidden⟩
  simp only [Scheduler.update, refused]

end FairMQ.SchedulerFlpEpn
