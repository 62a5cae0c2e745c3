import FairMQ.SchedulerFlpEpn.Ranking

namespace FairMQ.SchedulerFlpEpn

open FairMQ.Data

def Steady (facility : Facility) (action : FacilityAction) : Prop :=
  Regular facility action ∧
    (action = .endRound → ∀ p ∈ facility.dispatch.threads, facility.dispatch.numFLPS ≤ p)

instance (facility : Facility) (action : FacilityAction) : Decidable (Steady facility action) :=
  inferInstanceAs (Decidable (_ ∧ _))

theorem pushMaxima_length {count : Nat} {arr : List Int} {schedule : List Nat}
    (pushed : pushMaxima count arr = some schedule) : schedule.length = count := by
  induction count generalizing arr schedule with
  | zero =>
      cases pushed
      rfl
  | succ count ih =>
      rw [pushMaxima] at pushed
      split at pushed
      · contradiction
      · obtain ⟨later, isLater, rfl⟩ := Option.map_eq_some_iff.mp pushed
        rw [List.length_cons, ih isLater]

theorem generateSchedule_length {scheduler : Scheduler} {amountEPNs : Nat} {schedule : List Nat}
    (generated : scheduler.generateSchedule amountEPNs = some schedule) :
    schedule.length = amountEPNs := by
  rw [Scheduler.generateSchedule] at generated
  split at generated
  · contradiction
  · exact pushMaxima_length generated

inductive SenderAt (numFLPS : Nat) (schedules : List (List Nat)) (main : MainLoop)
    (threads : List Nat) : Nat → Prop where
  | unused {p : Nat} (elsewhere : main ≠ .assigned) (none : schedules = [])
      (idle : threads = []) : SenderAt numFLPS schedules main threads p
  | posted (assigned : main = .assigned) (some : schedules ≠ [])
      (done : ∀ q ∈ threads, numFLPS ≤ q) : SenderAt numFLPS schedules main threads 0
  | running {p : Nat} {finished : List Nat} (elsewhere : main ≠ .assigned)
      (some : schedules ≠ []) (done : ∀ q ∈ finished, numFLPS ≤ q)
      (last : threads = finished ++ [p]) : SenderAt numFLPS schedules main threads p

structure Passing (dispatch : Dispatch) (schedules : List (List Nat)) (p : Nat) : Prop where
  sent : ∀ f < dispatch.numFLPS,
    dispatch.sent f = if f < p then schedules else schedules.dropLast
  sender : SenderAt dispatch.numFLPS schedules dispatch.main dispatch.threads p
  buffer : ∀ schedule, schedules.getLast? = some schedule → dispatch.message = schedule
  lengths : ∀ schedule ∈ schedules, schedule.length = dispatch.amountEPNs

section Passing

variable {dispatch : Dispatch} {schedules : List (List Nat)} {p f : Nat}

theorem Passing.all_sent (passing : Passing dispatch schedules p)
    (done : ∀ q ∈ dispatch.threads, dispatch.numFLPS ≤ q) (main : dispatch.main ≠ .assigned)
    (inside : f < dispatch.numFLPS) : dispatch.sent f = schedules := by
  have sent := passing.sent f inside
  cases passing.sender with
  | unused _ none _ => simpa [none] using sent
  | posted assigned _ _ => exact absurd assigned main
  | running _ _ _ threads =>
      have passed := done p (by simp [threads])
      rw [sent, if_pos (by omega)]

theorem Passing.assign {schedule : List Nat} (passing : Passing dispatch schedules p)
    (done : ∀ q ∈ dispatch.threads, dispatch.numFLPS ≤ q) (main : dispatch.main ≠ .assigned)
    (length : schedule.length = dispatch.amountEPNs) :
    Passing (dispatch.assigned schedule) (schedules ++ [schedule]) 0 := by
  refine ⟨?_, .posted rfl (by simp) done, ?_, ?_⟩
  · intro f inside
    simpa [Dispatch.sent, Dispatch.assigned] using passing.all_sent done main inside
  · intro other isLast
    rw [List.getLast?_concat] at isLast
    cases isLast
    exact List.take_of_length_le length.le
  · intro other member
    rcases List.mem_append.mp member with old | new
    · exact passing.lengths other old
    · rw [List.mem_singleton.mp new]
      exact length

theorem Passing.startThread (passing : Passing dispatch schedules p)
    (main : dispatch.main = .assigned) : Passing dispatch.started schedules 0 := by
  cases passing.sender with
  | unused elsewhere _ _ => exact absurd main elsewhere
  | running elsewhere _ _ _ => exact absurd main elsewhere
  | posted _ some done => exact { passing with sender := .running nofun some done rfl }

theorem Passing.clear (passing : Passing dispatch schedules p)
    (main : dispatch.main = .started) :
    Passing { dispatch with main := .collecting } schedules p := by
  refine { passing with sender := ?_ }
  cases passing.sender with
  | unused _ none threads => exact .unused nofun none threads
  | posted assigned _ _ => simp [main] at assigned
  | running _ some done threads => exact .running nofun some done threads

theorem SenderAt.last {numFLPS thread q : Nat} {main : MainLoop} {threads : List Nat}
    (sender : SenderAt numFLPS schedules main threads p) (running : threads[thread]? = some q)
    (inside : q < numFLPS) :
    q = p ∧ main ≠ .assigned ∧ schedules ≠ [] ∧ ∃ finished, (∀ q ∈ finished, numFLPS ≤ q) ∧
      threads = finished ++ [p] ∧ thread = finished.length := by
  have unfinished : ∀ finished : List Nat, (∀ q ∈ finished, numFLPS ≤ q) →
      q ∉ finished := fun finished done member => absurd (done q member) (Nat.not_le.mpr inside)
  cases sender with
  | unused _ _ threads =>
      rw [threads] at running
      simp at running
  | posted _ _ done => exact absurd (List.mem_of_getElem? running) (unfinished _ done)
  | running main some done threads =>
      rw [threads, List.getElem?_append] at running
      split at running
      · exact absurd (List.mem_of_getElem? running) (unfinished _ done)
      · rw [List.getElem?_singleton] at running
        split at running <;> cases running
        exact ⟨rfl, main, some, _, done, threads, by omega⟩

theorem Passing.post {thread q : Nat} (passing : Passing dispatch schedules p)
    (running : dispatch.threads[thread]? = some q) (inside : q < dispatch.numFLPS) :
    Passing (dispatch.posted thread q) schedules (q + 1) := by
  obtain ⟨rfl, main, some, finished, done, threads, last⟩ := passing.sender.last running inside
  have whole : schedules.dropLast ++ [dispatch.message] = schedules := by
    rw [passing.buffer _ (List.getLast?_eq_some_getLast some)]
    exact List.dropLast_append_getLast some
  refine { passing with sent := ?_, sender := .running main some done ?_ }
  · intro f below
    have sent := passing.sent f below
    simp only [Dispatch.sent, Dispatch.posted] at sent ⊢
    by_cases same : f = q
    · subst same
      rw [if_neg (Nat.lt_irrefl f)] at sent
      rw [Function.update_self, ← List.append_assoc, sent, whole, if_pos (Nat.lt_succ_self f)]
    · have place : f < q + 1 ↔ f < q := by omega
      rw [Function.update_of_ne same, sent]
      simp only [place]
  · rw [Dispatch.posted, threads, last]
    simp

theorem Passing.deliver {message : List Nat} {rest : List (List Nat)}
    (passing : Passing dispatch schedules p) (queued : dispatch.channel f = message :: rest) :
    Passing (dispatch.delivered f message rest) schedules p := by
  refine { passing with sent := ?_ }
  intro g inside
  exact (sent_receive queued g).trans (passing.sent g inside)

theorem Passing.next {message : List Nat} {rest : List (List Nat)}
    (passing : Passing dispatch schedules p) (inside : f < dispatch.numFLPS)
    (queued : dispatch.channel f = message :: rest) :
    schedules[(dispatch.received f).length]? = some message := by
  have sent := passing.sent f inside
  rw [Dispatch.sent, queued] at sent
  have found : (dispatch.received f ++ message :: rest)[(dispatch.received f).length]? =
      some message := by simp
  rw [sent] at found
  split at found
  · exact found
  · rw [List.getElem?_dropLast] at found
    split at found
    · exact found
    · contradiction

end Passing

theorem passing_of_reaches {conf : FacilityConf} {times : InitTimes} {facility : Facility}
    (reached : (facilitySystem conf times).ReachesUnder Steady facility) :
    ∃ p, Passing facility.dispatch facility.schedules p := by
  induction reached with
  | initial start =>
      cases start
      exact ⟨0, fun _ _ => rfl, .unused nofun rfl rfl, nofun, nofun⟩
  | step _ steady stepped ih =>
      obtain ⟨p, passing⟩ := ih
      cases Facility.step_effect stepped with
      | schedule _ main generated =>
          exact ⟨0, passing.assign (steady.2 rfl) (by simp [main])
            (generateSchedule_length generated)⟩
      | startThread main => exact ⟨0, passing.startThread main⟩
      | clear main => exact ⟨p, passing.clear main⟩
      | @sendSchedule thread q running inside => exact ⟨q + 1, passing.post running inside⟩
      | receiveSchedule _ _ queued => exact ⟨p, passing.deliver queued⟩
      | _ => exact ⟨p, { passing with }⟩

def Facility.frames (facility : Facility) : Frames where
  flp := facility.flp
  epn := fun c => (facility.epn c).asEpn
  channel := facility.channel

structure Extends (facility : Facility) (setup : Setup) : Prop where
  numFLPS : setup.numFLPS = facility.dispatch.numFLPS
  amountEPNs : setup.amountEPNs = facility.dispatch.amountEPNs
  schedules : ∀ n schedule, facility.schedules[n]? = some schedule → setup.schedule n = schedule

structure CountsAs (epn other : Epn) : Prop where
  rcvdSTFs : other.rcvdSTFs = epn.rcvdSTFs
  assertFailed : other.assertFailed = epn.assertFailed
  received : other.received = epn.received
  completions : other.completions = epn.completions

section Intact

variable {setup : Setup}

theorem Intact.countsAs {frames other : Frames} (intact : Intact setup frames)
    (flp : other.flp = frames.flp) (channel : other.channel = frames.channel)
    (epn : ∀ c, CountsAs (frames.epn c) (other.epn c)) : Intact setup other := by
  refine ⟨?_, ?_, ?_, ?_⟩
  · rw [flp]
    exact intact.position
  · rw [flp]
    exact intact.current
  · intro c f
    rw [flp, channel, (epn c).received]
    exact intact.wired c f
  · intro c
    obtain ⟨counts, completed, once, asserted⟩ := intact.sound c
    have counted : (other.epn c).counted = (frames.epn c).counted := by
      funext f
      simp only [Epn.counted, (epn c).received]
    refine ⟨?_, ?_, ?_, ?_⟩
    · rw [(epn c).rcvdSTFs, counted]
      exact counts
    · rw [(epn c).rcvdSTFs, (epn c).completions]
      exact completed
    · rw [(epn c).completions]
      exact once
    · rw [(epn c).assertFailed]
      exact asserted

theorem EpnNode.receive_countsAs {node after : EpnNode} {numFLPS i : Nat} {message : FLPtoEPN}
    (counted : node.receive numFLPS i message = some after) :
    CountsAs (node.asEpn.receive numFLPS i message) after.asEpn := by
  simp only [EpnNode.receive] at counted
  split at counted
  · split at counted
    · rename_i foreign
      cases counted
      rw [Epn.receive, if_pos foreign]
      exact ⟨rfl, rfl, rfl, rfl⟩
    · rename_i known
      split at counted
      · rename_i full
        have complete : node.asEpn.rcvdSTFs message.sTF + 1 = numFLPS := full
        obtain ⟨reporting, _, rfl⟩ := Option.map_eq_some_iff.mp counted
        obtain ⟨received, rcvdSTFs, assertFailed, completions⟩ :=
          @complete_frame ((node.asEpn.take i message).increment numFLPS message.sTF) message.sTF
        rw [Epn.receive, if_neg known, if_pos complete]
        exact ⟨rcvdSTFs.symm, assertFailed.symm, received.symm, completions.symm⟩
      · rename_i missing
        have incomplete : ¬ node.asEpn.rcvdSTFs message.sTF + 1 = numFLPS := missing
        cases counted
        rw [Epn.receive, if_neg known, if_neg incomplete]
        exact ⟨rfl, rfl, rfl, rfl⟩
  · contradiction

variable {facility : Facility}

theorem Intact.moveEpn {c : Nat} {node : EpnNode} (intact : Intact setup facility.frames)
    (counts : CountsAs (facility.epn c).asEpn node.asEpn) :
    Intact setup { facility.frames with
      epn := fun d => (Function.update facility.epn c node d).asEpn } := by
  refine intact.countsAs rfl rfl ?_
  intro d
  by_cases own : d = c
  · subst own
    simpa [Facility.frames] using counts
  · simp only [Facility.frames, Function.update_of_ne own]
    exact ⟨rfl, rfl, rfl, rfl⟩

theorem Intact.receiveFrame {c f : Nat} {message : FLPtoEPN} {rest : List FLPtoEPN}
    {node : EpnNode} (intact : Intact setup facility.frames)
    (numFLPS : setup.numFLPS = facility.dispatch.numFLPS)
    (queued : facility.channel (c, f) = message :: rest)
    (inside : f < facility.dispatch.numFLPS)
    (counted : (facility.epn c).receive facility.dispatch.numFLPS f message = some node) :
    Intact setup { facility.frames with
      epn := fun d => (Function.update facility.epn c node d).asEpn
      channel := Function.update facility.channel (c, f) rest } := by
  have received := intact.receive queued (numFLPS ▸ inside)
  refine received.countsAs rfl rfl ?_
  intro d
  by_cases own : d = c
  · subst own
    simpa [Facility.frames, numFLPS] using EpnNode.receive_countsAs counted
  · simp only [Facility.frames, Function.update_of_ne own]
    exact ⟨rfl, rfl, rfl, rfl⟩

theorem Intact.accept {f p : Nat} {message : List Nat} {rest : List (List Nat)}
    (intact : Intact setup facility.frames) (extends_ : Extends facility setup)
    (passing : Passing facility.dispatch facility.schedules p)
    (supplied : Supplied facility.dispatch facility.flp facility.schedules)
    (inside : f < facility.dispatch.numFLPS)
    (waiting : (facility.flp f).i = facility.dispatch.amountEPNs)
    (queued : facility.dispatch.channel f = message :: rest) :
    Intact setup { facility.frames with
      flp := Function.update facility.flp f
        ((facility.flp f).accept facility.dispatch.amountEPNs message) } := by
  have next := passing.next inside queued
  have isMessage : setup.schedule (facility.flp f).schedules = message := by
    rw [supplied.received f]
    exact extends_.schedules _ _ next
  have length := passing.lengths message (List.mem_of_getElem? next)
  have received := intact.receiveSchedule (waiting.trans extends_.amountEPNs.symm)
  simp only [Facility.frames, isMessage] at received
  simpa only [Flp.accept, length, if_true, Facility.frames] using received

theorem Intact.facilityStep {after : Facility} {action : FacilityAction} {p : Nat}
    (intact : Intact setup facility.frames) (extends_ : Extends facility setup)
    (passing : Passing facility.dispatch facility.schedules p)
    (supplied : Supplied facility.dispatch facility.flp facility.schedules)
    (effect : FacilityEffect facility action after) : Intact setup after.frames := by
  cases effect with
  | report _ _ _ read =>
      cases read
      exact intact.moveEpn ⟨rfl, rfl, rfl, rfl⟩
  | receiveSchedule inside waiting queued =>
      exact intact.accept extends_ passing supplied inside waiting queued
  | sendFrame inside sending named valid =>
      exact intact.send (extends_.amountEPNs ▸ sending) named valid
  | receiveFrame queued inside counted =>
      exact intact.receiveFrame extends_.numFLPS queued inside counted
  | slot stepped =>
      obtain ⟨slots, _, rfl⟩ := Option.map_eq_some_iff.mp stepped
      exact intact.moveEpn ⟨rfl, rfl, rfl, rfl⟩
  | _ => exact intact

end Intact

theorem Extends.before {facility after : Facility} {action : FacilityAction} {setup : Setup}
    (extends_ : Extends after setup) (effect : FacilityEffect facility action after) :
    Extends facility setup := by
  cases effect with
  | schedule _ _ _ =>
      refine ⟨extends_.numFLPS, extends_.amountEPNs, ?_⟩
      intro n schedule found
      refine extends_.schedules n schedule ?_
      have inside := (List.getElem?_eq_some_iff.mp found).1
      exact (List.getElem?_append_left inside).trans found
  | _ => exact ⟨extends_.numFLPS, extends_.amountEPNs, extends_.schedules⟩

theorem intact_of_reaches {conf : FacilityConf} {times : InitTimes} {facility : Facility}
    (reached : (facilitySystem conf times).ReachesUnder Steady facility) {setup : Setup}
    (extends_ : Extends facility setup) : Intact setup facility.frames := by
  induction reached with
  | initial start =>
      cases start
      have started : Intact setup (.start setup) := .start
      refine started.countsAs ?_ rfl fun _ => ⟨rfl, rfl, rfl, rfl⟩
      simp only [Frames.start, extends_.amountEPNs]
      rfl
  | step earlier steady stepped ih =>
      have effect := Facility.step_effect stepped
      have before := extends_.before effect
      obtain ⟨p, passing⟩ := passing_of_reaches earlier
      exact (ih before).facilityStep before passing (supplied_of_reaches earlier) effect

theorem StableTopK.full {values : List Nat} {amountEPNs : Nat} {schedule : List Nat}
    (selected : StableTopK (values.map Nat.cast) amountEPNs schedule)
    (enough : amountEPNs ≤ values.length) :
    ∃ chosen, schedule = chosen.map (· + 1) ∧ chosen.length = amountEPNs ∧
      StableTop (slotsAt (values.map Nat.cast)) (· < values.length) chosen := by
  have valid : ∀ i, slotsAt (values.map Nat.cast) i ≠ -1 ↔ i < values.length := by
    intro i
    by_cases inside : i < values.length
    · simp [slotsAt, inside]
    · simp [slotsAt, inside]
  have all : validCount (values.map Nat.cast) = values.length := by
    rw [validCount, List.countP_eq_length.mpr, List.length_map]
    intro value member
    obtain ⟨slots, _, rfl⟩ := List.mem_map.mp member
    simp
  obtain ⟨chosen, isSchedule, length, top⟩ := selected
  rw [all, Nat.min_eq_left enough] at isSchedule length
  rw [Nat.sub_self, List.replicate_zero, List.append_nil] at isSchedule
  refine ⟨chosen, isSchedule, length, top.nodup, ?_, top.ordered, ?_⟩
  · exact fun i member => (valid i).mp (top.candidates i member)
  · exact fun j inside left i member => top.maximal j ((valid j).mpr inside) left i member

theorem inRange_succ {numEPNS q : Nat} (fits : q + 1 < 2 ^ 31) (inside : q < numEPNS) :
    InRange numEPNS (q + 1) := by
  have picked := inRange_of_picked fits inside
  rwa [toUint64_succ fits] at picked

structure Chosen (facility : Facility) (n : Nat) (values chosen : List Nat) : Prop where
  answered : Answered facility.numEPNS facility.epn n values
  length : chosen.length = facility.dispatch.amountEPNs
  best : StableTop (slotsAt (values.map Nat.cast)) (· < facility.numEPNS) chosen

section Reached

variable {conf : FacilityConf} {times : InitTimes} {facility : Facility}
  (reached : (facilitySystem conf times).ReachesUnder Steady facility)
  (inhabited : 1 ≤ conf.numEPNS) (enough : conf.amountEPNs ≤ conf.numEPNS)
  (few : conf.numEPNS < 2 ^ 31) (started : 5000 < histKey times.now)

include reached inhabited enough few started

theorem chosen_of_reaches {n : Nat} {schedule : List Nat}
    (generated : facility.schedules[n]? = some schedule) :
    ∃ values chosen, Chosen facility n values chosen ∧ schedule = chosen.map (· + 1) := by
  have ranked := ranked_of_reaches few started (reached.weaken fun _ _ steady => steady.1)
  obtain ⟨numEPNS, _, amountEPNs⟩ := conf_of_reaches reached
  obtain ⟨values, answered, pushed⟩ := ranked.ranked n schedule generated
  have length := answered.length
  have nonempty : values ≠ [] := by
    intro empty
    simp [empty] at length
    omega
  have selected := stableTopK_of_pushed nonempty (by omega) pushed
  obtain ⟨chosen, isSchedule, isLength, best⟩ := selected.full (by omega)
  rw [length] at best
  exact ⟨values, chosen, ⟨answered, isLength, best⟩, isSchedule⟩

theorem exists_setup : ∃ setup : Setup, Extends facility setup := by
  obtain ⟨numEPNS, _, amountEPNs⟩ := conf_of_reaches reached
  have valid : ∀ n : Nat, ((facility.schedules[n]?).getD
      (List.replicate facility.dispatch.amountEPNs 1)).length = facility.dispatch.amountEPNs ∧
      ∀ entry ∈ (facility.schedules[n]?).getD (List.replicate facility.dispatch.amountEPNs 1),
        InRange facility.numEPNS entry := by
    intro n
    cases generated : facility.schedules[n]? with
    | none =>
        refine ⟨List.length_replicate, ?_⟩
        intro entry member
        rw [List.eq_of_mem_replicate member]
        exact inRange_succ (by decide) (by omega)
    | some schedule =>
        obtain ⟨values, chosen, isChosen, rfl⟩ :=
          chosen_of_reaches reached inhabited enough few started generated
        refine ⟨by simpa using isChosen.length, ?_⟩
        intro entry member
        obtain ⟨i, isEntry, rfl⟩ := List.mem_map.mp member
        have inside := isChosen.best.candidates i isEntry
        exact inRange_succ (by omega) inside
  exact ⟨⟨facility.dispatch.numFLPS, facility.numEPNS, facility.dispatch.amountEPNs, _,
    fun n => (valid n).1, fun n => (valid n).2⟩, rfl, rfl, fun n schedule found => by
      simp only [found, Option.getD_some]⟩

end Reached

section Completed

variable {conf : FacilityConf} {times : InitTimes} {facility : Facility} {setup : Setup} {c t : Nat}
  (reached : (facilitySystem conf times).ReachesUnder Steady facility)
  (extends_ : Extends facility setup) (completed : t ∈ (facility.epn c).completions)

include reached extends_ completed

theorem completed_scheduled :
    ∃ schedule, facility.schedules[(t - 1) / facility.dispatch.amountEPNs]? = some schedule ∧
      (schedule[(t - 1) % facility.dispatch.amountEPNs]?).map toInt32 = some (c : Int) := by
  have intact := intact_of_reaches reached extends_
  have supplied := supplied_of_reaches reached
  obtain ⟨full, positive⟩ := ((intact.sound c).completed t).mp completed
  have inside : 0 < setup.numFLPS := by omega
  have counted := intact.completedAfter completed inside
  have number := (counted_sublist (intact.wired c 0)).subset counted
  obtain ⟨range, isTarget⟩ := List.mem_filter.mp number
  have target : setup.target t = some (c : Int) := by simpa using isTarget
  have atMost := supplied.sTF_le (extends_.numFLPS ▸ inside)
  have sent : t - 1 < (facility.flp 0).sTF := by
    obtain ⟨first, last⟩ := List.mem_range'_1.mp range
    change t < 1 + (facility.flp 0).sTF at last
    omega
  have below : (t - 1) / facility.dispatch.amountEPNs < facility.schedules.length := by
    refine Nat.div_lt_of_lt_mul ?_
    rw [Nat.mul_comm]
    omega
  have found := List.getElem?_eq_getElem below
  rw [Setup.target, extends_.amountEPNs, extends_.schedules _ _ found] at target
  exact ⟨_, found, target⟩

end Completed

end FairMQ.SchedulerFlpEpn
