import FairMQ.Data.TransitionSystem
import FairMQ.SchedulerFlpEpn.Schedule
import Mathlib.Algebra.BigOperators.Group.Finset.Piecewise
import Mathlib.Algebra.Order.BigOperators.Group.Finset
import Mathlib.Data.List.Nodup
import Mathlib.Data.List.Range
import Mathlib.Logic.Function.Basic

namespace FairMQ.SchedulerFlpEpn

open FairMQ.Data

/-! # Sub-time-frames on their way from the FLPs to the EPNs

Every FLP walks through the same schedules and sends its sub-time-frame number
`t` to the EPN that the schedules name at position `t - 1`.  Each FLP has its
own sub-channel at each EPN, and the EPN counts the arrivals per number.  The
counters are unbounded here: `int sTF` and the `int` counts do not overflow. -/

/-- The environment of the FLPs and EPNs.  All FLPs receive `schedule 0`,
`schedule 1`, ...; the entries are words that name EPNs after the FLP's
conversion to `int`. -/
structure Setup where
  numFLPS : Nat
  numEPNS : Nat
  amountEPNs : Nat
  schedule : Nat → List Nat
  full : ∀ k, (schedule k).length = amountEPNs
  inRange : ∀ k, ∀ entry ∈ schedule k, InRange numEPNS entry

structure FLPtoEPN where
  IdOfFlp : Nat
  sTF : Nat
deriving DecidableEq, Repr

/-- `flp::Run`: the schedules received so far, the current one, the loop
variable `i` over it, and the running number. -/
structure Flp where
  schedules : Nat
  arrayofEpns : List Int
  i : Nat
  sTF : Nat

/-- `received` is history: the messages taken from each sub-channel, counted or
not.  `completions` records the numbers for which the completion branch ran. -/
structure Epn where
  rcvdSTFs : Nat → Nat
  freeSlots : Int
  workers : Nat
  assertFailed : Bool
  received : Nat → List FLPtoEPN
  completions : List Nat

/-- FLPs by sub-channel (`myId - 1`), EPNs by number, and the data channels by
EPN number and sub-channel. -/
structure Frames where
  flp : Nat → Flp
  epn : Nat → Epn
  channel : Nat × Nat → List FLPtoEPN

inductive FrameAction where
  | receiveSchedule (flp : Nat)
  | send (flp : Nat)
  | receive (epn : Nat) (flp : Nat)
  | workerDone (epn : Nat)
deriving DecidableEq, Repr

def Epn.complete (epn : Epn) (sTF : Nat) : Epn :=
  if 0 ≤ epn.freeSlots - 1 then
    { epn with
      freeSlots := epn.freeSlots - 1, workers := epn.workers + 1
      completions := epn.completions ++ [sTF] }
  else { epn with freeSlots := 0, completions := epn.completions ++ [sTF] }

def Epn.increment (epn : Epn) (numFLPS sTF : Nat) : Epn :=
  { epn with
    rcvdSTFs := Function.update epn.rcvdSTFs sTF (epn.rcvdSTFs sTF + 1)
    assertFailed := epn.assertFailed || decide (numFLPS < epn.rcvdSTFs sTF + 1) }

def Epn.take (epn : Epn) (i : Nat) (message : FLPtoEPN) : Epn :=
  { epn with received := Function.update epn.received i (epn.received i ++ [message]) }

def Epn.receive (epn : Epn) (numFLPS i : Nat) (message : FLPtoEPN) : Epn :=
  if message.IdOfFlp ≠ i + 1 then epn.take i message
  else if epn.rcvdSTFs message.sTF + 1 = numFLPS then
    ((epn.take i message).increment numFLPS message.sTF).complete message.sTF
  else (epn.take i message).increment numFLPS message.sTF

section Steps

variable (setup : Setup)

def Frames.receiveSchedule (frames : Frames) (f : Nat) : Option Frames :=
  let flp := frames.flp f
  if f < setup.numFLPS ∧ flp.i = setup.amountEPNs then
    some { frames with
      flp := Function.update frames.flp f { flp with
        schedules := flp.schedules + 1
        arrayofEpns := (setup.schedule flp.schedules).map toInt32
        i := 0 } }
  else none

/-- One iteration of the sending loop.  `data[c-1]` of the FLP ends at
sub-channel `f` of EPN `c`; `none` is an index outside the sub-channels. -/
def Frames.send (frames : Frames) (f : Nat) : Option Frames :=
  let flp := frames.flp f
  if f < setup.numFLPS ∧ flp.i < setup.amountEPNs then
    match flp.arrayofEpns[flp.i]? with
    | none => none
    | some c =>
        if 0 ≤ c - 1 ∧ c - 1 < setup.numEPNS then
          some { frames with
            flp := Function.update frames.flp f { flp with i := flp.i + 1, sTF := flp.sTF + 1 }
            channel := Function.update frames.channel (c.toNat, f)
              (frames.channel (c.toNat, f) ++ [⟨f + 1, flp.sTF + 1⟩]) }
        else none
  else none

def Frames.receive (frames : Frames) (c f : Nat) : Option Frames :=
  match frames.channel (c, f) with
  | [] => none
  | message :: rest =>
      if f < setup.numFLPS then
        some { frames with
          epn := Function.update frames.epn c ((frames.epn c).receive setup.numFLPS f message)
          channel := Function.update frames.channel (c, f) rest }
      else none

def Frames.workerDone (frames : Frames) (c : Nat) : Option Frames :=
  let epn := frames.epn c
  if 0 < epn.workers then
    some { frames with
      epn := Function.update frames.epn c { epn with
        freeSlots := epn.freeSlots + 1, workers := epn.workers - 1 } }
  else none

def Frames.step (frames : Frames) : FrameAction → Option Frames
  | .receiveSchedule f => frames.receiveSchedule setup f
  | .send f => frames.send setup f
  | .receive c f => frames.receive setup c f
  | .workerDone c => frames.workerDone c

/-- Every FLP waits for its first schedule; every EPN has `maxSlots = 4`. -/
def Frames.start : Frames where
  flp := fun _ => ⟨0, [], setup.amountEPNs, 0⟩
  epn := fun _ => ⟨fun _ => 0, 4, 0, false, fun _ => [], []⟩
  channel := fun _ => []

def frameSystem : TransitionSystem Frames FrameAction where
  initial frames := frames = .start setup
  step := Frames.step setup

def Setup.target (t : Nat) : Option Int :=
  ((setup.schedule ((t - 1) / setup.amountEPNs))[(t - 1) % setup.amountEPNs]?).map toInt32

def Setup.sentTo (c f sTF : Nat) : List FLPtoEPN :=
  ((List.range' 1 sTF).filter fun t => setup.target t = some (c : Int)).map fun t => ⟨f + 1, t⟩

end Steps

def Epn.counted (epn : Epn) (f : Nat) : List Nat :=
  ((epn.received f).filter fun message => message.IdOfFlp = f + 1).map (·.sTF)

section Counting

variable {epn : Epn} {numFLPS i : Nat} {message : FLPtoEPN}

theorem complete_frame (sTF : Nat) :
    (epn.complete sTF).received = epn.received ∧ (epn.complete sTF).rcvdSTFs = epn.rcvdSTFs ∧
      (epn.complete sTF).assertFailed = epn.assertFailed ∧
      (epn.complete sTF).completions = epn.completions ++ [sTF] := by
  unfold Epn.complete
  split <;> exact ⟨rfl, rfl, rfl, rfl⟩

theorem received_receive : (epn.receive numFLPS i message).received =
    Function.update epn.received i (epn.received i ++ [message]) := by
  unfold Epn.receive
  split
  · rfl
  · split
    · rw [(complete_frame _).1]
      rfl
    · rfl

theorem counted_receive (known : message.IdOfFlp = i + 1) (f : Nat) :
    (epn.receive numFLPS i message).counted f =
      epn.counted f ++ if f = i then [message.sTF] else [] := by
  unfold Epn.counted
  rw [received_receive]
  by_cases same : f = i
  · subst same
    simp [known]
  · simp [same]

theorem rcvdSTFs_receive (known : message.IdOfFlp = i + 1) (t : Nat) :
    (epn.receive numFLPS i message).rcvdSTFs t =
      epn.rcvdSTFs t + if t = message.sTF then 1 else 0 := by
  have counts : (epn.receive numFLPS i message).rcvdSTFs =
      Function.update epn.rcvdSTFs message.sTF (epn.rcvdSTFs message.sTF + 1) := by
    rw [Epn.receive, if_neg (not_not_intro known)]
    split
    · rw [(complete_frame _).2.1]
      rfl
    · rfl
  rw [counts, Function.update_apply]
  by_cases same : t = message.sTF
  · subst same
    simp
  · simp [same]

theorem completions_receive (known : message.IdOfFlp = i + 1) :
    (epn.receive numFLPS i message).completions = epn.completions ++
      if epn.rcvdSTFs message.sTF + 1 = numFLPS then [message.sTF] else [] := by
  rw [Epn.receive, if_neg (not_not_intro known)]
  split
  · rw [(complete_frame _).2.2.2]
    rfl
  · simp [Epn.increment, Epn.take]

theorem assertFailed_receive (known : message.IdOfFlp = i + 1) :
    (epn.receive numFLPS i message).assertFailed =
      (epn.assertFailed || decide (numFLPS < epn.rcvdSTFs message.sTF + 1)) := by
  rw [Epn.receive, if_neg (not_not_intro known)]
  split
  · rw [(complete_frame _).2.2.1]
    rfl
  · rfl

structure EpnSound (numFLPS : Nat) (epn : Epn) : Prop where
  counts : ∀ t, epn.rcvdSTFs t = ∑ f ∈ Finset.range numFLPS, (epn.counted f).count t
  completed : ∀ t, t ∈ epn.completions ↔ epn.rcvdSTFs t = numFLPS ∧ 0 < epn.rcvdSTFs t
  once : epn.completions.Nodup
  asserted : epn.assertFailed = false

theorem sum_counted_receive (known : message.IdOfFlp = i + 1) (inside : i < numFLPS) (t : Nat) :
    ∑ f ∈ Finset.range numFLPS, ((epn.receive numFLPS i message).counted f).count t =
      (∑ f ∈ Finset.range numFLPS, (epn.counted f).count t) +
        if t = message.sTF then 1 else 0 := by
  have each : ∀ f, ((epn.receive numFLPS i message).counted f).count t =
      (epn.counted f).count t + if f = i then (if t = message.sTF then 1 else 0) else 0 := by
    intro f
    rw [counted_receive known, List.count_append]
    by_cases same : f = i
    · by_cases number : t = message.sTF
      · simp [same, number]
      · simp [same, number, Ne.symm number]
    · simp [same]
  simp only [each, Finset.sum_add_distrib, Finset.sum_ite_eq', Finset.mem_range, inside, if_true]

theorem sum_count_le (distinct : ∀ f < numFLPS, (epn.counted f).Nodup) (t : Nat) :
    ∑ f ∈ Finset.range numFLPS, (epn.counted f).count t ≤ numFLPS := by
  have bound := Finset.sum_le_card_nsmul (Finset.range numFLPS)
    (fun f => (epn.counted f).count t) 1 (by
      intro f member
      exact List.nodup_iff_count_le_one.mp (distinct f (Finset.mem_range.mp member)) t)
  simpa using bound

theorem EpnSound.receive (sound : EpnSound numFLPS epn) (known : message.IdOfFlp = i + 1)
    (inside : i < numFLPS)
    (distinct : ∀ f < numFLPS, ((epn.receive numFLPS i message).counted f).Nodup) :
    EpnSound numFLPS (epn.receive numFLPS i message) := by
  have counts : ∀ t, (epn.receive numFLPS i message).rcvdSTFs t =
      ∑ f ∈ Finset.range numFLPS, ((epn.receive numFLPS i message).counted f).count t := by
    intro t
    rw [rcvdSTFs_receive known, sum_counted_receive known inside, sound.counts]
  have bounded : epn.rcvdSTFs message.sTF + 1 ≤ numFLPS := by
    have total := sum_count_le distinct message.sTF
    rw [← counts, rcvdSTFs_receive known, if_pos rfl] at total
    exact total
  have fresh : message.sTF ∉ epn.completions := by
    intro member
    have full := ((sound.completed _).mp member).1
    omega
  refine ⟨counts, ?_, ?_, ?_⟩
  · intro t
    rw [completions_receive known, rcvdSTFs_receive known, List.mem_append, sound.completed]
    by_cases same : t = message.sTF
    · subst same
      by_cases full : epn.rcvdSTFs message.sTF + 1 = numFLPS
      · simp [full]
        omega
      · simp [full]
        omega
    · by_cases full : epn.rcvdSTFs message.sTF + 1 = numFLPS
      · simp [full, same]
      · simp [full, same]
  · rw [completions_receive known]
    split_ifs
    · exact List.nodup_append.mpr ⟨sound.once, List.nodup_singleton _, by
        intro t member other isOther
        rw [List.mem_singleton.mp isOther]
        exact fun same => fresh (same ▸ member)⟩
    · simpa using sound.once
  · rw [assertFailed_receive known, sound.asserted]
    simpa using bounded

end Counting

section Integrity

variable {setup : Setup} {frames : Frames}

structure Intact (setup : Setup) (frames : Frames) : Prop where
  position : ∀ f, (frames.flp f).sTF + setup.amountEPNs =
    (frames.flp f).schedules * setup.amountEPNs + (frames.flp f).i ∧
      (frames.flp f).i ≤ setup.amountEPNs
  current : ∀ f, (frames.flp f).i < setup.amountEPNs → (frames.flp f).arrayofEpns =
    (setup.schedule ((frames.flp f).schedules - 1)).map toInt32
  wired : ∀ c f, (frames.epn c).received f ++ frames.channel (c, f) =
    setup.sentTo c f (frames.flp f).sTF
  sound : ∀ c, EpnSound setup.numFLPS (frames.epn c)

theorem Intact.start : Intact setup (.start setup) where
  position := by
    intro f
    simp [Frames.start]
  current := by
    intro f sending
    simp [Frames.start] at sending
  wired := by
    intro c f
    rfl
  sound := by
    intro c
    refine ⟨?_, ?_, List.nodup_nil, rfl⟩
    · intro t
      simp [Frames.start, Epn.counted]
    · intro t
      simp [Frames.start]

theorem Intact.target (intact : Intact setup frames) {f : Nat} {c : Int}
    (sending : (frames.flp f).i < setup.amountEPNs)
    (named : (frames.flp f).arrayofEpns[(frames.flp f).i]? = some c) :
    setup.target ((frames.flp f).sTF + 1) = some c := by
  obtain ⟨position, _⟩ := intact.position f
  have started : 0 < (frames.flp f).schedules := by
    cases none : (frames.flp f).schedules with
    | zero =>
        rw [none] at position
        omega
    | succ k => omega
  obtain ⟨k, schedules⟩ := Nat.exists_eq_add_of_lt started
  rw [intact.current f sending, schedules] at named
  simp only [Nat.zero_add, Nat.add_sub_cancel, List.getElem?_map] at named
  have number : (frames.flp f).sTF = (frames.flp f).i + setup.amountEPNs * k := by
    rw [schedules, Nat.zero_add, Nat.add_mul, Nat.mul_comm k] at position
    omega
  have positive : 0 < setup.amountEPNs := by omega
  unfold Setup.target
  rw [Nat.add_sub_cancel, number, Nat.add_mul_div_left _ _ positive,
    Nat.div_eq_of_lt sending, Nat.zero_add, Nat.add_mul_mod_self_left, Nat.mod_eq_of_lt sending]
  exact named

theorem sentTo_succ (c f sTF : Nat) : setup.sentTo c f (sTF + 1) = setup.sentTo c f sTF ++
    if setup.target (sTF + 1) = some (c : Int) then [⟨f + 1, sTF + 1⟩] else [] := by
  unfold Setup.sentTo
  rw [List.range'_concat, List.filter_append, List.map_append]
  congr 1
  by_cases named : setup.target (sTF + 1) = some (c : Int)
  · simp [named, Nat.add_comm]
  · simp [named, Nat.add_comm]

theorem Intact.receiveSchedule (intact : Intact setup frames) {f : Nat}
    (waiting : (frames.flp f).i = setup.amountEPNs) :
    Intact setup { frames with
      flp := Function.update frames.flp f { frames.flp f with
        schedules := (frames.flp f).schedules + 1
        arrayofEpns := (setup.schedule (frames.flp f).schedules).map toInt32
        i := 0 } } := by
  refine ⟨?_, ?_, ?_, intact.sound⟩
  · intro g
    by_cases same : g = f
    · subst same
      have position := (intact.position g).1
      rw [waiting] at position
      simp only [Function.update_self]
      refine ⟨?_, Nat.zero_le _⟩
      rw [Nat.add_mul]
      omega
    · simpa [same] using intact.position g
  · intro g sending
    by_cases same : g = f
    · subst same
      simp
    · simp only [Function.update_of_ne same] at sending ⊢
      exact intact.current g sending
  · intro c g
    have wired := intact.wired c g
    by_cases same : g = f
    · subst same
      simpa using wired
    · simpa [same] using wired

theorem Intact.send (intact : Intact setup frames) {f : Nat} {c : Int}
    (sending : (frames.flp f).i < setup.amountEPNs)
    (named : (frames.flp f).arrayofEpns[(frames.flp f).i]? = some c) (valid : 0 ≤ c - 1) :
    Intact setup { frames with
      flp := Function.update frames.flp f { frames.flp f with
        i := (frames.flp f).i + 1, sTF := (frames.flp f).sTF + 1 }
      channel := Function.update frames.channel (c.toNat, f)
        (frames.channel (c.toNat, f) ++ [⟨f + 1, (frames.flp f).sTF + 1⟩]) } := by
  have target := intact.target sending named
  refine ⟨?_, ?_, ?_, intact.sound⟩
  · intro g
    by_cases same : g = f
    · subst same
      have position := (intact.position g).1
      simp only [Function.update_self]
      omega
    · simpa [same] using intact.position g
  · intro g stillSending
    by_cases same : g = f
    · subst same
      simp only [Function.update_self] at stillSending ⊢
      exact intact.current g (by omega)
    · simp only [Function.update_of_ne same] at stillSending ⊢
      exact intact.current g stillSending
  · intro d g
    have wired := intact.wired d g
    by_cases same : g = f
    · subst same
      simp only [Function.update_self]
      rw [sentTo_succ, ← wired, target]
      by_cases isTarget : d = c.toNat
      · have asInt : ((c.toNat : Nat) : Int) = c := by omega
        subst isTarget
        simp [asInt]
      · have other : (d, g) ≠ (c.toNat, g) := by simp [isTarget]
        have notNamed : ¬ (some c = some (d : Int)) := by
          intro equal
          have equal := Option.some.inj equal
          omega
        simp [Function.update_of_ne other, notNamed]
    · have other : (d, g) ≠ (c.toNat, f) := by simp [same]
      simpa [Function.update_of_ne other, same] using wired

theorem counted_sublist {epn : Epn} {c f sTF : Nat} {rest : List FLPtoEPN}
    (wired : epn.received f ++ rest = setup.sentTo c f sTF) :
    (epn.counted f).Sublist ((List.range' 1 sTF).filter fun t => setup.target t = some (c : Int)) := by
  have received : (epn.received f).Sublist (setup.sentTo c f sTF) := by
    rw [← wired]
    exact List.sublist_append_left _ _
  have counted : (epn.counted f).Sublist ((setup.sentTo c f sTF).map (·.sTF)) :=
    (List.filter_sublist.trans received).map _
  simpa [Setup.sentTo, Function.comp_def] using counted

theorem counted_nodup {epn : Epn} {c f sTF : Nat} {rest : List FLPtoEPN}
    (wired : epn.received f ++ rest = setup.sentTo c f sTF) : (epn.counted f).Nodup :=
  (counted_sublist wired).nodup ((List.nodup_range' ..).filter _)

theorem Intact.receive (intact : Intact setup frames) {c f : Nat} {message : FLPtoEPN}
    {rest : List FLPtoEPN} (queued : frames.channel (c, f) = message :: rest)
    (inside : f < setup.numFLPS) :
    Intact setup { frames with
      epn := Function.update frames.epn c ((frames.epn c).receive setup.numFLPS f message)
      channel := Function.update frames.channel (c, f) rest } := by
  have known : message.IdOfFlp = f + 1 := by
    have member : message ∈ setup.sentTo c f (frames.flp f).sTF := by
      rw [← intact.wired c f, queued]
      simp
    obtain ⟨t, _, rfl⟩ := List.mem_map.mp member
    rfl
  have wired : ∀ d g, (Function.update frames.epn c
        ((frames.epn c).receive setup.numFLPS f message) d).received g ++
      Function.update frames.channel (c, f) rest (d, g) =
      setup.sentTo d g (frames.flp g).sTF := by
    intro d g
    have old := intact.wired d g
    by_cases sameEpn : d = c
    · subst sameEpn
      rw [Function.update_self, received_receive]
      by_cases sameFlp : g = f
      · subst sameFlp
        rw [queued] at old
        simpa using old
      · simpa [sameFlp] using old
    · simpa [sameEpn] using old
  refine ⟨intact.position, intact.current, wired, ?_⟩
  intro d
  by_cases sameEpn : d = c
  · subst sameEpn
    simp only [Function.update_self]
    refine (intact.sound d).receive known inside fun g _ => ?_
    have newWired := wired d g
    rw [Function.update_self] at newWired
    exact counted_nodup newWired
  · simpa [sameEpn] using intact.sound d

theorem Intact.workerDone (intact : Intact setup frames) (c : Nat) :
    Intact setup { frames with
      epn := Function.update frames.epn c { frames.epn c with
        freeSlots := (frames.epn c).freeSlots + 1, workers := (frames.epn c).workers - 1 } } := by
  refine ⟨intact.position, intact.current, ?_, ?_⟩
  · intro d g
    have old := intact.wired d g
    by_cases same : d = c
    · subst same
      simpa using old
    · simpa [same] using old
  · intro d
    by_cases same : d = c
    · subst same
      obtain ⟨counts, completed, once, asserted⟩ := intact.sound d
      simp only [Function.update_self]
      exact ⟨counts, completed, once, asserted⟩
    · simpa [same] using intact.sound d

theorem Intact.step {after : Frames} {action : FrameAction} (intact : Intact setup frames)
    (stepped : frames.step setup action = some after) : Intact setup after := by
  cases action with
  | receiveSchedule f =>
      simp only [Frames.step, Frames.receiveSchedule] at stepped
      split at stepped <;> cases stepped
      rename_i ready
      exact intact.receiveSchedule ready.2
  | send f =>
      simp only [Frames.step, Frames.send] at stepped
      split at stepped
      · rename_i sending
        split at stepped
        · contradiction
        · rename_i c named
          split at stepped <;> cases stepped
          rename_i valid
          exact intact.send sending.2 named valid.1
      · contradiction
  | receive c f =>
      simp only [Frames.step, Frames.receive] at stepped
      split at stepped
      · contradiction
      · rename_i message rest queued
        split at stepped <;> cases stepped
        rename_i inside
        exact intact.receive queued inside
  | workerDone c =>
      simp only [Frames.step, Frames.workerDone] at stepped
      split at stepped <;> cases stepped
      exact intact.workerDone c

end Integrity

/-- What must never happen to sub-time-frame `t` on its way: it is received
elsewhere, counted too often, completed twice or before every FLP was counted. -/
structure FrameIntegrity (setup : Setup) (frames : Frames) (t : Nat) : Prop where
  routed : ∀ c f, ∀ message ∈ (frames.epn c).received f, message.sTF = t →
    ∃ k j, t - 1 = k * setup.amountEPNs + j ∧ j < setup.amountEPNs ∧
      ((setup.schedule k)[j]?).map toInt32 = some (c : Int)
  bounded : ∀ c, (frames.epn c).rcvdSTFs t ≤ setup.numFLPS
  asserted : ∀ c, (frames.epn c).assertFailed = false
  completedOnce : ∀ c, (frames.epn c).completions.count t ≤ 1
  completedWhere : ∀ c d, t ∈ (frames.epn c).completions → t ∈ (frames.epn d).completions → c = d
  completedAfter : ∀ c, t ∈ (frames.epn c).completions →
    ∀ f < setup.numFLPS, t ∈ (frames.epn c).counted f

section Result

variable {setup : Setup} {frames : Frames} {c f t : Nat}

theorem Intact.routed (intact : Intact setup frames) {message : FLPtoEPN}
    (received : message ∈ (frames.epn c).received f) :
    setup.target message.sTF = some (c : Int) := by
  have member : message ∈ setup.sentTo c f (frames.flp f).sTF := by
    rw [← intact.wired c f]
    exact List.mem_append_left _ received
  obtain ⟨number, isSent, rfl⟩ := List.mem_map.mp member
  simpa using (List.mem_filter.mp isSent).2

theorem Intact.completedAfter (intact : Intact setup frames)
    (completed : t ∈ (frames.epn c).completions) (inside : f < setup.numFLPS) :
    t ∈ (frames.epn c).counted f := by
  have sound := intact.sound c
  obtain ⟨full, _⟩ := (sound.completed t).mp completed
  rw [sound.counts] at full
  by_contra missing
  have atMost : ∀ g ∈ Finset.range setup.numFLPS, ((frames.epn c).counted g).count t ≤ 1 := by
    intro g _
    exact List.nodup_iff_count_le_one.mp (counted_nodup (intact.wired c g)) t
  have less : ((frames.epn c).counted f).count t < 1 := by
    rw [List.count_eq_zero_of_not_mem missing]
    exact Nat.one_pos
  have strict := Finset.sum_lt_sum atMost ⟨f, Finset.mem_range.mpr inside, less⟩
  simp at strict
  omega

theorem Intact.completed_target (intact : Intact setup frames)
    (completed : t ∈ (frames.epn c).completions) : setup.target t = some (c : Int) := by
  obtain ⟨full, positive⟩ := ((intact.sound c).completed t).mp completed
  have inside : 0 < setup.numFLPS := by omega
  have counted := intact.completedAfter completed inside
  obtain ⟨message, isCounted, rfl⟩ := List.mem_map.mp counted
  exact intact.routed (List.mem_filter.mp isCounted).1

theorem target_position (target : setup.target t = some (c : Int)) :
    ∃ k j, t - 1 = k * setup.amountEPNs + j ∧ j < setup.amountEPNs ∧
      ((setup.schedule k)[j]?).map toInt32 = some (c : Int) := by
  refine ⟨(t - 1) / setup.amountEPNs, (t - 1) % setup.amountEPNs, ?_, ?_, target⟩
  · exact (Nat.div_add_mod' _ _).symm
  · obtain ⟨entry, found, _⟩ := Option.map_eq_some_iff.mp target
    have bound := (List.getElem?_eq_some_iff.mp found).1
    rwa [setup.full] at bound

/-- Every interleaving of the FLPs and the EPNs delivers every sub-time-frame to
one EPN, which completes it at most once and with all its parts. -/
theorem time_frames_intact (reached : (frameSystem setup).Reaches frames) (t : Nat) :
    FrameIntegrity setup frames t := by
  have intact : Intact setup frames := by
    refine reached.invariant ?_ ?_
    · intro state start
      cases start
      exact .start
    · intro before action after intact _ stepped
      exact intact.step stepped
  refine ⟨?_, ?_, ?_, ?_, ?_, ?_⟩
  · intro c f message received number
    rw [← number]
    exact target_position (intact.routed received)
  · intro c
    rw [(intact.sound c).counts]
    exact sum_count_le (fun g _ => counted_nodup (intact.wired c g)) t
  · intro c
    exact (intact.sound c).asserted
  · intro c
    exact List.nodup_iff_count_le_one.mp (intact.sound c).once t
  · intro c d here there
    have same := (intact.completed_target here).symm.trans (intact.completed_target there)
    have same := Option.some.inj same
    omega
  · intro c completed f inside
    exact intact.completedAfter completed inside

end Result

def twoByTwo : Setup where
  numFLPS := 2
  numEPNS := 2
  amountEPNs := 2
  schedule := fun _ => [2, 1]
  full := fun _ => rfl
  inRange := by
    intro k entry member
    rcases List.mem_cons.mp member with rfl | member
    · exact ⟨by decide, by decide⟩
    · rw [List.mem_singleton.mp member]
      exact ⟨by decide, by decide⟩

theorem first_frame_intact :
    ∃ frames, (frameSystem twoByTwo).Reaches frames ∧ 1 ∈ (frames.epn 2).completions ∧
      FrameIntegrity twoByTwo frames 1 := by
  obtain ⟨frames, reached, completed⟩ :
      ∃ frames, (frameSystem twoByTwo).Reaches frames ∧ 1 ∈ (frames.epn 2).completions :=
    TransitionSystem.reaches_of_runUnder (Frames.start twoByTwo)
      [.receiveSchedule 1, .receiveSchedule 0, .send 0, .send 0, .send 1, .receive 1 0,
        .receive 2 0, .receive 2 1] rfl (by decide)
  exact ⟨frames, reached, completed, time_frames_intact reached 1⟩

end FairMQ.SchedulerFlpEpn
