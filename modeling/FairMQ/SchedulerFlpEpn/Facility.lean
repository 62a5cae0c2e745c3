import FairMQ.Data.Rounding
import FairMQ.SchedulerFlpEpn.Sender
import FairMQ.SchedulerFlpEpn.Slots
import FairMQ.SchedulerFlpEpn.View

namespace FairMQ.SchedulerFlpEpn

open FairMQ.Data

/-! # The whole facility

The loop that the scheduler, the FLPs and the EPNs form: every EPN reports its
free slots once a second, the scheduler takes one report of each EPN in turn and
then sends a schedule to all FLPs, the FLPs send their sub-time-frames to the
EPNs of the schedule, and a time frame that an EPN has completed takes one of its
slots.  All channels are FIFO and lossless.  A device whose programme time is
over takes no more steps. -/

structure EPNtoScheduler where
  Id : Int
  freeSlots : Nat
deriving DecidableEq, Repr

/-- One EPN: what `receive` has counted, the slots that it shares with the
`MyDelayedFun` threads and with the thread that reports them, and the end of that
thread's `sleep_for`. -/
structure EpnNode where
  rcvdSTFs : Nat → Nat
  assertFailed : Bool
  received : Nat → List FLPtoEPN
  completions : List Nat
  reporting : Reporting
  wake : Nat

/-- Where the reporting thread of an EPN is when the scheduler begins: the messages that it has
sent, all with the four slots of `InitTask`, and the time of its next one. -/
structure EpnStart where
  early : Nat
  wake : Nat
deriving DecidableEq, Repr

namespace EpnNode

def start (begun : EpnStart) : EpnNode where
  rcvdSTFs := fun _ => 0
  assertFailed := false
  received := fun _ => []
  completions := []
  reporting := { Reporting.start 4 with sent := List.replicate begun.early 4 }
  wake := begun.wake

def asEpn (node : EpnNode) : Epn where
  rcvdSTFs := node.rcvdSTFs
  freeSlots := node.reporting.slots.freeSlots
  workers := node.reporting.slots.threads
  assertFailed := node.assertFailed
  received := node.received
  completions := node.completions

def take (node : EpnNode) (i : Nat) (message : FLPtoEPN) : EpnNode :=
  { node with received := Function.update node.received i (node.received i ++ [message]) }

def increment (node : EpnNode) (numFLPS sTF : Nat) : EpnNode :=
  { node with
    rcvdSTFs := Function.update node.rcvdSTFs sTF (node.rcvdSTFs sTF + 1)
    assertFailed := node.assertFailed || decide (numFLPS < node.rcvdSTFs sTF + 1) }

/-- `epn::receive` for one message from sub-channel `i`, up to `freeSlots--`; the
rest of the branch are steps of its own. -/
def receive (node : EpnNode) (numFLPS i : Nat) (message : FLPtoEPN) : Option EpnNode :=
  if node.reporting.slots.branch = .outside then
    if message.IdOfFlp ≠ i + 1 then some (node.take i message)
    else if node.rcvdSTFs message.sTF + 1 = numFLPS then
      (node.reporting.step (.slot .decrement)).map fun reporting =>
        { (node.take i message).increment numFLPS message.sTF with
          reporting, completions := node.completions ++ [message.sTF] }
    else some ((node.take i message).increment numFLPS message.sTF)
  else none

def reports (node : EpnNode) : List Nat :=
  node.reporting.sent.reverse

end EpnNode

def Flp.accept (flp : Flp) (amountEPNs : Nat) (message : List Nat) : Flp :=
  { flp with
    schedules := flp.schedules + 1
    arrayofEpns := if message.length = amountEPNs then message.map toInt32 else flp.arrayofEpns
    i := 0 }

def Flp.next (flp : Flp) : Flp :=
  { flp with i := flp.i + 1, sTF := flp.sTF + 1 }

def uint64Sub (left right : Nat) : Nat :=
  uint64Add left (2 ^ 64 - right)

def histKey (now : Nat) : Nat :=
  now / 1000 * 1000

/-- `localkey >= keyForGeneratingArray + intervalFLPs*intMs`: the factor
`intervalFLPs` is a `float`, and so are the product, the sum and the comparison. -/
def intervalPassed (localkey keyForGeneratingArray : Nat) : Bool :=
  decide (toFloat (toFloat keyForGeneratingArray + 500) ≤ toFloat localkey)

def timeLimit (programTime : Nat) : Nat :=
  uint64Sub (programTime * 60 * 1000 % 2 ^ 64) 1000

/-- `i` is the loop variable of `ConditionalRun`, and `awaiting` says that it is in
`Receive`.  EPNs are named by their `Id`, FLPs by their sub-channel.  `reports` are
the messages on `epnsched`, `channel` those on `data`.  `schedules`, `log` and
`roundKey` are history: the schedules generated, the reports handled (the newest
first), and the key of the first report of the current round. -/
structure Facility where
  now : Nat
  dispatch : Dispatch
  i : Nat
  awaiting : Bool
  terminated : Bool
  keyForGeneratingArray : Nat
  keyForExiting : Nat
  programTime : Nat
  reports : Nat → List EPNtoScheduler
  flp : Nat → Flp
  epn : Nat → EpnNode
  channel : Nat × Nat → List FLPtoEPN
  schedules : List (List Nat)
  log : List Report
  roundKey : Nat

inductive FacilityAction where
  | tick (milliseconds : Nat)
  | report (epn : Nat)
  | check
  | collect
  | endRound
  | startThread
  | clear
  | sendSchedule (thread : Nat)
  | receiveSchedule (flp : Nat)
  | sendFrame (flp : Nat)
  | receiveFrame (epn : Nat) (flp : Nat)
  | slot (epn : Nat) (action : SlotAction)
deriving DecidableEq, Repr

namespace Facility

variable (facility : Facility)

def numEPNS : Nat := facility.dispatch.scheduler.numEPNS

def key : Nat := histKey facility.now

def collecting : Bool :=
  decide (facility.dispatch.main = .collecting) && !facility.terminated

def reported (c : Nat) (reporting : Reporting) : Facility :=
  { facility with
    epn := Function.update facility.epn c
      { facility.epn c with reporting, wake := facility.now + 1000 }
    reports := Function.update facility.reports c (facility.reports c ++
      [⟨toInt32 c, toUint64 (facility.epn c).reporting.slots.freeSlots⟩]) }

def report (c : Nat) : Option Facility :=
  if 1 ≤ c ∧ c ≤ facility.numEPNS ∧ (facility.epn c).wake ≤ facility.now then
    ((facility.epn c).reporting.step .report).map (facility.reported c)
  else none

/-- The test before a `Receive`.  At the end of the time `ChangeState("READY")`
throws, since no event has that name, and `RunWrapper` leaves `RUNNING`. -/
def check : Option Facility :=
  if facility.collecting = true ∧ facility.awaiting = false ∧ facility.i < facility.numEPNS then
    if timeLimit facility.programTime < uint64Sub facility.key facility.keyForExiting then
      some { facility with terminated := true }
    else some { facility with awaiting := true }
  else none

def asReport (message : EPNtoScheduler) : Report :=
  ⟨facility.key, toUint64 message.Id, message.freeSlots⟩

def collected (message : EPNtoScheduler) (rest : List EPNtoScheduler) (dispatch : Dispatch) :
    Facility :=
  { facility with
    dispatch, i := facility.i + 1, awaiting := false
    reports := Function.update facility.reports (facility.i + 1) rest
    log := facility.asReport message :: facility.log
    roundKey := if facility.i = 0 then facility.key else facility.roundKey }

def collect : Option Facility :=
  match facility.awaiting, facility.reports (facility.i + 1) with
  | true, message :: rest =>
      (facility.dispatch.step (.update (facility.asReport message))).map
        (facility.collected message rest)
  | _, _ => none

def scheduled (dispatch : Dispatch) : Facility :=
  { facility with
    dispatch, i := 0, keyForGeneratingArray := facility.key
    schedules := facility.schedules ++ [dispatch.vectorForFlps] }

/-- The end of a round: a new schedule, or the same exception as above. -/
def endRound : Option Facility :=
  if facility.collecting = true ∧ facility.i = facility.numEPNS then
    if intervalPassed facility.key facility.keyForGeneratingArray = true ∧
        uint64Sub facility.key facility.keyForExiting < timeLimit facility.programTime then
      (facility.dispatch.step .assign).map facility.scheduled
    else some { facility with terminated := true }
  else none

def dispatched (action : DispatchAction) : Option Facility :=
  (facility.dispatch.step action).map fun dispatch => { facility with dispatch }

def receiveSchedule (f : Nat) : Option Facility :=
  let flp := facility.flp f
  if f < facility.dispatch.numFLPS ∧ flp.i = facility.dispatch.amountEPNs then
    match facility.dispatch.channel f with
    | [] => none
    | message :: _ =>
        (facility.dispatch.step (.receive f)).map fun dispatch =>
          { facility with
            dispatch
            flp := Function.update facility.flp f
              (flp.accept facility.dispatch.amountEPNs message) }
  else none

/-- One iteration of the sending loop; `none` is an index outside the sub-channels. -/
def sendFrame (f : Nat) : Option Facility :=
  let flp := facility.flp f
  if f < facility.dispatch.numFLPS ∧ flp.i < facility.dispatch.amountEPNs then
    match flp.arrayofEpns[flp.i]? with
    | none => none
    | some c =>
        if 0 ≤ c - 1 ∧ c - 1 < facility.numEPNS then
          some { facility with
            flp := Function.update facility.flp f flp.next
            channel := Function.update facility.channel (c.toNat, f)
              (facility.channel (c.toNat, f) ++ [⟨f + 1, flp.sTF + 1⟩]) }
        else none
  else none

def receiveFrame (c f : Nat) : Option Facility :=
  match facility.channel (c, f) with
  | [] => none
  | message :: rest =>
      if f < facility.dispatch.numFLPS then
        ((facility.epn c).receive facility.dispatch.numFLPS f message).map fun node =>
          { facility with
            epn := Function.update facility.epn c node
            channel := Function.update facility.channel (c, f) rest }
      else none

def slot (c : Nat) (action : SlotAction) : Option Facility :=
  if action = .decrement then none
  else
    ((facility.epn c).reporting.step (.slot action)).map fun reporting =>
      { facility with
        epn := Function.update facility.epn c { facility.epn c with reporting } }

def step : FacilityAction → Option Facility
  | .tick milliseconds => some { facility with now := facility.now + milliseconds }
  | .report c => facility.report c
  | .check => facility.check
  | .collect => facility.collect
  | .endRound => facility.endRound
  | .startThread => facility.dispatched .startThread
  | .clear => facility.dispatched .clear
  | .sendSchedule thread => facility.dispatched (.send thread)
  | .receiveSchedule f => facility.receiveSchedule f
  | .sendFrame f => facility.sendFrame f
  | .receiveFrame c f => facility.receiveFrame c f
  | .slot c action => facility.slot c action

end Facility

structure FacilityConf where
  numEPNS : Nat
  numFLPS : Nat
  amountEPNs : Nat
  programTime : Nat
deriving DecidableEq, Repr

/-- `InitTask` of the scheduler reads the clock four times.  The EPNs have been started before
or will be later. -/
structure InitTimes where
  toFile : Nat
  generating : Nat
  exiting : Nat
  now : Nat
  epn : Nat → EpnStart

def Facility.start (conf : FacilityConf) (times : InitTimes) : Facility where
  now := times.now
  dispatch := .start ((Scheduler.configured conf.numEPNS (histKey times.toFile)).initializeHistory
    (histKey times.now)) conf.numFLPS conf.amountEPNs
  i := 0
  awaiting := false
  terminated := false
  keyForGeneratingArray := histKey times.generating
  keyForExiting := histKey times.exiting
  programTime := conf.programTime
  reports := fun c => List.replicate (times.epn c).early ⟨toInt32 c, 4⟩
  flp := fun _ => ⟨0, [], conf.amountEPNs, 0⟩
  epn := fun c => .start (times.epn c)
  channel := fun _ => []
  schedules := []
  log := []
  roundKey := 0

def facilitySystem (conf : FacilityConf) (times : InitTimes) :
    TransitionSystem Facility FacilityAction where
  initial facility := facility = .start conf times
  step := Facility.step

namespace Dispatch

variable (dispatch : Dispatch)

def assigned (schedule : List Nat) : Dispatch :=
  { dispatch with vectorForFlps := schedule, main := .assigned }

def started : Dispatch :=
  { dispatch with threads := dispatch.threads ++ [0], main := .started }

def posted (thread p : Nat) : Dispatch :=
  { dispatch with
    threads := dispatch.threads.set thread (p + 1)
    channel := Function.update dispatch.channel p (dispatch.channel p ++ [dispatch.message]) }

def delivered (f : Nat) (message : List Nat) (rest : List (List Nat)) : Dispatch :=
  { dispatch with
    channel := Function.update dispatch.channel f rest
    received := Function.update dispatch.received f (dispatch.received f ++ [message]) }

end Dispatch

inductive FacilityEffect (facility : Facility) : FacilityAction → Facility → Prop where
  | tick {milliseconds : Nat} :
      FacilityEffect facility (.tick milliseconds)
        { facility with now := facility.now + milliseconds }
  | report {c : Nat} {reporting : Reporting} (first : 1 ≤ c) (last : c ≤ facility.numEPNS)
      (awake : (facility.epn c).wake ≤ facility.now)
      (read : (facility.epn c).reporting.step .report = some reporting) :
      FacilityEffect facility (.report c) (facility.reported c reporting)
  | expire (collecting : facility.collecting = true)
      (exceeded : timeLimit facility.programTime < uint64Sub facility.key facility.keyForExiting) :
      FacilityEffect facility .check { facility with terminated := true }
  | check (collecting : facility.collecting = true) (inside : facility.i < facility.numEPNS) :
      FacilityEffect facility .check { facility with awaiting := true }
  | collect {message : EPNtoScheduler} {rest : List EPNtoScheduler} {scheduler : Scheduler}
      (awaiting : facility.awaiting = true) (main : facility.dispatch.main = .collecting)
      (queued : facility.reports (facility.i + 1) = message :: rest)
      (updated : facility.dispatch.scheduler.update facility.key (toUint64 message.Id)
        message.freeSlots = .updated scheduler) :
      FacilityEffect facility .collect
        (facility.collected message rest { facility.dispatch with scheduler })
  | schedule {schedule : List Nat} (complete : facility.i = facility.numEPNS)
      (main : facility.dispatch.main = .collecting)
      (generated : facility.dispatch.scheduler.generateSchedule facility.dispatch.amountEPNs =
        some schedule) :
      FacilityEffect facility .endRound (facility.scheduled (facility.dispatch.assigned schedule))
  | leave (complete : facility.i = facility.numEPNS)
      (refused : intervalPassed facility.key facility.keyForGeneratingArray = true →
        timeLimit facility.programTime ≤ uint64Sub facility.key facility.keyForExiting) :
      FacilityEffect facility .endRound { facility with terminated := true }
  | startThread (main : facility.dispatch.main = .assigned) :
      FacilityEffect facility .startThread { facility with dispatch := facility.dispatch.started }
  | clear (main : facility.dispatch.main = .started) :
      FacilityEffect facility .clear
        { facility with dispatch := { facility.dispatch with main := .collecting } }
  | sendSchedule {thread p : Nat} (running : facility.dispatch.threads[thread]? = some p)
      (inside : p < facility.dispatch.numFLPS) :
      FacilityEffect facility (.sendSchedule thread)
        { facility with dispatch := facility.dispatch.posted thread p }
  | receiveSchedule {f : Nat} {message : List Nat} {rest : List (List Nat)}
      (inside : f < facility.dispatch.numFLPS)
      (waiting : (facility.flp f).i = facility.dispatch.amountEPNs)
      (queued : facility.dispatch.channel f = message :: rest) :
      FacilityEffect facility (.receiveSchedule f)
        { facility with
          dispatch := facility.dispatch.delivered f message rest
          flp := Function.update facility.flp f
            ((facility.flp f).accept facility.dispatch.amountEPNs message) }
  | sendFrame {f : Nat} {c : Int} (inside : f < facility.dispatch.numFLPS)
      (sending : (facility.flp f).i < facility.dispatch.amountEPNs)
      (named : (facility.flp f).arrayofEpns[(facility.flp f).i]? = some c) (valid : 0 ≤ c - 1) :
      FacilityEffect facility (.sendFrame f)
        { facility with
          flp := Function.update facility.flp f (facility.flp f).next
          channel := Function.update facility.channel (c.toNat, f)
            (facility.channel (c.toNat, f) ++ [⟨f + 1, (facility.flp f).sTF + 1⟩]) }
  | receiveFrame {c f : Nat} {message : FLPtoEPN} {rest : List FLPtoEPN} {node : EpnNode}
      (queued : facility.channel (c, f) = message :: rest)
      (inside : f < facility.dispatch.numFLPS)
      (counted : (facility.epn c).receive facility.dispatch.numFLPS f message = some node) :
      FacilityEffect facility (.receiveFrame c f)
        { facility with
          epn := Function.update facility.epn c node
          channel := Function.update facility.channel (c, f) rest }
  | slot {c : Nat} {action : SlotAction} {reporting : Reporting}
      (stepped : (facility.epn c).reporting.step (.slot action) = some reporting) :
      FacilityEffect facility (.slot c action)
        { facility with
          epn := Function.update facility.epn c { facility.epn c with reporting } }

theorem Facility.step_effect {facility after : Facility} {action : FacilityAction}
    (stepped : facility.step action = some after) : FacilityEffect facility action after := by
  cases action with
  | tick milliseconds =>
      cases stepped
      exact .tick
  | report c =>
      simp only [Facility.step, Facility.report] at stepped
      split at stepped
      · rename_i known
        obtain ⟨reporting, read, rfl⟩ := Option.map_eq_some_iff.mp stepped
        exact .report known.1 known.2.1 known.2.2 read
      · contradiction
  | check =>
      simp only [Facility.step, Facility.check] at stepped
      split at stepped
      · rename_i known
        split at stepped <;> cases stepped
        · rename_i exceeded
          exact .expire known.1 exceeded
        · exact .check known.1 known.2.2
      · contradiction
  | collect =>
      simp only [Facility.step, Facility.collect] at stepped
      split at stepped
      · rename_i message rest awaiting queued
        obtain ⟨dispatch, moved, rfl⟩ := Option.map_eq_some_iff.mp stepped
        simp only [Dispatch.step] at moved
        split at moved <;> cases moved
        rename_i main updated
        exact .collect awaiting main queued updated
      · contradiction
  | endRound =>
      simp only [Facility.step, Facility.endRound] at stepped
      split at stepped
      · rename_i complete
        split at stepped
        · obtain ⟨dispatch, moved, rfl⟩ := Option.map_eq_some_iff.mp stepped
          simp only [Dispatch.step, Dispatch.assign] at moved
          split at moved <;> cases moved
          rename_i main generated
          exact .schedule complete.2 main generated
        · rename_i refused
          cases stepped
          exact .leave complete.2 fun passed => Nat.not_lt.mp fun less => refused ⟨passed, less⟩
      · contradiction
  | startThread =>
      obtain ⟨dispatch, moved, rfl⟩ := Option.map_eq_some_iff.mp stepped
      simp only [Dispatch.step] at moved
      split at moved <;> cases moved
      rename_i main
      exact .startThread main
  | clear =>
      obtain ⟨dispatch, moved, rfl⟩ := Option.map_eq_some_iff.mp stepped
      simp only [Dispatch.step] at moved
      split at moved <;> cases moved
      rename_i main
      exact .clear main
  | sendSchedule thread =>
      obtain ⟨dispatch, moved, rfl⟩ := Option.map_eq_some_iff.mp stepped
      simp only [Dispatch.step, Dispatch.send] at moved
      split at moved
      · contradiction
      · rename_i p running
        split at moved <;> cases moved
        rename_i inside
        exact .sendSchedule running inside
  | receiveSchedule f =>
      simp only [Facility.step, Facility.receiveSchedule] at stepped
      split at stepped
      · rename_i ready
        split at stepped
        · contradiction
        · rename_i message rest queued
          simp only [Dispatch.step, Dispatch.receive, queued, Option.map_some] at stepped
          cases stepped
          exact .receiveSchedule ready.1 ready.2 queued
      · contradiction
  | sendFrame f =>
      simp only [Facility.step, Facility.sendFrame] at stepped
      split at stepped
      · rename_i sending
        split at stepped
        · contradiction
        · rename_i c named
          split at stepped <;> cases stepped
          rename_i valid
          exact .sendFrame sending.1 sending.2 named valid.1
      · contradiction
  | receiveFrame c f =>
      simp only [Facility.step, Facility.receiveFrame] at stepped
      split at stepped
      · contradiction
      · rename_i message rest queued
        split at stepped
        · rename_i inside
          obtain ⟨node, counted, rfl⟩ := Option.map_eq_some_iff.mp stepped
          exact .receiveFrame queued inside counted
        · contradiction
  | slot c action =>
      simp only [Facility.step, Facility.slot] at stepped
      split at stepped
      · contradiction
      · obtain ⟨reporting, moved, rfl⟩ := Option.map_eq_some_iff.mp stepped
        exact .slot moved

end FairMQ.SchedulerFlpEpn
