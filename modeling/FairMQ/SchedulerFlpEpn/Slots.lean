import FairMQ.Data.MachineInt
import FairMQ.SchedulerFlpEpn.TimeFrame

namespace FairMQ.SchedulerFlpEpn

open FairMQ.Data

/-! # `freeSlots` under interleaving

`epn::receive` decrements `freeSlots`, tests it and, when it is negative, sets it
back to zero, while every `MyDelayedFun` thread increments it at its end.  Each of
these accesses is one step here.  An increment that falls between a failed test
and the assignment is overwritten, and its slot is gone for good. -/

/-- Where `receive` is in the branch for a complete time frame. -/
inductive Branch where
  | outside
  | decremented
  | accepted
  | overCapacity
deriving DecidableEq, Repr

/-- `threads` are the `MyDelayedFun` threads that have not yet incremented
`freeSlots`.  `overwritten` is history: the increments made between a failed test
and the assignment that follows it. -/
structure Slots where
  freeSlots : Int
  threads : Nat
  branch : Branch
  overwritten : Nat
deriving DecidableEq, Repr

inductive SlotAction where
  | decrement
  | test
  | finish
  | threadDone
deriving DecidableEq, Repr

namespace Slots

def finish (slots : Slots) : Option Slots :=
  match slots.branch with
  | .accepted => some { slots with threads := slots.threads + 1, branch := .outside }
  | .overCapacity => some { slots with freeSlots := 0, branch := .outside }
  | _ => none

def threadDone (slots : Slots) : Option Slots :=
  if 0 < slots.threads then
    some { slots with
      freeSlots := slots.freeSlots + 1
      threads := slots.threads - 1
      overwritten := slots.overwritten + if slots.branch = .overCapacity then 1 else 0 }
  else none

def step (slots : Slots) : SlotAction → Option Slots
  | .decrement =>
      if slots.branch = .outside then
        some { slots with freeSlots := slots.freeSlots - 1, branch := .decremented }
      else none
  | .test =>
      if slots.branch = .decremented then
        some { slots with branch := if 0 ≤ slots.freeSlots then .accepted else .overCapacity }
      else none
  | .finish => slots.finish
  | .threadDone => slots.threadDone

def start (maxSlots : Nat) : Slots := ⟨maxSlots, 0, .outside, 0⟩

end Slots

def slotSystem (maxSlots : Nat) : TransitionSystem Slots SlotAction where
  initial slots := slots = .start maxSlots
  step := Slots.step

def Accounted (maxSlots : Nat) (slots : Slots) : Prop :=
  match slots.branch with
  | .outside => slots.freeSlots + slots.threads + slots.overwritten = maxSlots ∧ 0 ≤ slots.freeSlots
  | .decremented =>
      slots.freeSlots + slots.threads + slots.overwritten + 1 = maxSlots ∧ -1 ≤ slots.freeSlots
  | .accepted =>
      slots.freeSlots + slots.threads + slots.overwritten + 1 = maxSlots ∧ 0 ≤ slots.freeSlots
  | .overCapacity => (slots.threads + slots.overwritten : Int) = maxSlots

theorem Accounted.step {maxSlots : Nat} {slots after : Slots} {action : SlotAction}
    (accounted : Accounted maxSlots slots) (stepped : slots.step action = some after) :
    Accounted maxSlots after := by
  obtain ⟨freeSlots, threads, branch, overwritten⟩ := slots
  cases action with
  | decrement =>
      simp only [Slots.step] at stepped
      split at stepped <;> cases stepped
      rename_i outside
      subst outside
      simp only [Accounted] at accounted ⊢
      omega
  | test =>
      simp only [Slots.step] at stepped
      split at stepped <;> cases stepped
      rename_i decremented
      subst decremented
      by_cases free : 0 ≤ freeSlots
      · simp only [Accounted, if_pos free] at accounted ⊢
        omega
      · simp only [Accounted, if_neg free] at accounted ⊢
        omega
  | finish =>
      cases branch <;> cases stepped <;> simp only [Accounted] at accounted ⊢ <;> omega
  | threadDone =>
      simp only [Slots.step, Slots.threadDone] at stepped
      split at stepped <;> cases stepped
      rename_i running
      -- an increment in the over-capacity branch moves its slot to `overwritten`
      cases branch <;> simp [Accounted] at accounted ⊢ <;> omega

theorem accounted_of_reaches {maxSlots : Nat} {slots : Slots}
    (reached : (slotSystem maxSlots).Reaches slots) : Accounted maxSlots slots := by
  induction reached with
  | initial start =>
      cases start
      simp [Accounted, Slots.start]
  | step _ _ stepped ih => exact ih.step stepped

/-- Whenever `receive` is outside the branch, the free slots and the threads add up
to `maxSlots` exactly when no increment has been overwritten. -/
theorem slots_conserved_iff {maxSlots : Nat} {slots : Slots}
    (reached : (slotSystem maxSlots).Reaches slots) (outside : slots.branch = .outside) :
    slots.freeSlots + slots.threads = maxSlots ↔ slots.overwritten = 0 := by
  have accounted := accounted_of_reaches reached
  simp only [Accounted, outside] at accounted
  omega

def fullHouse : List SlotAction :=
  (List.replicate 4 [.decrement, .test, .finish]).flatten

theorem lost_frame_keeps_slots : ∃ slots,
    (slotSystem 4).Reaches slots ∧ slots.branch = .outside ∧ slots.threads = 4 ∧
    slots.freeSlots + slots.threads = 4 := by
  obtain ⟨slots, reached, outside, threads, kept⟩ :
      ∃ slots, (slotSystem 4).ReachesUnder (fun _ _ => True) slots ∧
        slots.branch = .outside ∧ slots.threads = 4 ∧ slots.overwritten = 0 :=
    TransitionSystem.reaches_of_runUnder (Slots.start 4)
      (fullHouse ++ [.decrement, .test, .finish]) rfl (by decide)
  exact ⟨slots, reached, outside, threads, (slots_conserved_iff reached outside).mpr kept⟩

/-- A fifth time frame finds no free slot; a thread that ends before `freeSlots=0`
is executed loses its slot. -/
theorem overwritten_increment_loses_slot : ∃ slots,
    (slotSystem 4).Reaches slots ∧ slots.branch = .outside ∧
    slots.freeSlots = 0 ∧ slots.threads = 3 ∧ slots.freeSlots + slots.threads ≠ 4 :=
  TransitionSystem.reaches_of_runUnder (Slots.start 4)
    (fullHouse ++ [.decrement, .test, .threadDone, .finish]) rfl (by decide)

theorem undisturbed_branch (maxSlots : Nat) (epn : Epn) (sTF : Nat) :
    (slotSystem maxSlots).run ⟨epn.freeSlots, epn.workers, .outside, 0⟩
        [.decrement, .test, .finish] =
      some ⟨(epn.complete sTF).freeSlots, (epn.complete sTF).workers, .outside, 0⟩ := by
  by_cases free : 0 ≤ epn.freeSlots - 1
  · simp only [TransitionSystem.runUnder, slotSystem, Slots.step, Slots.finish, Epn.complete,
      if_pos free, if_true]
  · simp only [TransitionSystem.runUnder, slotSystem, Slots.step, Slots.finish, Epn.complete,
      if_neg free, if_true]

/-- `sent` are the slots of the messages sent.  `overdrawn` is history: the last decrement
found no free slot, and neither a thread nor `freeSlots=0` has corrected it since. -/
structure Reporting where
  slots : Slots
  sent : List Nat
  overdrawn : Bool
deriving DecidableEq, Repr

inductive ReportAction where
  | slot (action : SlotAction)
  | report
deriving DecidableEq, Repr

def Slots.overdraws (slots : Slots) (overdrawn : Bool) : SlotAction → Bool
  | .decrement => decide (slots.freeSlots = 0)
  | .test => overdrawn
  | .finish => false
  | .threadDone => false

def Reporting.step (reporting : Reporting) : ReportAction → Option Reporting
  | .slot action =>
      (reporting.slots.step action).map fun after =>
        { reporting with
          slots := after
          overdrawn := reporting.slots.overdraws reporting.overdrawn action }
  | .report =>
      some { reporting with
        sent := toUint64 reporting.slots.freeSlots :: reporting.sent }

def Reporting.start (maxSlots : Nat) : Reporting := ⟨.start maxSlots, [], false⟩

def reportSystem (maxSlots : Nat) : TransitionSystem Reporting ReportAction where
  initial reporting := reporting = .start maxSlots
  step := Reporting.step

/-- `freeSlots` is `-1` when it is overdrawn; otherwise it is a number of slots. -/
structure Bounded (maxSlots : Nat) (slots : Slots) (overdrawn : Bool) : Prop where
  accounted : Accounted maxSlots slots
  total : slots.freeSlots + slots.threads ≤ maxSlots
  below : overdrawn = true → slots.freeSlots = -1
  above : overdrawn = false → 0 ≤ slots.freeSlots
  within : overdrawn = true → slots.branch = .decremented ∨ slots.branch = .overCapacity

theorem Bounded.step {maxSlots : Nat} {slots after : Slots} {overdrawn : Bool}
    {action : SlotAction} (bounded : Bounded maxSlots slots overdrawn)
    (stepped : slots.step action = some after) :
    Bounded maxSlots after (slots.overdraws overdrawn action) := by
  obtain ⟨accounted, total, below, above, within⟩ := bounded
  have accountedAfter := accounted.step stepped
  obtain ⟨freeSlots, threads, branch, overwritten⟩ := slots
  simp only at total below above
  cases action with
  | decrement =>
      simp only [Slots.step] at stepped
      split at stepped <;> cases stepped
      rename_i outside
      subst outside
      simp only [Accounted] at accounted
      refine ⟨accountedAfter, ?_, ?_, ?_, fun _ => .inl rfl⟩
      · simp only
        omega
      · simp only [Slots.overdraws, decide_eq_true_eq]
        omega
      · simp only [Slots.overdraws, decide_eq_false_iff_not]
        omega
  | test =>
      simp only [Slots.step] at stepped
      split at stepped <;> cases stepped
      refine ⟨accountedAfter, total, below, above, ?_⟩
      intro negative
      have isNegative := below negative
      have failed : ¬ 0 ≤ freeSlots := by omega
      exact .inr (if_neg failed)
  | finish =>
      have settled : 0 ≤ after.freeSlots ∧ after.freeSlots + after.threads ≤ maxSlots := by
        cases branch <;> cases stepped <;> simp only [Accounted] at accountedAfter ⊢ <;> omega
      refine ⟨accountedAfter, settled.2, ?_, fun _ => settled.1, ?_⟩ <;>
        simp [Slots.overdraws]
  | threadDone =>
      simp only [Slots.step, Slots.threadDone] at stepped
      split at stepped <;> cases stepped
      rename_i running
      refine ⟨accountedAfter, ?_, ?_, ?_, ?_⟩
      · simp only
        omega
      · simp [Slots.overdraws]
      · intro _
        -- from `-1` or from a number of slots, the increment leads to a number of slots
        cases overdrawn with
        | true =>
            have isNegative := below rfl
            simp only
            omega
        | false =>
            have nonnegative := above rfl
            simp only
            omega
      · simp [Slots.overdraws]

/-- No message is sent while `freeSlots` is overdrawn. -/
def NotOverdrawn (reporting : Reporting) : ReportAction → Prop
  | .report => reporting.overdrawn = false
  | .slot _ => True

instance (reporting : Reporting) (action : ReportAction) :
    Decidable (NotOverdrawn reporting action) :=
  match action with
  | .report => inferInstanceAs (Decidable (_ = _))
  | .slot _ => isTrue trivial

theorem bounded_of_reaches {maxSlots : Nat} {allowed : Reporting → ReportAction → Prop}
    {reporting : Reporting} (reached : (reportSystem maxSlots).ReachesUnder allowed reporting) :
    Bounded maxSlots reporting.slots reporting.overdrawn := by
  induction reached with
  | initial start =>
      cases start
      refine ⟨?_, ?_, ?_, ?_, ?_⟩ <;> simp [Accounted, Reporting.start, Slots.start]
  | @step before _ action _ _ stepped ih =>
      cases action with
      | slot action =>
          obtain ⟨after, done, rfl⟩ := Option.map_eq_some_iff.mp stepped
          exact ih.step done
      | report =>
          cases stepped
          exact ih

theorem Bounded.reported_iff {maxSlots : Nat} {slots : Slots} {overdrawn : Bool}
    (bounded : Bounded maxSlots slots overdrawn) (fits : maxSlots < 2 ^ 31) :
    toUint64 slots.freeSlots ≤ maxSlots ↔ overdrawn = false := by
  have total := bounded.total
  unfold toUint64
  cases overdrawn with
  | true =>
      have isNegative := bounded.below rfl
      rw [isNegative]
      simp only [Bool.true_eq_false, iff_false]
      omega
  | false =>
      have nonnegative := bounded.above rfl
      simp only [iff_true]
      omega

theorem sent_le_of_reaches {maxSlots : Nat} (fits : maxSlots < 2 ^ 31) {reporting : Reporting}
    (reached : (reportSystem maxSlots).ReachesUnder NotOverdrawn reporting) :
    ∀ value ∈ reporting.sent, value ≤ maxSlots := by
  induction reached with
  | initial start =>
      cases start
      simp [Reporting.start]
  | @step before _ action earlier timely stepped ih =>
      cases action with
      | slot action =>
          obtain ⟨after, done, rfl⟩ := Option.map_eq_some_iff.mp stepped
          exact ih
      | report =>
          cases stepped
          have reported := (bounded_of_reaches earlier).reported_iff fits
          exact List.forall_mem_cons.mpr ⟨reported.mpr timely, ih⟩

theorem reaches_of_sent_le {maxSlots : Nat} (fits : maxSlots < 2 ^ 31) {reporting : Reporting}
    (reached : (reportSystem maxSlots).Reaches reporting)
    (meaningful : ∀ value ∈ reporting.sent, value ≤ maxSlots) :
    (reportSystem maxSlots).ReachesUnder NotOverdrawn reporting := by
  induction reached with
  | initial start => exact .initial start
  | @step before _ action earlier _ stepped ih =>
      cases action with
      | slot action =>
          have permitted : NotOverdrawn before (.slot action) := trivial
          obtain ⟨after, done, rfl⟩ := Option.map_eq_some_iff.mp stepped
          exact .step (ih meaningful) permitted stepped
      | report =>
          have after := Option.some.inj stepped
          rw [← after] at meaningful
          obtain ⟨last, others⟩ := List.forall_mem_cons.mp meaningful
          have timely : NotOverdrawn before .report :=
            ((bounded_of_reaches earlier).reported_iff fits).mp last
          exact .step (ih others) timely stepped

/-- All messages sent carry a number of slots exactly when none was sent while
`freeSlots` was overdrawn, which it is only while `receive` rejects a time frame. -/
theorem reports_meaningful_iff {maxSlots : Nat} (fits : maxSlots < 2 ^ 31)
    {reporting : Reporting} (reached : (reportSystem maxSlots).Reaches reporting) :
    ((∀ value ∈ reporting.sent, value ≤ maxSlots) ↔
      (reportSystem maxSlots).ReachesUnder NotOverdrawn reporting) ∧
      (reporting.overdrawn = true →
        reporting.slots.branch = .decremented ∨ reporting.slots.branch = .overCapacity) :=
  ⟨⟨reaches_of_sent_le fits reached, sent_le_of_reaches fits⟩, (bounded_of_reaches reached).within⟩

theorem reports_before_and_after : ∃ reporting,
    (reportSystem 4).Reaches reporting ∧ reporting.sent.length = 2 ∧
    ∀ value ∈ reporting.sent, value ≤ 4 := by
  obtain ⟨reporting, timely, two⟩ :
      ∃ reporting, (reportSystem 4).ReachesUnder NotOverdrawn reporting ∧
        reporting.sent.length = 2 :=
    TransitionSystem.reaches_of_runUnder (Reporting.start 4)
      (.report :: fullHouse.map .slot ++
        [.slot .decrement, .slot .test, .slot .finish, .report]) rfl (by decide)
  have reached := timely.weaken fun _ _ _ => trivial
  exact ⟨reporting, reached, two, (reports_meaningful_iff (by decide) reached).1.mpr timely⟩

/-- All four slots are taken when a fifth time frame arrives.  A message sent before
`receive` tests `freeSlots` says that `2 ^ 64 - 1` slots are free. -/
theorem overdrawn_report : ∃ reporting,
    (reportSystem 4).Reaches reporting ∧ reporting.sent = [2 ^ 64 - 1] :=
  TransitionSystem.reaches_of_runUnder (Reporting.start 4)
    (fullHouse.map .slot ++ [.slot .decrement, .report]) rfl (by decide)

end FairMQ.SchedulerFlpEpn
