import FairMQ.Data.OrderedMap
import FairMQ.Data.TransitionSystem
import Mathlib.Algebra.Group.Nat.Defs
import Mathlib.Order.Nat

namespace FairMQ.SchedulerFlpEpn

open FairMQ.Data

/-! # The scheduler's history of EPN reports

`history` maps an interval key to one `EpnInfo` per EPN.  `update` copies the
latest row when a new key appears, overwrites the reporting EPN's entry and
trims the front.  Keys and time stamps are `uint64_t`; their sums wrap. -/

structure EpnInfo where
  ts : Nat
  memVal : Nat
deriving DecidableEq, Repr

def EpnInfo.zero : EpnInfo := ⟨0, 0⟩

structure Scheduler where
  history : OrderedMap Nat (List EpnInfo)
  numEPNS : Nat
  tooOld : Nat
  keyForToFile : Nat
  heatdata : List (List Nat)

def historyMaxMs : Nat := 60 * 1 * 1000

def uint64Add (left right : Nat) : Nat :=
  (left + right) % 2 ^ 64

/-- How a call of `update` ends: normally, by `std::out_of_range` out of
`vector::at`, or in undefined behaviour. -/
inductive UpdateResult where
  | updated (scheduler : Scheduler)
  | outOfRange (scheduler : Scheduler)
  | undefined

namespace Scheduler

/-- The members after the constructor and the configuration in `InitTask`. -/
def configured (numEPNS keyForToFile : Nat) : Scheduler where
  history := .empty
  numEPNS := numEPNS
  tooOld := 0
  keyForToFile := keyForToFile
  heatdata := []

def initializeHistory (scheduler : Scheduler) (key : Nat) : Scheduler :=
  { scheduler with
    history := scheduler.history.insert key (List.replicate scheduler.numEPNS .zero) }

/-- The copy of an entry into a new row: a lost EPN starts again from zero. -/
def carry (tooOld : Nat) (info : EpnInfo) : EpnInfo :=
  if info.ts < tooOld then .zero else info

def nextRow (scheduler : Scheduler) (previous : List EpnInfo) : List EpnInfo :=
  (previous.take scheduler.numEPNS).map (carry scheduler.tooOld) ++
    List.replicate (scheduler.numEPNS - previous.length) .zero

def overwrite (scheduler : Scheduler) (row : List EpnInfo) (key epnId myMem : Nat) :
    UpdateResult :=
  let index := uint64Add epnId (2 ^ 64 - 1)
  if index < row.length then
    .updated { scheduler with
      history := scheduler.history.modify key fun row => row.set index ⟨key, myMem⟩ }
  else .outOfRange scheduler

def record (scheduler : Scheduler) (key epnId myMem : Nat) : UpdateResult :=
  match scheduler.history.get? key with
  | some row => scheduler.overwrite row key epnId myMem
  | none =>
      match scheduler.history.last? with
      | none => .undefined
      | some (_, previous) =>
          let row := scheduler.nextRow previous
          let inserted := { scheduler with history := scheduler.history.insert key row }
          if previous.length < scheduler.numEPNS then .outOfRange inserted
          else inserted.overwrite row key epnId myMem

/-- The trimming loop.  `firstKey` is not renewed in the loop: a second round
would erase an iterator that is already gone. -/
def trim (scheduler : Scheduler) (key : Nat) : Option Scheduler :=
  match scheduler.history.first? with
  | none => none
  | some (first, _) =>
      if uint64Add first historyMaxMs ≤ key then
        match scheduler.history.eraseFirst.first? with
        | none => none
        | some (second, _) =>
            if uint64Add second historyMaxMs ≤ key then none
            else
              some { scheduler with history := scheduler.history.eraseFirst, tooOld := second }
      else some { scheduler with tooOld := first }

def toFile (scheduler : Scheduler) : Scheduler :=
  { scheduler with
    heatdata := scheduler.heatdata ++
      scheduler.history.entries.map fun entry => entry.2.map (·.memVal) }

def writeOut (scheduler : Scheduler) (key : Nat) : Scheduler :=
  if uint64Add scheduler.keyForToFile historyMaxMs ≤ key then
    { scheduler.toFile with keyForToFile := key }
  else scheduler

def update (scheduler : Scheduler) (key epnId myMem : Nat) : UpdateResult :=
  match scheduler.record key epnId myMem with
  | .updated recorded =>
      match recorded.trim key with
      | some trimmed => .updated (trimmed.writeOut key)
      | none => .undefined
  | result => result

end Scheduler

/-- One `EPNtoScheduler` message, received while `getHistKey` returns `key`. -/
structure Report where
  key : Nat
  epnId : Nat
  myMem : Nat
deriving DecidableEq, Repr

def historySystem : TransitionSystem Scheduler Report where
  initial scheduler := ∃ numEPNS keyForToFile key,
    scheduler = (Scheduler.configured numEPNS keyForToFile).initializeHistory key
  step scheduler report :=
    match scheduler.update report.key report.epnId report.myMem with
    | .updated after => some after
    | _ => none

def ValidId (scheduler : Scheduler) (report : Report) : Prop :=
  1 ≤ report.epnId ∧ report.epnId ≤ scheduler.numEPNS

instance (scheduler : Scheduler) (report : Report) : Decidable (ValidId scheduler report) :=
  inferInstanceAs (Decidable (_ ∧ _))

structure WellFormed (scheduler : Scheduler) : Prop where
  nonempty : scheduler.history.entries ≠ []
  full : scheduler.history.All fun row => row.length = scheduler.numEPNS

theorem WellFormed.initial (numEPNS keyForToFile key : Nat) :
    WellFormed ((Scheduler.configured numEPNS keyForToFile).initializeHistory key) where
  nonempty := OrderedMap.insert_ne_nil _ _ _
  full := by
    refine OrderedMap.All.insert ?_ (by simp [Scheduler.configured, Scheduler.initializeHistory])
    intro entry member
    simp [Scheduler.configured, OrderedMap.empty] at member

theorem nextRow_length (scheduler : Scheduler) (previous : List EpnInfo) :
    (scheduler.nextRow previous).length = scheduler.numEPNS := by
  simp only [Scheduler.nextRow, List.length_append, List.length_map, List.length_take,
    List.length_replicate]
  omega

theorem WellFormed.overwrite {scheduler recorded : Scheduler} {row : List EpnInfo}
    {key epnId myMem : Nat} (wellFormed : WellFormed scheduler)
    (done : scheduler.overwrite row key epnId myMem = .updated recorded) :
    WellFormed recorded := by
  simp only [Scheduler.overwrite] at done
  split at done <;> cases done
  refine ⟨?_, ?_⟩
  · simpa [OrderedMap.modify] using wellFormed.nonempty
  · exact wellFormed.full.modify fun row full => (List.length_set ..).trans full

theorem WellFormed.record {scheduler recorded : Scheduler} {key epnId myMem : Nat}
    (wellFormed : WellFormed scheduler)
    (done : scheduler.record key epnId myMem = .updated recorded) : WellFormed recorded := by
  simp only [Scheduler.record] at done
  split at done
  · exact wellFormed.overwrite done
  · split at done
    · contradiction
    · rename_i previous last
      split at done
      · contradiction
      · refine WellFormed.overwrite ⟨OrderedMap.insert_ne_nil _ _ _, ?_⟩ done
        exact wellFormed.full.insert (nextRow_length scheduler previous)

theorem WellFormed.trim {scheduler trimmed : Scheduler} {key : Nat}
    (wellFormed : WellFormed scheduler) (done : scheduler.trim key = some trimmed) :
    WellFormed trimmed := by
  simp only [Scheduler.trim] at done
  split at done
  · contradiction
  · split at done
    · split at done
      · contradiction
      · rename_i second row isFirst
        split at done <;> cases done
        refine ⟨?_, wellFormed.full.eraseFirst⟩
        intro erased
        change scheduler.history.eraseFirst.entries = [] at erased
        simp [OrderedMap.first?, erased] at isFirst
    · cases done
      exact ⟨wellFormed.nonempty, wellFormed.full⟩

theorem WellFormed.writeOut {scheduler : Scheduler} (wellFormed : WellFormed scheduler)
    (key : Nat) : WellFormed (scheduler.writeOut key) := by
  unfold Scheduler.writeOut
  split
  · exact ⟨wellFormed.nonempty, wellFormed.full⟩
  · exact wellFormed

theorem WellFormed.update {scheduler after : Scheduler} {key epnId myMem : Nat}
    (wellFormed : WellFormed scheduler)
    (done : scheduler.update key epnId myMem = .updated after) : WellFormed after := by
  simp only [Scheduler.update] at done
  split at done
  · rename_i recorded recordedOk
    split at done
    · rename_i trimmed trimmedOk
      injection done with same
      rw [← same]
      exact ((wellFormed.record recordedOk).trim trimmedOk).writeOut key
    · contradiction
  · rename_i other
    exact absurd done (other after)

theorem wellFormed_of_reaches {allowed : Scheduler → Report → Prop} {scheduler : Scheduler}
    (reached : historySystem.ReachesUnder allowed scheduler) : WellFormed scheduler := by
  refine reached.invariant ?_ ?_
  · intro state start
    obtain ⟨numEPNS, keyForToFile, key, rfl⟩ := start
    exact .initial numEPNS keyForToFile key
  · intro before report after wellFormed _ stepped
    simp only [historySystem] at stepped
    split at stepped <;> cases stepped
    rename_i done
    exact wellFormed.update done

end FairMQ.SchedulerFlpEpn
