import Mathlib.Algebra.Order.BigOperators.Group.List
import Mathlib.Algebra.Order.Group.Nat
import Mathlib.Algebra.Ring.Nat
import Mathlib.Logic.Function.Basic
import FairMQ.Data.Ledger
import FairMQ.Data.TransitionSystem

namespace FairMQ.Shmem

open FairMQ.Data

/-- The `FairMQTransportFactorySHM` of one device, with the objects it has opened. -/
inductive Factory where
  | absent
  | mutexOpened (mutex : Nat)
  | segmentOpened (mutex segment : Nat)
  | constructed (mutex segment : Nat)
  | removing
  | destroyed
deriving DecidableEq, Repr

/-- Objects are numbered in the order of their creation; `fCount` is the counter in
each segment that has one. -/
structure Session where
  mutexName : Option Nat
  segmentName : Option Nat
  created : Nat
  fCount : Nat → Option Nat
  devices : List Factory

inductive SessionAction where
  | openMutex (device : Nat)
  | openSegment (device : Nat)
  | countDevice (device : Nat)
  | discountDevice (device : Nat)
  | removeMutex (device : Nat)
  | abandon (device : Nat)
deriving DecidableEq, Repr

namespace Session

def put (session : Session) (device : Nat) (factory : Factory) : Session :=
  { session with devices := session.devices.set device factory }

def openMutex (session : Session) (device : Nat) : Session :=
  match session.mutexName with
  | some mutex => session.put device (.mutexOpened mutex)
  | none =>
      { session with mutexName := some session.created, created := session.created + 1 }.put
        device (.mutexOpened session.created)

/-- `Manager::Manager`; the management segment plays no part. -/
def openSegment (session : Session) (device mutex : Nat) : Session :=
  match session.segmentName with
  | some segment => session.put device (.segmentOpened mutex segment)
  | none =>
      { session with segmentName := some session.created, created := session.created + 1 }.put
        device (.segmentOpened mutex session.created)

def incremented : Option Nat → Nat
  | some count => (count + 1) % 2 ^ 32
  | none => 1

def decremented (count : Nat) : Nat :=
  (count + (2 ^ 32 - 1)) % 2 ^ 32

def setCount (session : Session) (segment count : Nat) : Session :=
  { session with fCount := Function.update session.fCount segment (some count) }

def countDevice (session : Session) (device mutex segment : Nat) : Session :=
  (session.setCount segment (incremented (session.fCount segment))).put
    device (.constructed mutex segment)

/-- The locked block of the destructor.  `RemoveSegment` removes whatever is
registered under the name. -/
def discountDevice (session : Session) (device segment : Nat) : Option Session :=
  match session.fCount segment with
  | none => none
  | some count =>
      let counted := session.setCount segment (decremented count)
      if decremented count = 0 then
        some ({ counted with segmentName := none }.put device .removing)
      else some (counted.put device .destroyed)

def step (session : Session) : SessionAction → Option Session
  | .openMutex device =>
      match session.devices[device]? with
      | some .absent => some (session.openMutex device)
      | _ => none
  | .openSegment device =>
      match session.devices[device]? with
      | some (.mutexOpened mutex) => some (session.openSegment device mutex)
      | _ => none
  | .countDevice device =>
      match session.devices[device]? with
      | some (.segmentOpened mutex segment) => some (session.countDevice device mutex segment)
      | _ => none
  | .discountDevice device =>
      match session.devices[device]? with
      | some (.constructed _ segment) => session.discountDevice device segment
      | _ => none
  | .removeMutex device =>
      match session.devices[device]? with
      | some .removing => some ({ session with mutexName := none }.put device .destroyed)
      | _ => none
  | .abandon device =>
      -- the destructor returns early if the context cannot be terminated
      match session.devices[device]? with
      | some (.constructed _ _) => some (session.put device .destroyed)
      | _ => none

def start (devices : Nat) : Session where
  mutexName := none
  segmentName := none
  created := 0
  fCount := fun _ => none
  devices := List.replicate devices .absent

end Session

def sessionSystem : TransitionSystem Session SessionAction where
  initial session := ∃ devices, session = .start devices
  step := Session.step

def Factory.uncounted : Factory → Bool
  | .segmentOpened _ _ => true
  | _ => false

def Session.overflows (session : Session) (device : Nat) : Bool :=
  match session.devices[device]? with
  | some (.segmentOpened _ segment) => decide (2 ^ 32 ≤ (session.fCount segment).getD 0 + 1)
  | _ => false

def Session.lastCounted (session : Session) (device : Nat) : Bool :=
  match session.devices[device]? with
  | some (.constructed _ segment) => session.fCount segment == some 1
  | _ => false

/-- The counter does not overflow, and the device that brings it to zero finds no
other device between opening the segment and counting itself. -/
def Orderly (session : Session) : SessionAction → Prop
  | .countDevice device => session.overflows device = false
  | .discountDevice device =>
      session.lastCounted device = true → ∀ factory ∈ session.devices, factory.uncounted = false
  | _ => True

instance (session : Session) (action : SessionAction) : Decidable (Orderly session action) :=
  match action with
  | .countDevice device => inferInstanceAs (Decidable (session.overflows device = false))
  | .discountDevice device =>
      inferInstanceAs (Decidable (session.lastCounted device = true →
        ∀ factory ∈ session.devices, factory.uncounted = false))
  | .openMutex _ | .openSegment _ | .removeMutex _ | .abandon _ => inferInstanceAs (Decidable True)

def Factory.segment? : Factory → Option Nat
  | .segmentOpened _ segment => some segment
  | .constructed _ segment => some segment
  | _ => none

def Factory.counted : Factory → Nat
  | .constructed _ _ => 1
  | _ => 0

theorem Factory.segment?_eq_none {factory : Factory} (counted : factory.uncounted = false)
    (discounted : factory.counted = 0) : factory.segment? = none := by
  cases factory with
  | segmentOpened mutex segment => cases counted
  | constructed mutex segment => cases discounted
  | absent | mutexOpened | removing | destroyed => rfl

theorem Factory.counted_eq_zero {factory : Factory} (unused : factory.segment? = none) :
    factory.counted = 0 := by
  cases factory with
  | segmentOpened mutex segment => rfl
  | constructed mutex segment => cases unused
  | absent | mutexOpened | removing | destroyed => rfl

structure Shared (session : Session) : Prop where
  held : ∀ factory ∈ session.devices, ∀ segment,
    factory.segment? = some segment → session.segmentName = some segment
  counted : ∀ segment, session.segmentName = some segment →
    (session.devices.map Factory.counted).sum ≤ (session.fCount segment).getD 0
  bounded : ∀ segment count, session.fCount segment = some count → count < 2 ^ 32

namespace Shared

variable {before after : Session} {device : Nat} {old : Factory}

theorem held_set (shared : Shared before) {new : Factory}
    (fits : ∀ segment, new.segment? = some segment → before.segmentName = some segment) :
    ∀ factory ∈ before.devices.set device new, ∀ segment,
      factory.segment? = some segment → before.segmentName = some segment := by
  intro factory member segment uses
  cases List.mem_or_eq_of_mem_set member with
  | inl known => exact shared.held factory known segment uses
  | inr same => exact fits segment (same ▸ uses)

theorem move (shared : Shared before) (found : before.devices[device]? = some old) (new : Factory)
    (fits : ∀ segment, new.segment? = some segment → before.segmentName = some segment)
    (less : new.counted ≤ old.counted) (devices : after.devices = before.devices.set device new)
    (name : after.segmentName = before.segmentName) (counts : after.fCount = before.fCount) :
    Shared after where
  held := by
    rw [name, devices]
    exact shared.held_set fits
  counted segment named := by
    have moved := sum_map_set Factory.counted found new
    have enough := shared.counted segment (name ▸ named)
    rw [devices, counts]
    omega
  bounded := counts ▸ shared.bounded

theorem openSegment (shared : Shared before) {mutex : Nat}
    (found : before.devices[device]? = some (.mutexOpened mutex)) :
    Shared (before.openSegment device mutex) := by
  unfold Session.openSegment
  split
  · rename_i segment named
    refine shared.move found (.segmentOpened mutex segment) ?_ (le_refl 0) rfl rfl rfl
    intro other uses
    cases uses
    exact named
  · rename_i unnamed
    -- without a name nobody uses a segment, so the new one starts with no device
    have unused : ∀ factory ∈ before.devices, factory.segment? = none := by
      intro factory member
      cases uses : factory.segment? with
      | none => rfl
      | some segment =>
          have named := shared.held factory member segment uses
          simp [unnamed] at named
    have none : (before.devices.map Factory.counted).sum = 0 := by
      refine List.sum_eq_zero fun count member => ?_
      obtain ⟨factory, known, rfl⟩ := List.mem_map.mp member
      exact Factory.counted_eq_zero (unused factory known)
    refine ⟨?_, ?_, shared.bounded⟩
    · intro factory member segment uses
      cases List.mem_or_eq_of_mem_set member with
      | inl known => simp [unused factory known] at uses
      | inr same =>
          subst same
          exact uses
    · intro segment _
      have moved := sum_map_set Factory.counted found (.segmentOpened mutex before.created)
      simp only [Factory.counted, add_zero, none] at moved
      change ((before.devices.set device _).map Factory.counted).sum ≤ _
      omega

theorem bounded_setCount (shared : Shared before) {segment count : Nat} (small : count < 2 ^ 32) :
    ∀ other value, (before.setCount segment count).fCount other = some value → value < 2 ^ 32 := by
  intro other value stored
  by_cases same : other = segment
  · subst same
    simp only [Session.setCount, Function.update_self, Option.some.injEq] at stored
    omega
  · simp only [Session.setCount, Function.update_of_ne same] at stored
    exact shared.bounded other value stored

theorem countDevice (shared : Shared before) {mutex segment : Nat}
    (found : before.devices[device]? = some (.segmentOpened mutex segment))
    (room : (before.fCount segment).getD 0 + 1 < 2 ^ 32) :
    Shared (before.countDevice device mutex segment) := by
  have named : before.segmentName = some segment :=
    shared.held _ (List.mem_of_getElem? found) segment rfl
  have incremented : Session.incremented (before.fCount segment) =
      (before.fCount segment).getD 0 + 1 := by
    cases count : before.fCount segment with
    | none => rfl
    | some value =>
        simp only [count, Option.getD_some] at room
        exact Nat.mod_eq_of_lt room
  refine ⟨shared.held_set ?_, ?_, shared.bounded_setCount (by omega)⟩
  · intro other uses
    cases uses
    exact named
  · intro other otherNamed
    cases named.symm.trans otherNamed
    have moved := sum_map_set Factory.counted found (.constructed mutex segment)
    have enough := shared.counted segment named
    simp only [Factory.counted, add_zero] at moved
    simp only [Session.countDevice, Session.setCount, Session.put, Function.update_self,
      Option.getD_some, incremented]
    omega

theorem discountDevice (shared : Shared before) {mutex segment : Nat}
    (found : before.devices[device]? = some (.constructed mutex segment))
    (orderly : before.fCount segment = some 1 →
      ∀ factory ∈ before.devices, factory.uncounted = false)
    (stepped : before.discountDevice device segment = some after) : Shared after := by
  have named : before.segmentName = some segment :=
    shared.held _ (List.mem_of_getElem? found) segment rfl
  have enough := shared.counted segment named
  have moved : ∀ new : Factory, new.counted = 0 →
      ((before.devices.set device new).map Factory.counted).sum + 1 =
        (before.devices.map Factory.counted).sum := by
    intro new discounted
    have moved := sum_map_set Factory.counted found new
    rw [discounted] at moved
    exact moved
  unfold Session.discountDevice at stepped
  split at stepped
  · contradiction
  · rename_i count stored
    have small := shared.bounded segment count stored
    rw [stored, Option.getD_some] at enough
    have positive : 0 < count := by
      have one := moved .removing rfl
      omega
    have decremented : Session.decremented count = count - 1 := by
      unfold Session.decremented
      omega
    split at stepped
    · rename_i last
      cases stepped
      have single : count = 1 := by omega
      have alone := moved .removing rfl
      have unused : ∀ factory ∈ before.devices.set device .removing, factory.segment? = none := by
        intro factory member
        have discounted : factory.counted = 0 := by
          have part := List.le_sum_of_mem (List.mem_map_of_mem (f := Factory.counted) member)
          omega
        refine Factory.segment?_eq_none ?_ discounted
        cases List.mem_or_eq_of_mem_set member with
        | inl known => exact orderly (single ▸ stored) factory known
        | inr same => exact same ▸ rfl
      refine ⟨?_, ?_, shared.bounded_setCount (by omega)⟩
      · intro factory member other uses
        simp [unused factory member] at uses
      · intro other named
        cases named
    · cases stepped
      refine ⟨shared.held_set (fun _ uses => by cases uses), ?_,
        shared.bounded_setCount (by omega)⟩
      intro other otherNamed
      cases named.symm.trans otherNamed
      have fewer := moved .destroyed rfl
      simp only [Session.setCount, Session.put, Function.update_self, Option.getD_some,
        decremented]
      omega

theorem start (devices : Nat) : Shared (.start devices) where
  held factory member segment uses := by
    rw [(List.mem_replicate.mp member).2] at uses
    cases uses
  counted segment named := by cases named
  bounded segment count stored := by cases stored

theorem step (shared : Shared before) {action : SessionAction} (orderly : Orderly before action)
    (stepped : before.step action = some after) : Shared after := by
  cases action with
  | openMutex device =>
      simp only [Session.step] at stepped
      split at stepped
      · rename_i found
        cases stepped
        unfold Session.openMutex
        split
        · rename_i mutex _
          exact shared.move found (.mutexOpened mutex) (fun _ uses => by cases uses) (le_refl 0)
            rfl rfl rfl
        · exact shared.move found (.mutexOpened before.created) (fun _ uses => by cases uses)
            (le_refl 0) rfl rfl rfl
      · contradiction
  | openSegment device =>
      simp only [Session.step] at stepped
      split at stepped
      · rename_i found
        cases stepped
        exact shared.openSegment found
      · contradiction
  | countDevice device =>
      simp only [Session.step] at stepped
      split at stepped
      · rename_i found
        cases stepped
        simp only [Orderly, Session.overflows, found, decide_eq_false_iff_not, not_le] at orderly
        exact shared.countDevice found orderly
      · contradiction
  | discountDevice device =>
      simp only [Session.step] at stepped
      split at stepped
      · rename_i found
        simp only [Orderly, Session.lastCounted, found, beq_iff_eq] at orderly
        exact shared.discountDevice found orderly stepped
      · contradiction
  | removeMutex device =>
      simp only [Session.step] at stepped
      split at stepped
      · rename_i found
        cases stepped
        exact shared.move found .destroyed (fun _ uses => by cases uses) (le_refl 0) rfl rfl rfl
      · contradiction
  | abandon device =>
      simp only [Session.step] at stepped
      split at stepped
      · rename_i found
        cases stepped
        exact shared.move found .destroyed (fun _ uses => by cases uses) (Nat.zero_le _) rfl rfl rfl
      · contradiction

end Shared

theorem shared_of_reaches {session : Session}
    (reached : sessionSystem.ReachesUnder Orderly session) : Shared session := by
  refine reached.invariant ?_ ?_
  · intro state start
    obtain ⟨devices, rfl⟩ := start
    exact .start devices
  · intro before action after shared orderly stepped
    exact shared.step orderly stepped

/-- In orderly runs any two constructed factories hold the same segment, the one
registered under the name. -/
theorem orderly_devices_share_segment {session : Session}
    (reached : sessionSystem.ReachesUnder Orderly session)
    {i j mutexI mutexJ segmentI segmentJ : Nat}
    (left : session.devices[i]? = some (.constructed mutexI segmentI))
    (right : session.devices[j]? = some (.constructed mutexJ segmentJ)) :
    segmentI = segmentJ ∧ session.segmentName = some segmentI := by
  have shared := shared_of_reaches reached
  have namedI := shared.held _ (List.mem_of_getElem? left) segmentI rfl
  have namedJ := shared.held _ (List.mem_of_getElem? right) segmentJ rfl
  exact ⟨Option.some.inj (namedI.symm.trans namedJ), namedI⟩

/-- They need not hold the same mutex: the name is removed in a step of its own, after the
second device has opened it, and nothing then keeps the two locked blocks apart. -/
example : (sessionSystem.runUnder Orderly (Session.start 3)
    [.openMutex 0, .openSegment 0, .countDevice 0, .openMutex 1, .discountDevice 0,
      .openSegment 1, .removeMutex 0, .countDevice 1, .openMutex 2, .openSegment 2,
      .countDevice 2]).map Session.devices =
    some [.destroyed, .constructed 0 2, .constructed 3 2] := by decide

/-- Three devices come and the first one leaves. -/
theorem remaining_devices_share_segment :
    ∃ session, sessionSystem.ReachesUnder Orderly session ∧
      session.devices = [.destroyed, .constructed 0 1, .constructed 0 1] ∧
      session.segmentName = some 1 := by
  obtain ⟨session, reached, devices⟩ :
      ∃ session, sessionSystem.ReachesUnder Orderly session ∧
        session.devices = [.destroyed, .constructed 0 1, .constructed 0 1] :=
    TransitionSystem.reaches_of_runUnder (Session.start 3)
      [.openMutex 0, .openSegment 0, .openMutex 1, .countDevice 0, .openSegment 1,
        .countDevice 1, .discountDevice 0, .openMutex 2, .openSegment 2, .countDevice 2]
      ⟨3, rfl⟩ (by decide)
  have left : session.devices[1]? = some (.constructed 0 1) := by simp [devices]
  have right : session.devices[2]? = some (.constructed 0 1) := by simp [devices]
  exact ⟨session, reached, devices, (orderly_devices_share_segment reached left right).2⟩

/-- The last counted device removes the name between the second device's opening of
the segment and its counting; the third device then creates another segment. -/
theorem overtaken_devices_hold_two_segments :
    ∃ session, sessionSystem.Reaches session ∧
      session.devices = [.destroyed, .constructed 0 1, .constructed 2 3] ∧
      session.segmentName = some 3 :=
  TransitionSystem.reaches_of_runUnder (Session.start 3)
    [.openMutex 0, .openSegment 0, .countDevice 0, .openMutex 1, .openSegment 1,
      .discountDevice 0, .removeMutex 0, .countDevice 1, .openMutex 2, .openSegment 2,
      .countDevice 2]
    ⟨3, rfl⟩ (by decide)

end FairMQ.Shmem
