import FairMQ.Data.TransitionSystem
import Mathlib.Data.List.Nodup
import Mathlib.Logic.Function.Basic

namespace FairMQ.EventManager

open FairMQ.Data

/-! # `EventManager`: subscriptions of concurrent clients

`Subscribe` connects its callback to the signal first and only then, under
`fMutex`, puts the connection into `fConnections` in place of an older one.  The
two parts are separate steps here, `Unsubscribe` is one.  Between its two steps a
subscription is live but not recorded. -/

variable {TypeIndex Callback : Type}

abbrev SignalsKey (TypeIndex : Type) := TypeIndex × TypeIndex

abbrev ConnectionsKey (TypeIndex : Type) := String × SignalsKey TypeIndex

structure Subscription (TypeIndex Callback : Type) where
  key : ConnectionsKey TypeIndex
  callback : Callback
deriving DecidableEq

/-- A connection is a position in `subscriptions`, the calls of `Subscribe` so far,
and a signal is the list of its live connections.  `subscribing` holds the
connections whose `Subscribe` is between its two steps.  `recorded` is history: the
map steps, the newest first. -/
structure Manager (TypeIndex Callback : Type) where
  fSignals : SignalsKey TypeIndex → Option (List Nat)
  fConnections : ConnectionsKey TypeIndex → Option Nat
  subscriptions : List (Subscription TypeIndex Callback)
  subscribing : List Nat
  recorded : List (ConnectionsKey TypeIndex × Nat)

inductive OutOfRange where
  | connectionsKey
deriving DecidableEq

inductive Action (TypeIndex Callback : Type) where
  | connect (key : ConnectionsKey TypeIndex) (callback : Callback)
  | record (connection : Nat)
  | unsubscribe (key : ConnectionsKey TypeIndex)
  | emit (key : SignalsKey TypeIndex)

namespace Manager

def new : Manager TypeIndex Callback := ⟨fun _ => none, fun _ => none, [], [], []⟩

/-- The live connections of a signal; one that does not exist yet has none. -/
def signal (manager : Manager TypeIndex Callback) (key : SignalsKey TypeIndex) : List Nat :=
  (manager.fSignals key).getD []

def liveFor [DecidableEq TypeIndex] (manager : Manager TypeIndex Callback)
    (key : ConnectionsKey TypeIndex) : List Nat :=
  (manager.signal key.2).filter fun connection =>
    manager.subscriptions[connection]?.any fun subscription => subscription.key = key

def lastRecorded [DecidableEq TypeIndex] (manager : Manager TypeIndex Callback)
    (key : ConnectionsKey TypeIndex) : Option (Subscription TypeIndex Callback) :=
  (manager.recorded.find? fun entry => entry.1 = key).bind fun entry =>
    manager.subscriptions[entry.2]?

variable [DecidableEq TypeIndex]

def setSignal (key : SignalsKey TypeIndex) (connections : List Nat)
    (manager : Manager TypeIndex Callback) : Manager TypeIndex Callback :=
  { manager with fSignals := Function.update manager.fSignals key (some connections) }

def setConnection (key : ConnectionsKey TypeIndex) (connection : Option Nat)
    (manager : Manager TypeIndex Callback) : Manager TypeIndex Callback :=
  { manager with fConnections := Function.update manager.fConnections key connection }

def getSignal (key : SignalsKey TypeIndex) (manager : Manager TypeIndex Callback) :
    Manager TypeIndex Callback :=
  manager.setSignal key (manager.signal key)

def disconnect (key : SignalsKey TypeIndex) (connection : Nat)
    (manager : Manager TypeIndex Callback) : Manager TypeIndex Callback :=
  manager.setSignal key ((manager.signal key).erase connection)

def connect (key : ConnectionsKey TypeIndex) (callback : Callback)
    (manager : Manager TypeIndex Callback) : Manager TypeIndex Callback :=
  let connection := manager.subscriptions.length
  { manager.setSignal key.2 (manager.signal key.2 ++ [connection]) with
    subscriptions := manager.subscriptions ++ [⟨key, callback⟩]
    subscribing := connection :: manager.subscribing }

def record (key : ConnectionsKey TypeIndex) (connection : Nat)
    (manager : Manager TypeIndex Callback) : Manager TypeIndex Callback :=
  let disconnected :=
    match manager.fConnections key with
    | some old => (manager.disconnect key.2 old).setConnection key none
    | none => manager
  { disconnected.setConnection key (some connection) with
    subscribing := manager.subscribing.erase connection
    recorded := (key, connection) :: manager.recorded }

def emit (key : SignalsKey TypeIndex) (manager : Manager TypeIndex Callback) :
    List (Subscription TypeIndex Callback) × Manager TypeIndex Callback :=
  ((manager.signal key).filterMap (manager.subscriptions[·]?), manager.getSignal key)

end Manager

def unsubscribe [DecidableEq TypeIndex] (key : ConnectionsKey TypeIndex) :
    EStateM OutOfRange (Manager TypeIndex Callback) Unit := do
  match (← get).fConnections key with
  | none => throw .connectionsKey
  | some connection =>
      modify (Manager.disconnect key.2 connection)
      modify (Manager.setConnection key none)

def Manager.step [DecidableEq TypeIndex] (manager : Manager TypeIndex Callback) :
    Action TypeIndex Callback → Option (Manager TypeIndex Callback)
  | .connect key callback => some (manager.connect key callback)
  | .record connection =>
      if connection ∈ manager.subscribing then
        manager.subscriptions[connection]?.map fun subscription =>
          manager.record subscription.key connection
      else none
  | .unsubscribe key =>
      match (unsubscribe key).run manager with
      | .ok _ after => some after
      | .error _ after => some after
  | .emit key => some (manager.emit key).2

def managerSystem [DecidableEq TypeIndex] :
    TransitionSystem (Manager TypeIndex Callback) (Action TypeIndex Callback) where
  initial manager := manager = .new
  step := Manager.step

theorem getElem?_concat_of_ne {α : Type} {values : List α} {i : Nat} (other : i ≠ values.length)
    (value : α) : (values ++ [value])[i]? = values[i]? := by
  rcases Nat.lt_or_gt_of_ne other with inside | outside
  · exact List.getElem?_append_left inside
  · rw [List.getElem?_eq_none (by simp; omega), List.getElem?_eq_none (by omega)]

section Signals

variable [DecidableEq TypeIndex] (manager : Manager TypeIndex Callback)

@[simp]
theorem signal_setSignal (key other : SignalsKey TypeIndex) (connections : List Nat) :
    (manager.setSignal key connections).signal other =
      if other = key then connections else manager.signal other := by
  unfold Manager.signal Manager.setSignal
  dsimp only
  rw [Function.update_apply]
  split <;> rfl

theorem signal_getSignal (key other : SignalsKey TypeIndex) :
    (manager.getSignal key).signal other = manager.signal other := by
  unfold Manager.getSignal
  rw [signal_setSignal]
  split
  · rename_i same
    rw [same]
  · rfl

theorem signal_connect (key : ConnectionsKey TypeIndex) (callback : Callback)
    (other : SignalsKey TypeIndex) :
    (manager.connect key callback).signal other =
      if other = key.2 then manager.signal key.2 ++ [manager.subscriptions.length]
      else manager.signal other :=
  signal_setSignal manager key.2 other _

theorem unsubscribe_run (key : ConnectionsKey TypeIndex) :
    (unsubscribe key).run manager =
      match manager.fConnections key with
      | none => .error .connectionsKey manager
      | some connection =>
          .ok () ((manager.disconnect key.2 connection).setConnection key none) := by
  simp only [unsubscribe, EStateM.run_bind, EStateM.run_get]
  cases manager.fConnections key with
  | none => simp only [EStateM.run_throw]
  | some connection => simp only [EStateM.run_bind, EStateM.run_modify]

end Signals

structure Tracked [DecidableEq TypeIndex] (manager : Manager TypeIndex Callback) : Prop where
  known : ∀ connection ∈ manager.subscribing, connection < manager.subscriptions.length
  distinct : manager.subscribing.Nodup
  live : ∀ key connection, connection ∈ manager.signal key ↔
    ∃ subscription, manager.subscriptions[connection]? = some subscription ∧
      subscription.key.2 = key ∧
      (connection ∈ manager.subscribing ∨
        manager.fConnections subscription.key = some connection)
  once : ∀ key, (manager.signal key).Nodup
  stored : ∀ key connection, manager.fConnections key = some connection →
    (∃ subscription, manager.subscriptions[connection]? = some subscription ∧
      subscription.key = key) ∧
    connection ∉ manager.subscribing ∧
    manager.recorded.find? (fun entry => entry.1 = key) = some (key, connection)

namespace Tracked

variable [DecidableEq TypeIndex] {manager : Manager TypeIndex Callback}

theorem new : Tracked (.new : Manager TypeIndex Callback) where
  known := by simp [Manager.new]
  distinct := .nil
  live := by simp [Manager.new, Manager.signal]
  once := by simp [Manager.new, Manager.signal]
  stored := by simp [Manager.new]

theorem fresh (tracked : Tracked manager) (key : SignalsKey TypeIndex) :
    manager.subscriptions.length ∉ manager.signal key := by
  rw [tracked.live]
  simp

theorem connect (tracked : Tracked manager) (key : ConnectionsKey TypeIndex)
    (callback : Callback) : Tracked (manager.connect key callback) where
  known := by
    intro connection member
    simp only [Manager.connect, List.mem_cons] at member
    simp only [Manager.connect, List.length_append, List.length_singleton]
    cases member with
    | inl new => omega
    | inr old =>
        have bound := tracked.known connection old
        omega
  distinct := by
    refine List.nodup_cons.mpr ⟨?_, tracked.distinct⟩
    intro member
    exact absurd (tracked.known _ member) (Nat.lt_irrefl _)
  live := by
    intro other connection
    rw [signal_connect]
    by_cases isNew : connection = manager.subscriptions.length
    · subst isNew
      simp only [Manager.connect, List.getElem?_concat_length, Option.some.injEq, exists_eq_left',
        List.mem_cons, true_or, and_true]
      split
      · rename_i same
        simp [same]
      · rename_i different
        exact iff_of_false (tracked.fresh other) fun same => different same.symm
    · have unchanged : (manager.connect key callback).subscriptions[connection]? =
          manager.subscriptions[connection]? := getElem?_concat_of_ne isNew _
      have before : connection ∈ (if other = key.2
          then manager.signal key.2 ++ [manager.subscriptions.length]
          else manager.signal other) ↔ connection ∈ manager.signal other := by
        split
        · rename_i same
          simp [same, isNew]
        · exact Iff.rfl
      rw [before, unchanged, tracked.live]
      simp only [Manager.connect, Manager.setSignal, List.mem_cons, isNew, false_or]
  once := by
    intro other
    rw [signal_connect]
    split
    · rw [← List.concat_eq_append]
      exact (tracked.once key.2).concat (tracked.fresh key.2)
    · exact tracked.once other
  stored := by
    intro other connection found
    obtain ⟨⟨subscription, made, isKey⟩, settled, last⟩ := tracked.stored other connection found
    obtain ⟨bound, _⟩ := List.getElem?_eq_some_iff.mp made
    refine ⟨⟨subscription, ?_, isKey⟩, ?_, last⟩
    · exact (List.getElem?_append_left bound).trans made
    · simp only [Manager.connect, List.mem_cons, not_or]
      exact ⟨Nat.ne_of_lt bound, settled⟩

theorem mem_signal (tracked : Tracked manager) {connection : Nat}
    {owner : Subscription TypeIndex Callback}
    (made : manager.subscriptions[connection]? = some owner) (key : SignalsKey TypeIndex) :
    connection ∈ manager.signal key ↔ owner.key.2 = key ∧
      (connection ∈ manager.subscribing ∨ manager.fConnections owner.key = some connection) := by
  rw [tracked.live, made]
  simp only [Option.some.injEq, exists_eq_left']

theorem key_of_stored (tracked : Tracked manager) {key : ConnectionsKey TypeIndex}
    {connection : Nat} {subscription : Subscription TypeIndex Callback}
    (found : manager.fConnections key = some connection)
    (made : manager.subscriptions[connection]? = some subscription) : subscription.key = key := by
  obtain ⟨⟨subscription', made', isKey⟩, _⟩ := tracked.stored key connection found
  rw [made] at made'
  cases made'
  exact isKey

theorem mem_disconnect (tracked : Tracked manager) {key : ConnectionsKey TypeIndex} {old : Nat}
    (found : manager.fConnections key = some old) (other : SignalsKey TypeIndex)
    (connection : Nat) :
    connection ∈ (manager.disconnect key.2 old).signal other ↔
      connection ∈ manager.signal other ∧ connection ≠ old := by
  obtain ⟨⟨subscription, made, isKey⟩, _⟩ := tracked.stored key old found
  rw [Manager.disconnect, signal_setSignal]
  split
  · rename_i same
    rw [same, (tracked.once key.2).mem_erase_iff, and_comm]
  · rename_i different
    refine ⟨fun member => ⟨member, ?_⟩, fun member => member.1⟩
    intro isOld
    subst isOld
    have isOther := ((tracked.mem_signal made other).mp member).1
    exact different (isOther.symm.trans (congrArg Prod.snd isKey))

theorem disconnect_once (tracked : Tracked manager) (key other : SignalsKey TypeIndex)
    (old : Nat) : ((manager.disconnect key old).signal other).Nodup := by
  rw [Manager.disconnect, signal_setSignal]
  split
  · exact (tracked.once key).erase old
  · exact tracked.once other

theorem held_unsubscribe (tracked : Tracked manager) {key : ConnectionsKey TypeIndex} {old : Nat}
    (found : manager.fConnections key = some old) {connection : Nat}
    {owner : Subscription TypeIndex Callback}
    (made : manager.subscriptions[connection]? = some owner) :
    (connection ∈ manager.subscribing ∨
        Function.update manager.fConnections key none owner.key = some connection) ↔
      (connection ∈ manager.subscribing ∨ manager.fConnections owner.key = some connection) ∧
        connection ≠ old := by
  by_cases same : owner.key = key
  · rw [same, Function.update_self, found]
    simp only [reduceCtorEq, or_false, Option.some.injEq]
    constructor
    · intro subscribing
      refine ⟨.inl subscribing, ?_⟩
      intro isOld
      exact (tracked.stored key old found).2.1 (isOld ▸ subscribing)
    · intro ⟨held, notOld⟩
      exact held.resolve_right (Ne.symm notOld)
  · rw [Function.update_of_ne same]
    have notOld : connection ≠ old := by
      intro isOld
      subst isOld
      exact same (tracked.key_of_stored found made)
    simp only [notOld, ne_eq, not_false_eq_true, and_true]

theorem unsubscribe (tracked : Tracked manager) {key : ConnectionsKey TypeIndex} {old : Nat}
    (found : manager.fConnections key = some old) :
    Tracked ((manager.disconnect key.2 old).setConnection key none) where
  known := tracked.known
  distinct := tracked.distinct
  live := by
    intro other connection
    change connection ∈ (manager.disconnect key.2 old).signal other ↔ ∃ subscription,
      manager.subscriptions[connection]? = some subscription ∧ subscription.key.2 = other ∧
        (connection ∈ manager.subscribing ∨
          Function.update manager.fConnections key none subscription.key = some connection)
    rw [tracked.mem_disconnect found, tracked.live]
    constructor
    · intro ⟨⟨owner, made, isOther, held⟩, notOld⟩
      exact ⟨owner, made, isOther, (tracked.held_unsubscribe found made).mpr ⟨held, notOld⟩⟩
    · intro ⟨owner, made, isOther, held⟩
      obtain ⟨held, notOld⟩ := (tracked.held_unsubscribe found made).mp held
      exact ⟨⟨owner, made, isOther, held⟩, notOld⟩
  once := fun other => tracked.disconnect_once key.2 other old
  stored := by
    intro other connection present
    by_cases same : other = key
    · subst same
      simp [Manager.setConnection] at present
    · have present : manager.fConnections other = some connection := by
        simpa [Manager.setConnection, Manager.disconnect, Manager.setSignal, same] using present
      exact tracked.stored other connection present

theorem mem_record (tracked : Tracked manager) (key : ConnectionsKey TypeIndex) (new : Nat)
    (other : SignalsKey TypeIndex) (connection : Nat) :
    connection ∈ (manager.record key new).signal other ↔
      connection ∈ manager.signal other ∧ manager.fConnections key ≠ some connection := by
  cases found : manager.fConnections key with
  | none =>
      have unchanged : (manager.record key new).signal other = manager.signal other := by
        simp only [Manager.record, found]
        rfl
      simp [unchanged]
  | some old =>
      have disconnected : (manager.record key new).signal other =
          (manager.disconnect key.2 old).signal other := by
        simp only [Manager.record, found]
        rfl
      rw [disconnected, tracked.mem_disconnect found]
      simp [eq_comm]

theorem fConnections_record (key : ConnectionsKey TypeIndex) (new : Nat) :
    (manager.record key new).fConnections =
      Function.update manager.fConnections key (some new) := by
  unfold Manager.record
  cases manager.fConnections key with
  | none => rfl
  | some old => exact Function.update_idem ..

theorem subscriptions_record (key : ConnectionsKey TypeIndex) (new : Nat) :
    (manager.record key new).subscriptions = manager.subscriptions := by
  unfold Manager.record
  cases manager.fConnections key <;> rfl

section Record

variable {new : Nat} {subscription : Subscription TypeIndex Callback}

theorem held_record (tracked : Tracked manager) (pending : new ∈ manager.subscribing)
    (newMade : manager.subscriptions[new]? = some subscription) {connection : Nat}
    {owner : Subscription TypeIndex Callback}
    (made : manager.subscriptions[connection]? = some owner) :
    (connection ∈ (manager.record subscription.key new).subscribing ∨
        (manager.record subscription.key new).fConnections owner.key = some connection) ↔
      (connection ∈ manager.subscribing ∨ manager.fConnections owner.key = some connection) ∧
        manager.fConnections subscription.key ≠ some connection := by
  have unstored : ∀ connection ∈ manager.subscribing,
      manager.fConnections subscription.key ≠ some connection := by
    intro connection subscribing found
    exact (tracked.stored _ connection found).2.1 subscribing
  have pendingAfter : connection ∈ (manager.record subscription.key new).subscribing ↔
      connection ≠ new ∧ connection ∈ manager.subscribing := tracked.distinct.mem_erase_iff
  rw [pendingAfter, fConnections_record]
  by_cases same : owner.key = subscription.key
  · rw [same, Function.update_self, Option.some.injEq]
    constructor
    · intro held
      have subscribing : connection ∈ manager.subscribing := by
        cases held with
        | inl waiting => exact waiting.2
        | inr isNew => exact isNew ▸ pending
      exact ⟨.inl subscribing, unstored connection subscribing⟩
    · intro ⟨held, notOld⟩
      by_cases isNew : new = connection
      · exact .inr isNew
      · exact .inl ⟨Ne.symm isNew, held.resolve_right notOld⟩
  · rw [Function.update_of_ne same]
    have notNew : connection ≠ new := by
      intro isNew
      rw [isNew, newMade] at made
      cases made
      exact same rfl
    have notOld : manager.fConnections subscription.key ≠ some connection := by
      intro found
      exact same (tracked.key_of_stored found made)
    simp only [notNew, notOld, ne_eq, not_false_eq_true, true_and, and_true]

theorem record (tracked : Tracked manager) (pending : new ∈ manager.subscribing)
    (newMade : manager.subscriptions[new]? = some subscription) :
    Tracked (manager.record subscription.key new) where
  known := by
    intro connection member
    rw [subscriptions_record]
    exact tracked.known connection (List.mem_of_mem_erase member)
  distinct := tracked.distinct.erase new
  live := by
    intro other connection
    rw [tracked.mem_record, tracked.live, subscriptions_record]
    constructor
    · intro ⟨⟨owner, made, isOther, held⟩, notOld⟩
      exact ⟨owner, made, isOther, (tracked.held_record pending newMade made).mpr ⟨held, notOld⟩⟩
    · intro ⟨owner, made, isOther, held⟩
      obtain ⟨held, notOld⟩ := (tracked.held_record pending newMade made).mp held
      exact ⟨⟨owner, made, isOther, held⟩, notOld⟩
  once := by
    intro other
    unfold Manager.record
    cases manager.fConnections subscription.key with
    | none => exact tracked.once other
    | some old => exact tracked.disconnect_once _ other old
  stored := by
    intro other connection found
    rw [fConnections_record] at found
    rw [subscriptions_record]
    by_cases same : other = subscription.key
    · rw [same, Function.update_self] at found
      cases found
      refine ⟨⟨subscription, newMade, same.symm⟩, tracked.distinct.not_mem_erase, ?_⟩
      simp [Manager.record, same]
    · rw [Function.update_of_ne same] at found
      obtain ⟨owner, settled, last⟩ := tracked.stored other connection found
      refine ⟨owner, fun member => settled (List.mem_of_mem_erase member), ?_⟩
      simpa [Manager.record, Ne.symm same] using last

end Record

theorem emit (tracked : Tracked manager) (key : SignalsKey TypeIndex) :
    Tracked (manager.getSignal key) where
  known := tracked.known
  distinct := tracked.distinct
  live := by
    intro other connection
    rw [signal_getSignal]
    exact tracked.live other connection
  once := by
    intro other
    rw [signal_getSignal]
    exact tracked.once other
  stored := tracked.stored

theorem step (tracked : Tracked manager) {action : Action TypeIndex Callback}
    {after : Manager TypeIndex Callback} (stepped : manager.step action = some after) :
    Tracked after := by
  cases action with
  | connect key callback =>
      cases stepped
      exact tracked.connect key callback
  | record connection =>
      simp only [Manager.step] at stepped
      split at stepped
      · rename_i pending
        obtain ⟨subscription, made, isAfter⟩ := Option.map_eq_some_iff.mp stepped
        subst isAfter
        exact tracked.record pending made
      · contradiction
  | unsubscribe key =>
      simp only [Manager.step, unsubscribe_run] at stepped
      cases found : manager.fConnections key with
      | none =>
          simp only [found, Option.some.injEq] at stepped
          exact stepped ▸ tracked
      | some old =>
          simp only [found, Option.some.injEq] at stepped
          exact stepped ▸ tracked.unsubscribe found
  | emit key =>
      cases stepped
      exact tracked.emit key

end Tracked

theorem tracked_of_reaches [DecidableEq TypeIndex] {manager : Manager TypeIndex Callback}
    (reached : managerSystem.Reaches manager) : Tracked manager := by
  induction reached with
  | initial start =>
      cases start
      exact .new
  | step _ _ stepped ih => exact ih.step stepped

section Settled

variable [DecidableEq TypeIndex] {manager : Manager TypeIndex Callback}

theorem Tracked.mem_liveFor (tracked : Tracked manager) (settled : manager.subscribing = [])
    (key : ConnectionsKey TypeIndex) (connection : Nat) :
    connection ∈ manager.liveFor key ↔ manager.fConnections key = some connection := by
  simp only [Manager.liveFor, List.mem_filter, Option.any_eq_true, decide_eq_true_eq]
  constructor
  · intro ⟨isLive, subscription, made, isKey⟩
    cases ((tracked.mem_signal made key.2).mp isLive).2 with
    | inl subscribing => simp [settled] at subscribing
    | inr present => exact isKey ▸ present
  · intro present
    obtain ⟨⟨subscription, made, isKey⟩, _⟩ := tracked.stored key connection present
    refine ⟨(tracked.mem_signal made key.2).mpr ?_, subscription, made, isKey⟩
    exact ⟨congrArg Prod.snd isKey, .inr (isKey.symm ▸ present)⟩

theorem Tracked.liveFor_eq (tracked : Tracked manager) (settled : manager.subscribing = [])
    (key : ConnectionsKey TypeIndex) :
    manager.liveFor key = (manager.fConnections key).toList := by
  have distinct : (manager.liveFor key).Nodup := (tracked.once key.2).filter _
  cases found : manager.fConnections key with
  | none =>
      apply List.eq_nil_iff_forall_not_mem.mpr
      intro connection isLive
      rw [tracked.mem_liveFor settled, found] at isLive
      cases isLive
  | some stored =>
      apply List.perm_singleton.mp
      apply (List.perm_ext_iff_of_nodup distinct (List.nodup_singleton stored)).mpr
      intro connection
      rw [tracked.mem_liveFor settled, found, List.mem_singleton, Option.some.injEq, eq_comm]

theorem emit_filter (key : ConnectionsKey TypeIndex) :
    (manager.emit key.2).1.filter (fun subscription => subscription.key = key) =
      (manager.liveFor key).filterMap (manager.subscriptions[·]?) := by
  unfold Manager.emit Manager.liveFor
  rw [List.filter_filterMap, List.filterMap_filter]
  apply List.filterMap_congr
  intro connection _
  cases manager.subscriptions[connection]? with
  | none => rfl
  | some subscription => simp [Option.filter]

theorem Tracked.emit_own (tracked : Tracked manager) (key : SignalsKey TypeIndex) :
    ∀ subscription ∈ (manager.emit key).1, subscription.key.2 = key := by
  intro subscription called
  obtain ⟨connection, isLive, made⟩ := List.mem_filterMap.mp called
  exact ((tracked.mem_signal made key).mp isLive).1

end Settled

/-- Whenever no `Subscribe` is between its steps, the live connections of a key are
what `fConnections` holds for it, an `Emit` calls for a subscriber the callback that
was recorded last and no other, and `Unsubscribe` of an absent key throws and leaves
the manager as it is. -/
theorem settled_subscriptions_exact [DecidableEq TypeIndex] {manager : Manager TypeIndex Callback}
    (reached : managerSystem.Reaches manager) (settled : manager.subscribing = [])
    (key : ConnectionsKey TypeIndex) :
    manager.liveFor key = (manager.fConnections key).toList ∧
    (∀ subscription ∈ (manager.emit key.2).1, subscription.key.2 = key.2) ∧
    (∀ connection, manager.fConnections key = some connection →
      ∃ subscription, manager.subscriptions[connection]? = some subscription ∧
        manager.lastRecorded key = some subscription ∧
        (manager.emit key.2).1.filter (fun called => called.key = key) = [subscription]) ∧
    (manager.fConnections key = none →
      (manager.emit key.2).1.filter (fun called => called.key = key) = [] ∧
      (unsubscribe key).run manager = .error .connectionsKey manager) := by
  have tracked := tracked_of_reaches reached
  have exact_live := tracked.liveFor_eq settled key
  refine ⟨exact_live, tracked.emit_own key.2, ?_, ?_⟩
  · intro connection found
    obtain ⟨⟨subscription, made, _⟩, _, last⟩ := tracked.stored key connection found
    refine ⟨subscription, made, ?_, ?_⟩
    · simpa [Manager.lastRecorded, last] using made
    · simp [emit_filter, exact_live, found, made]
  · intro absent
    constructor
    · simp [emit_filter, exact_live, absent]
    · rw [unsubscribe_run, absent]

/-- Two calls for one key overlap; the first to connect is the last to be recorded. -/
theorem overlapping_subscribes_settled :
    ∃ manager : Manager Unit Nat, managerSystem.Reaches manager ∧ manager.subscribing = [] ∧
      manager.fConnections ("client", (), ()) = some 0 ∧
      manager.liveFor ("client", (), ()) = [0] ∧
      manager.lastRecorded ("client", (), ()) = some ⟨("client", (), ()), 7⟩ := by
  let key : ConnectionsKey Unit := ("client", (), ())
  obtain ⟨manager, reached, settled, stored, made⟩ :
      ∃ manager : Manager Unit Nat, managerSystem.Reaches manager ∧ manager.subscribing = [] ∧
        manager.fConnections key = some 0 ∧ manager.subscriptions[0]? = some ⟨key, 7⟩ :=
    TransitionSystem.reaches_of_runUnder Manager.new
      [.connect key 7, .connect key 8, .record 1, .record 0] rfl (by decide)
  obtain ⟨live, _, present, _⟩ := settled_subscriptions_exact reached settled key
  obtain ⟨subscription, owned, last, _⟩ := present 0 stored
  rw [made] at owned
  cases owned
  exact ⟨manager, reached, settled, stored, by rw [live, stored]; rfl, last⟩

end FairMQ.EventManager
