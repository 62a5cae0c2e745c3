import FairMQ.Data.UnorderedMap
import FairMQ.StateMachine.Transitions

namespace FairMQ.StateMachine

open FairMQ.Data

variable {Callback : Type}

structure Slot (Callback : Type) where
  key : String
  callback : Callback
deriving DecidableEq, Repr

/-- Connections are numbered in the order in which they are made. -/
structure Subscribers (Callback : Type) where
  fStateChangeSignal : List (Nat × Slot Callback)
  fStateChangeSignalsMap : UnorderedMap String Nat
  connected : Nat

inductive SubscriberCall (Callback : Type) where
  | subscribeToStateChange (key : String) (callback : Callback)
  | unsubscribeFromStateChange (key : String)
deriving DecidableEq, Repr

namespace Subscribers

def new : Subscribers Callback := ⟨[], .empty, 0⟩

def subscribeToStateChange (key : String) (callback : Callback)
    (subscribers : Subscribers Callback) : Subscribers Callback where
  fStateChangeSignal :=
    subscribers.fStateChangeSignal ++ [(subscribers.connected, ⟨key, callback⟩)]
  fStateChangeSignalsMap :=
    subscribers.fStateChangeSignalsMap.insert key subscribers.connected
  connected := subscribers.connected + 1

def unsubscribeFromStateChange (key : String) (subscribers : Subscribers Callback) :
    Subscribers Callback :=
  match subscribers.fStateChangeSignalsMap.get? key with
  | none => subscribers
  | some connection =>
      { subscribers with
        fStateChangeSignal :=
          subscribers.fStateChangeSignal.filter fun entry => entry.1 ≠ connection
        fStateChangeSignalsMap := subscribers.fStateChangeSignalsMap.erase key }

def callStateChangeCallbacks (state : State) (subscribers : Subscribers Callback) :
    List (Slot Callback × State) :=
  if subscribers.fStateChangeSignal.isEmpty then []
  else subscribers.fStateChangeSignal.map fun entry => (entry.2, state)

def perform (subscribers : Subscribers Callback) :
    SubscriberCall Callback → Subscribers Callback
  | .subscribeToStateChange key callback => subscribers.subscribeToStateChange key callback
  | .unsubscribeFromStateChange key => subscribers.unsubscribeFromStateChange key

def after (calls : List (SubscriberCall Callback)) : Subscribers Callback :=
  calls.foldl perform new

def live (key : String) (subscribers : Subscribers Callback) : List (Nat × Slot Callback) :=
  subscribers.fStateChangeSignal.filter fun entry => entry.2.key = key

end Subscribers

/-- The callback that a key is subscribed with, and how often it was subscribed while it
already was. -/
structure KeyHistory (Callback : Type) where
  current : Option Callback
  resubscribed : Nat
deriving DecidableEq, Repr

namespace KeyHistory

def record (key : String) (history : KeyHistory Callback) :
    SubscriberCall Callback → KeyHistory Callback
  | .subscribeToStateChange other callback =>
      if other = key then
        ⟨some callback, history.resubscribed + history.current.toList.length⟩
      else history
  | .unsubscribeFromStateChange other =>
      if other = key then { history with current := none } else history

def of (key : String) (calls : List (SubscriberCall Callback)) : KeyHistory Callback :=
  calls.foldl (record key) ⟨none, 0⟩

end KeyHistory

/-- `CallStateChangeCallbacks` calls the callback that the key is subscribed with, once,
and no other of this key. -/
def CalledOnce (calls : List (SubscriberCall Callback)) (key : String) : Prop :=
  ∀ state, (((Subscribers.after calls).callStateChangeCallbacks state).filter
      fun call => call.1.key = key).map (fun call => (call.1.callback, call.2)) =
    (KeyHistory.of key calls).current.toList.map fun callback => (callback, state)

theorem length_filter_ne {α : Type} {entries : List (Nat × α)} {entry : Nat × α}
    (distinct : (entries.map Prod.fst).Nodup) (member : entry ∈ entries) :
    (entries.filter fun other => other.1 ≠ entry.1).length + 1 = entries.length := by
  have once := List.count_eq_one_of_mem distinct (List.mem_map_of_mem member)
  have single : entries.countP (fun other => decide (other.1 = entry.1)) = 1 := by
    simpa [List.count, List.countP_map, Function.comp_def, beq_eq_decide] using once
  have split := List.length_eq_countP_add_countP (p := fun other => decide (other.1 = entry.1))
    (l := entries)
  simp only [single, decide_eq_true_eq] at split
  rw [← List.countP_eq_length_filter, split, Nat.add_comm]

structure Connected (subscribers : Subscribers Callback) : Prop where
  numbered : ∀ entry ∈ subscribers.fStateChangeSignal, entry.1 < subscribers.connected
  distinct : (subscribers.fStateChangeSignal.map Prod.fst).Nodup
  recorded : ∀ key connection, subscribers.fStateChangeSignalsMap.get? key = some connection →
    ∃ slot, (connection, slot) ∈ subscribers.fStateChangeSignal ∧ slot.key = key

structure Reflects (subscribers : Subscribers Callback) (key : String)
    (history : KeyHistory Callback) : Prop where
  present : (subscribers.fStateChangeSignalsMap.get? key).isSome = history.current.isSome
  count : (subscribers.live key).length = history.current.toList.length + history.resubscribed
  callback : history.resubscribed = 0 →
    (subscribers.live key).map (fun entry => entry.2.callback) = history.current.toList

section Steps

variable {subscribers : Subscribers Callback} {key : String} {history : KeyHistory Callback}

theorem Connected.subscribe (connected : Connected subscribers) (callback : Callback) :
    Connected (subscribers.subscribeToStateChange key callback) where
  numbered := by
    intro entry member
    simp only [Subscribers.subscribeToStateChange, List.mem_append, List.mem_singleton] at member ⊢
    rcases member with old | rfl
    · exact Nat.lt_succ_of_lt (connected.numbered entry old)
    · exact Nat.lt_succ_self _
  distinct := by
    simp only [Subscribers.subscribeToStateChange, List.map_append, List.map_cons, List.map_nil]
    rw [← List.concat_eq_append]
    apply connected.distinct.concat
    intro member
    obtain ⟨entry, known, same⟩ := List.mem_map.mp member
    exact Nat.ne_of_lt (connected.numbered entry known) same
  recorded := by
    intro other connection found
    simp only [Subscribers.subscribeToStateChange] at found ⊢
    have kept : subscribers.fStateChangeSignalsMap.get? other = some connection →
        ∃ slot, (connection, slot) ∈ subscribers.fStateChangeSignal ++
          [(subscribers.connected, ⟨key, callback⟩)] ∧ slot.key = other := by
      intro found
      obtain ⟨slot, member, isKey⟩ := connected.recorded other connection found
      exact ⟨slot, List.mem_append_left _ member, isKey⟩
    by_cases same : other = key
    · subst same
      cases stored : subscribers.fStateChangeSignalsMap.get? other with
      | none =>
          rw [UnorderedMap.get?_insert_self stored] at found
          cases found
          exact ⟨⟨other, callback⟩, by simp, rfl⟩
      | some old =>
          rw [UnorderedMap.insert_of_get? stored] at found
          exact kept found
    · rw [UnorderedMap.get?_insert_ne same] at found
      exact kept found

theorem Connected.key_eq (connected : Connected subscribers) {entry : Nat × Slot Callback}
    {connection : Nat} (member : entry ∈ subscribers.fStateChangeSignal)
    (found : subscribers.fStateChangeSignalsMap.get? key = some connection)
    (same : entry.1 = connection) : entry.2.key = key := by
  obtain ⟨slot, isLive, isKey⟩ := connected.recorded key connection found
  rw [List.inj_on_of_nodup_map connected.distinct member isLive same]
  exact isKey

theorem Connected.unsubscribe (connected : Connected subscribers) :
    Connected (subscribers.unsubscribeFromStateChange key) := by
  unfold Subscribers.unsubscribeFromStateChange
  split
  · exact connected
  · rename_i connection found
    refine ⟨?_, ?_, ?_⟩
    · intro entry member
      exact connected.numbered entry (List.mem_filter.mp member).1
    · exact connected.distinct.sublist (List.filter_sublist.map _)
    · intro other kept stillFound
      by_cases same : other = key
      · subst same
        simp [UnorderedMap.get?_erase_self] at stillFound
      · dsimp only at stillFound ⊢
        rw [UnorderedMap.get?_erase_ne same] at stillFound
        obtain ⟨ownSlot, ownLive, isOther⟩ := connected.recorded other kept stillFound
        refine ⟨ownSlot, List.mem_filter.mpr ⟨ownLive, ?_⟩, isOther⟩
        have apart : kept ≠ connection := fun sameConnection =>
          same (isOther.symm.trans (connected.key_eq ownLive found sameConnection))
        simpa using apart

theorem live_subscribe (subscribers : Subscribers Callback) (key other : String)
    (callback : Callback) :
    (subscribers.subscribeToStateChange other callback).live key =
      subscribers.live key ++
        if other = key then [(subscribers.connected, ⟨other, callback⟩)] else [] := by
  simp only [Subscribers.live, Subscribers.subscribeToStateChange, List.filter_append]
  split <;> simp_all

theorem Reflects.subscribe (reflects : Reflects subscribers key history) (other : String)
    (callback : Callback) :
    Reflects (subscribers.subscribeToStateChange other callback) key
      (history.record key (.subscribeToStateChange other callback)) := by
  have appended := live_subscribe subscribers key other callback
  by_cases same : other = key
  · subst same
    simp only [KeyHistory.record, if_true] at appended ⊢
    refine ⟨?_, ?_, ?_⟩
    · simp only [Subscribers.subscribeToStateChange]
      cases stored : subscribers.fStateChangeSignalsMap.get? other with
      | none => simp [UnorderedMap.get?_insert_self stored]
      | some old => simp [UnorderedMap.insert_of_get? stored, stored]
    · have count := reflects.count
      simp only [appended, List.length_append, List.length_singleton, Option.toList_some]
      omega
    · intro never
      have none : subscribers.live other = [] := by
        apply List.eq_nil_of_length_eq_zero
        have count := reflects.count
        dsimp only at never
        omega
      simp [appended, none]
  · simp only [KeyHistory.record, if_neg same, List.append_nil] at appended ⊢
    refine ⟨?_, ?_, ?_⟩
    · simp only [Subscribers.subscribeToStateChange]
      rw [UnorderedMap.get?_insert_ne (Ne.symm same)]
      exact reflects.present
    · rw [appended]
      exact reflects.count
    · rw [appended]
      exact reflects.callback

theorem live_unsubscribe {other : String} {connection : Nat}
    (found : subscribers.fStateChangeSignalsMap.get? other = some connection) (key : String) :
    (subscribers.unsubscribeFromStateChange other).live key =
      (subscribers.live key).filter fun entry => entry.1 ≠ connection := by
  simp only [Subscribers.unsubscribeFromStateChange, found, Subscribers.live]
  exact List.filter_comm ..

theorem Reflects.unsubscribe_self (reflects : Reflects subscribers key history)
    (connected : Connected subscribers) {connection : Nat}
    (found : subscribers.fStateChangeSignalsMap.get? key = some connection) :
    Reflects (subscribers.unsubscribeFromStateChange key) key { history with current := none } := by
  obtain ⟨slot, isLive, isKey⟩ := connected.recorded key connection found
  have member : (connection, slot) ∈ subscribers.live key :=
    List.mem_filter.mpr ⟨isLive, by simpa using isKey⟩
  have distinct : ((subscribers.live key).map Prod.fst).Nodup :=
    connected.distinct.sublist (List.filter_sublist.map _)
  have subscribed : history.current.toList.length = 1 := by
    have isSome := reflects.present
    rw [found] at isSome
    obtain ⟨callback, isCurrent⟩ := Option.isSome_iff_exists.mp isSome.symm
    simp [isCurrent]
  have fewer := length_filter_ne distinct member
  have left : ((subscribers.unsubscribeFromStateChange key).live key).length =
      history.resubscribed := by
    have count := reflects.count
    rw [live_unsubscribe found]
    dsimp only at fewer
    omega
  refine ⟨?_, ?_, ?_⟩
  · simp [Subscribers.unsubscribeFromStateChange, found, UnorderedMap.get?_erase_self]
  · simp [left]
  · intro never
    rw [List.eq_nil_of_length_eq_zero (left.trans never)]
    rfl

theorem Reflects.unsubscribe_other (reflects : Reflects subscribers key history)
    (connected : Connected subscribers) {other : String} (apart : other ≠ key) {connection : Nat}
    (found : subscribers.fStateChangeSignalsMap.get? other = some connection) :
    Reflects (subscribers.unsubscribeFromStateChange other) key history := by
  have untouched : (subscribers.unsubscribeFromStateChange other).live key =
      subscribers.live key := by
    rw [live_unsubscribe found]
    apply List.filter_eq_self.mpr
    intro entry member
    obtain ⟨known, isKey⟩ := List.mem_filter.mp member
    have differs : entry.1 ≠ connection := fun same =>
      apart ((connected.key_eq known found same).symm.trans (by simpa using isKey))
    simpa using differs
  refine ⟨?_, ?_, ?_⟩
  · simp only [Subscribers.unsubscribeFromStateChange, found]
    rw [UnorderedMap.get?_erase_ne (Ne.symm apart)]
    exact reflects.present
  · rw [untouched]
    exact reflects.count
  · rw [untouched]
    exact reflects.callback

theorem Reflects.unsubscribe (reflects : Reflects subscribers key history)
    (connected : Connected subscribers) (other : String) :
    Reflects (subscribers.unsubscribeFromStateChange other) key
      (history.record key (.unsubscribeFromStateChange other)) := by
  cases found : subscribers.fStateChangeSignalsMap.get? other with
  | none =>
      have unknown : subscribers.unsubscribeFromStateChange other = subscribers := by
        rw [Subscribers.unsubscribeFromStateChange, found]
      have same : history.record key (.unsubscribeFromStateChange other) = history := by
        simp only [KeyHistory.record]
        split
        · rename_i isKey
          subst isKey
          have absent := reflects.present
          rw [found] at absent
          rw [Option.isSome_none, eq_comm, Option.isSome_eq_false_iff,
            Option.isNone_iff_eq_none] at absent
          rw [← absent]
        · rfl
      rw [unknown, same]
      exact reflects
  | some connection =>
      by_cases same : other = key
      · subst same
        simp only [KeyHistory.record, if_true]
        exact reflects.unsubscribe_self connected found
      · simp only [KeyHistory.record, if_neg same]
        exact reflects.unsubscribe_other connected same found

end Steps

theorem reflects_run {subscribers : Subscribers Callback} {key : String}
    {history : KeyHistory Callback} (connected : Connected subscribers)
    (reflects : Reflects subscribers key history) (calls : List (SubscriberCall Callback)) :
    Reflects (calls.foldl Subscribers.perform subscribers) key
      (calls.foldl (KeyHistory.record key) history) := by
  induction calls generalizing subscribers history with
  | nil => exact reflects
  | cons call calls ih =>
      cases call with
      | subscribeToStateChange other callback =>
          exact ih (connected.subscribe callback) (reflects.subscribe other callback)
      | unsubscribeFromStateChange other =>
          exact ih connected.unsubscribe (reflects.unsubscribe connected other)

theorem reflects_after (calls : List (SubscriberCall Callback)) (key : String) :
    Reflects (Subscribers.after calls) key (.of key calls) := by
  apply reflects_run
  · exact ⟨by simp [Subscribers.new], .nil, by
      intro key connection found
      cases found⟩
  · exact ⟨rfl, rfl, fun _ => rfl⟩

theorem calls_of_key (subscribers : Subscribers Callback) (state : State) (key : String) :
    ((subscribers.callStateChangeCallbacks state).filter fun call => call.1.key = key).map
        (fun call => (call.1.callback, call.2)) =
      (subscribers.live key).map fun entry => (entry.2.callback, state) := by
  unfold Subscribers.callStateChangeCallbacks Subscribers.live
  split
  · rename_i empty
    rw [List.isEmpty_iff.mp empty]
    rfl
  · rw [List.filter_map, List.map_map]
    rfl

/-- A change of state calls the latest callback of a key once exactly when the key was
never subscribed again without being unsubscribed first. -/
theorem state_change_called_once_iff (calls : List (SubscriberCall Callback)) (key : String) :
    CalledOnce calls key ↔ (KeyHistory.of key calls).resubscribed = 0 := by
  have reflects := reflects_after calls key
  unfold CalledOnce
  simp only [calls_of_key]
  constructor
  · intro once
    have lengths := congrArg List.length (once .idle)
    simp only [List.length_map, reflects.count] at lengths
    omega
  · intro never state
    have callbacks := congrArg (List.map fun callback => (callback, state)) (reflects.callback never)
    simpa only [List.map_map, Function.comp_def] using callbacks

/-- A key that is subscribed twice: both callbacks are called, and after its unsubscription
the second still is. -/
theorem resubscribed_callback_survives :
    ¬ CalledOnce [.subscribeToStateChange "control" 1, .subscribeToStateChange "control" 2]
        "control" ∧
    (Subscribers.after [.subscribeToStateChange "control" 1, .subscribeToStateChange "control" 2,
        .unsubscribeFromStateChange "control"]).callStateChangeCallbacks .ready =
      [(⟨"control", 2⟩, .ready)] := by
  refine ⟨?_, by decide⟩
  intro once
  exact absurd (once .idle) (by decide)

end FairMQ.StateMachine
