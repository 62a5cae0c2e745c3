import FairMQ.Data.TransitionSystem
import FairMQ.Device.Binding

namespace FairMQ.Device

open FairMQ.Channels
open FairMQ.Data
open FairMQ.Options (Transport FairMQChannel FairMQChannelMap ProgOptions Value channelKey)

/-- A channel of `uninitializedConnectingChannels` with the name and the index that its
`fName` is put together from, and the address it was created with. -/
structure Connecting where
  name : String
  index : Nat
  created : String
  entry : Entry

namespace Connecting

def address (connecting : Connecting) : String :=
  connecting.entry.channel.fAddress

def key (connecting : Connecting) : String :=
  channelKey connecting.name connecting.index .address

def refresh (options : ProgOptions) (connecting : Connecting) : Option Connecting :=
  (options.getString connecting.key).map fun newAddress =>
    { connecting with
      entry := connecting.entry.refresh ⟨.default, fun _ _ _ => {}, fun _ _ => newAddress⟩ 0 }

def attach (transport : Transport) (answers : Nat → Answer) (options : ProgOptions)
    (connecting : Connecting) : Option (ProgOptions × Bool × Connecting) :=
  (connecting.entry.attach ⟨transport, fun _ _ => answers, fun _ _ => ""⟩ 0).bind
    fun (attached, entry) =>
      let after := { connecting with entry := entry }
      if attached then
        (recordAddress connecting.name connecting.index connecting.address after.address
          options).map (·, true, after)
      else some (options, false, after)

end Connecting

/-- The channels that are not bound: an address with a modifier will do without a method. -/
def connects (channel : FairMQChannel) : Bool :=
  channel.fMethod != "bind" &&
    (channel.fMethod == "connect" || channel.fAddress.toList.any isModifier)

def connectingOf (name : String) (channels : List FairMQChannel) : List Connecting :=
  channels.zipIdx.filterMap fun (channel, index) =>
    if connects channel then
      some ⟨name, index, channel.fAddress,
        { index := index
          channel :=
            { toFairMQChannel := channel.copy
              fName := name ++ "[" ++ toString index ++ "]" } }⟩
    else none

def uninitializedConnectingChannels (options : ProgOptions) : List Connecting :=
  options.fFairMQChannelMap.entries.flatMap fun entry => connectingOf entry.1 entry.2

structure AddressCall where
  name : String
  index : Nat
  address : String
deriving DecidableEq

/-- Where the loop is: it goes through the list, either to read the addresses or to attach
the channels.  `calls` are the calls of `SetValue` so far. -/
structure RetryLoop where
  options : ProgOptions
  refreshing : Bool
  todo : List Connecting
  kept : List Connecting
  attached : List Connecting
  calls : List AddressCall

inductive RetryAction where
  | setValue (call : AddressCall)
  | next (answers : Nat → Answer)

namespace RetryLoop

def start (options : ProgOptions) : RetryLoop :=
  ⟨options, false, uninitializedConnectingChannels options, [], [], []⟩

def channels (state : RetryLoop) : List Connecting :=
  state.todo ++ state.kept ++ state.attached

def setValue (call : AddressCall) (state : RetryLoop) : RetryLoop :=
  { state with
    options := Options.leftOptions ((Options.setValue (channelKey call.name call.index .address)
      (.string call.address)).run state.options)
    calls := state.calls ++ [call] }

def turn (state : RetryLoop) : Option RetryLoop :=
  if state.refreshing = false ∧ state.kept = [] then none
  else some { state with refreshing := !state.refreshing, todo := state.kept, kept := [] }

def refreshNext (connecting : Connecting) (todo : List Connecting) (state : RetryLoop) :
    Option RetryLoop :=
  (connecting.refresh state.options).map fun after =>
    { state with todo := todo, kept := state.kept ++ [after] }

def attachNext (transport : Transport) (answers : Nat → Answer) (connecting : Connecting)
    (todo : List Connecting) (state : RetryLoop) : Option RetryLoop :=
  (connecting.attach transport answers state.options).map fun (options, attached, after) =>
    if attached then
      { state with
        options := options
        todo := todo
        attached := state.attached ++ [after]
        calls := if after.address = connecting.address then state.calls
          else state.calls ++ [⟨after.name, after.index, after.address⟩] }
    else { state with todo := todo, kept := state.kept ++ [after] }

def step (transport : Transport) (state : RetryLoop) : RetryAction → Option RetryLoop
  | .setValue call => some (state.setValue call)
  | .next answers =>
      match state.todo with
      | [] => state.turn
      | connecting :: todo =>
          if state.refreshing then state.refreshNext connecting todo
          else state.attachNext transport answers connecting todo

end RetryLoop

def retrySystem (transport : Transport) (options : ProgOptions) :
    TransitionSystem RetryLoop RetryAction where
  initial state := state = .start options
  step := RetryLoop.step transport

namespace RetryLoop

def AddressesKept (state : RetryLoop) : Prop :=
  ∀ connecting ∈ state.channels, connecting.address = connecting.created ∨
    ⟨connecting.name, connecting.index, connecting.address⟩ ∈ state.calls

def Reads (state : RetryLoop) (connecting : Connecting) : RetryAction → Prop
  | .setValue _ => False
  | .next _ => state.refreshing = true ∧ state.todo.head? = some connecting

/-- The key of a channel was set since the start, or it held the address of the channel
then. -/
def Answered (options : ProgOptions) (state : RetryLoop) (connecting : Connecting) : Prop :=
  (∃ call ∈ state.calls, call.name = connecting.name ∧ call.index = connecting.index) ∨
    options.getString connecting.key = some connecting.created

end RetryLoop

def AddressKnown (options : ProgOptions) (state : RetryLoop) (action : RetryAction) : Prop :=
  ∀ connecting, state.Reads connecting action → state.Answered options connecting

structure Connecting.Same (before after : Connecting) : Prop where
  name : after.name = before.name
  index : after.index = before.index
  created : after.created = before.created

namespace RetryLoop

/-- What the configuration holds for the addresses: the last value that was set, or what was
there at the start. -/
def Recorded (options : ProgOptions) (state : RetryLoop) : Prop :=
  ∀ name index,
    (∀ call ∈ state.calls, ¬ (call.name = name ∧ call.index = index)) ∧
        state.options.fVarMap (channelKey name index .address) =
          options.fVarMap (channelKey name index .address) ∨
      ∃ address, ⟨name, index, address⟩ ∈ state.calls ∧
        state.options.fVarMap (channelKey name index .address) = some (.string address)

inductive Effect (state : RetryLoop) (action : RetryAction) (next : RetryLoop) : Prop where
  | set (call : AddressCall) (quiet : ∀ connecting, ¬ state.Reads connecting action)
      (calls : next.calls = state.calls ++ [call])
      (written : next.options.fVarMap = Function.update state.options.fVarMap
        (channelKey call.name call.index .address) (some (.string call.address)))
      (channels : ∀ after ∈ next.channels, after ∈ state.channels ∨
        (∃ before ∈ state.channels, before.Same after) ∧
          call = ⟨after.name, after.index, after.address⟩)
  | kept (quiet : ∀ connecting, ¬ state.Reads connecting action)
      (calls : next.calls = state.calls)
      (written : next.options.fVarMap = state.options.fVarMap)
      (channels : ∀ after ∈ next.channels, ∃ before ∈ state.channels,
        before.Same after ∧ after.address = before.address)
  | refreshed (before after : Connecting) (reads : state.Reads before action)
      (calls : next.calls = state.calls) (written : next.options = state.options)
      (isBefore : before ∈ state.channels) (isAfter : after ∈ next.channels)
      (others : ∀ other ∈ next.channels, other = after ∨ other ∈ state.channels)
      (same : before.Same after)
      (read : state.options.getString before.key = some after.address)

end RetryLoop

section Steps

variable {transport : Transport} {answers : Nat → Answer} {options : ProgOptions}
  {state next : RetryLoop} {action : RetryAction} {connecting after : Connecting}

theorem Connecting.refresh_cases (done : connecting.refresh options = some after) :
    connecting.Same after ∧ options.getString connecting.key = some after.address := by
  obtain ⟨newAddress, read, rfl⟩ := Option.map_eq_some_iff.mp done
  refine ⟨⟨rfl, rfl, rfl⟩, read.trans (congrArg some ?_)⟩
  simp only [Connecting.address, Entry.refresh]
  split
  · assumption
  · rfl

theorem validateChannel_address (channel : FairMQChannel) :
    (validateChannel channel).2.fAddress = channel.fAddress := by
  unfold validateChannel
  split
  · rfl
  · split <;> rfl

theorem Entry.attach_address {environment : Environment} {round : Nat} {entry next : Entry}
    (done : entry.attach environment round = some (false, next)) :
    next.channel.fAddress = entry.channel.fAddress := by
  have validated := validateChannel_address entry.channel.toFairMQChannel
  simp only [Entry.attach] at done
  split at done
  · cases done
  · cases done
    rfl
  · rename_i isValidated
    rw [isValidated] at validated
    obtain ⟨⟨channel, attempt⟩, went, same⟩ := Option.map_eq_some_iff.mp done
    obtain ⟨⟨socket, attempt⟩, _, isChannel⟩ := Option.map_eq_some_iff.mp went
    cases isChannel
    simp only [Prod.mk.injEq] at same
    obtain ⟨failed, rfl⟩ := same
    simp only [failed, Bool.false_eq_true, if_false]
    exact validated

theorem Connecting.attach_cases {recorded : ProgOptions} {attached : Bool}
    (done : connecting.attach transport answers options = some (recorded, attached, after)) :
    connecting.Same after ∧
      if attached then
        recordAddress connecting.name connecting.index connecting.address after.address options =
          some recorded
      else recorded = options ∧ after.address = connecting.address := by
  obtain ⟨⟨done, entry⟩, went, recordedAs⟩ := Option.bind_eq_some_iff.mp done
  cases done with
  | true =>
      obtain ⟨_, isRecorded, same⟩ := Option.map_eq_some_iff.mp recordedAs
      cases same
      exact ⟨⟨rfl, rfl, rfl⟩, isRecorded⟩
  | false =>
      cases recordedAs
      exact ⟨⟨rfl, rfl, rfl⟩, rfl, Entry.attach_address went⟩

theorem setValue_effect (call : AddressCall) :
    state.Effect (.setValue call) (state.setValue call) :=
  .set call (fun _ reads => reads) rfl (Options.setValue_fVarMap _) fun _ member => .inl member

theorem turn_effect (empty : state.todo = []) (answers : Nat → Answer)
    (turned : state.turn = some next) : state.Effect (.next answers) next := by
  simp only [RetryLoop.turn] at turned
  split at turned
  · cases turned
  · cases turned
    refine .kept (fun connecting reads => ?_) rfl rfl fun after member =>
      ⟨after, ?_, ⟨rfl, rfl, rfl⟩, rfl⟩
    · have head := reads.2
      rw [empty] at head
      cases head
    · simpa [RetryLoop.channels, empty] using member

variable {todo : List Connecting}

theorem mem_of_kept {other : Connecting} (isTodo : state.todo = connecting :: todo)
    (member : other ∈ todo ++ (state.kept ++ [after]) ++ state.attached) :
    other = after ∨ other ∈ state.channels := by
  simp only [RetryLoop.channels, isTodo, List.mem_append, List.mem_cons, List.not_mem_nil,
    or_false] at member ⊢
  tauto

theorem mem_of_attached {other : Connecting} (isTodo : state.todo = connecting :: todo)
    (member : other ∈ todo ++ state.kept ++ (state.attached ++ [after])) :
    other = after ∨ other ∈ state.channels := by
  simp only [RetryLoop.channels, isTodo, List.mem_append, List.mem_cons, List.not_mem_nil,
    or_false] at member ⊢
  tauto

theorem refreshNext_effect (isTodo : state.todo = connecting :: todo)
    (refreshing : state.refreshing = true) (answers : Nat → Answer)
    (done : state.refreshNext connecting todo = some next) :
    state.Effect (.next answers) next := by
  obtain ⟨after, refreshed, rfl⟩ := Option.map_eq_some_iff.mp done
  obtain ⟨same, read⟩ := Connecting.refresh_cases refreshed
  refine .refreshed connecting after ⟨refreshing, by rw [isTodo]; rfl⟩ rfl rfl ?_ ?_ ?_ same read
  · simp [RetryLoop.channels, isTodo]
  · simp [RetryLoop.channels]
  · exact fun other => mem_of_kept isTodo

theorem attachNext_effect (isTodo : state.todo = connecting :: todo)
    (attaching : state.refreshing = false)
    (done : state.attachNext transport answers connecting todo = some next) :
    state.Effect (.next answers) next := by
  have quiet : ∀ other, ¬ state.Reads other (.next answers) := by
    intro other reads
    exact absurd (attaching.symm.trans reads.1) Bool.false_ne_true
  have isBefore : connecting ∈ state.channels := by simp [RetryLoop.channels, isTodo]
  obtain ⟨⟨recorded, attached, after⟩, went, rfl⟩ := Option.map_eq_some_iff.mp done
  obtain ⟨same, result⟩ := Connecting.attach_cases went
  cases attached with
  | false =>
      obtain ⟨rfl, unchanged⟩ := result
      refine .kept quiet rfl rfl fun other member => ?_
      rcases mem_of_kept isTodo member with rfl | known
      · exact ⟨connecting, isBefore, same, unchanged⟩
      · exact ⟨other, known, ⟨rfl, rfl, rfl⟩, rfl⟩
  | true =>
      have written := recordAddress_fVarMap result
      by_cases unchanged : after.address = connecting.address
      · rw [if_pos unchanged] at written
        refine .kept quiet (if_pos unchanged) written fun other member => ?_
        rcases mem_of_attached isTodo member with rfl | known
        · exact ⟨connecting, isBefore, same, unchanged⟩
        · exact ⟨other, known, ⟨rfl, rfl, rfl⟩, rfl⟩
      · rw [if_neg unchanged, ← same.name, ← same.index] at written
        refine .set ⟨after.name, after.index, after.address⟩ quiet (if_neg unchanged) written
          fun other member => ?_
        rcases mem_of_attached isTodo member with rfl | known
        · exact .inr ⟨⟨connecting, isBefore, same⟩, rfl⟩
        · exact .inl known

theorem RetryLoop.step_effect (stepped : state.step transport action = some next) :
    state.Effect action next := by
  cases action with
  | setValue call =>
      cases stepped
      exact setValue_effect call
  | next answers =>
      simp only [RetryLoop.step] at stepped
      split at stepped
      · rename_i empty
        exact turn_effect empty answers stepped
      · rename_i isTodo
        split at stepped
        · rename_i refreshing
          exact refreshNext_effect isTodo refreshing answers stepped
        · rename_i attaching
          exact attachNext_effect isTodo (by simpa using attaching) stepped

end Steps

section Runs

variable {transport : Transport} {options : ProgOptions} {state next : RetryLoop}
  {action : RetryAction}

theorem RetryLoop.Recorded.effect (recorded : state.Recorded options) (effect : state.Effect action next) :
    next.Recorded options := by
  intro name index
  cases effect with
  | set call _ calls written _ =>
      rw [calls, written]
      by_cases own : call.name = name ∧ call.index = index
      · obtain ⟨rfl, rfl⟩ := own
        exact .inr ⟨call.address, by simp, Function.update_self ..⟩
      · have apart : channelKey name index .address ≠ channelKey call.name call.index .address := by
          intro same
          obtain ⟨sameName, sameIndex, _⟩ := Options.channelKey_injective same
          exact own ⟨sameName.symm, sameIndex.symm⟩
        rw [Function.update_of_ne apart]
        rcases recorded name index with ⟨unset, start⟩ | ⟨address, isSet, holds⟩
        · exact .inl ⟨List.forall_mem_append.mpr ⟨unset, by simpa using own⟩, start⟩
        · exact .inr ⟨address, List.mem_append_left _ isSet, holds⟩
  | kept _ calls written _ =>
      rw [calls, written]
      exact recorded name index
  | refreshed _ _ _ calls written =>
      rw [calls, written]
      exact recorded name index

theorem RetryLoop.Recorded.read (recorded : state.Recorded options) {connecting : Connecting}
    {address : String} (read : state.options.getString connecting.key = some address) :
    ⟨connecting.name, connecting.index, address⟩ ∈ state.calls ∨
      (∀ call ∈ state.calls, ¬ (call.name = connecting.name ∧ call.index = connecting.index)) ∧
        options.getString connecting.key = some address := by
  rcases recorded connecting.name connecting.index with ⟨unset, start⟩ | ⟨value, isSet, holds⟩
  · refine .inr ⟨unset, ?_⟩
    simp only [ProgOptions.getString, Connecting.key, start] at read ⊢
    exact read
  · refine .inl ?_
    simp only [ProgOptions.getString, Connecting.key, holds] at read
    cases read
    exact isSet

theorem RetryLoop.AddressesKept.effect_iff (recorded : state.Recorded options) (kept : state.AddressesKept)
    (effect : state.Effect action next) :
    next.AddressesKept ↔ AddressKnown options state action := by
  cases effect with
  | set call quiet calls _ channels =>
      refine iff_of_true (fun after member => ?_) fun connecting reads => absurd reads (quiet _)
      rw [calls]
      rcases channels after member with known | ⟨_, isCall⟩
      · exact (kept after known).imp_right (List.mem_append_left _)
      · exact .inr (by simp [isCall])
  | kept quiet calls _ channels =>
      refine iff_of_true (fun after member => ?_) fun connecting reads => absurd reads (quiet _)
      obtain ⟨before, known, same, unchanged⟩ := channels after member
      rw [calls, same.created, same.name, same.index, unchanged]
      exact kept before known
  | refreshed before after reads calls _ _ isAfter others same read =>
      have readOnly : ∀ connecting, state.Reads connecting action → connecting = before := by
        intro connecting alsoReads
        cases action with
        | setValue call => exact alsoReads.elim
        | next answers => exact Option.some.inj (alsoReads.2.symm.trans reads.2)
      rcases recorded.read read with isSet | ⟨unset, start⟩
      · -- a value that was set is right in any case
        refine iff_of_true (fun other member => ?_) fun connecting alsoReads => ?_
        · rw [calls]
          rcases others other member with rfl | known
          · exact .inr (by rw [same.name, same.index]; exact isSet)
          · exact kept other known
        · rw [readOnly connecting alsoReads]
          exact .inl ⟨_, isSet, rfl, rfl⟩
      · -- otherwise the value of the start has to be the first address
        refine ⟨fun keeps connecting alsoReads => ?_, fun known other member => ?_⟩
        · rw [readOnly connecting alsoReads]
          rcases keeps after isAfter with first | isSet
          · exact .inr (by rw [start, first, same.created])
          · rw [calls] at isSet
            exact absurd ⟨same.name, same.index⟩ (unset _ isSet)
        · rw [calls]
          rcases others other member with rfl | old
          · rcases known before reads with ⟨call, isSet, own⟩ | first
            · exact absurd own (unset call isSet)
            · exact .inl (by rw [same.created]; exact Option.some.inj (start.symm.trans first))
          · exact kept other old

theorem reached_recorded {allowed : RetryLoop → RetryAction → Prop}
    (reached : (retrySystem transport options).ReachesUnder allowed state) :
    state.Recorded options := by
  refine reached.invariant ?_ ?_
  · intro start isStart
    cases isStart
    exact fun name index => .inl ⟨by simp [RetryLoop.start], rfl⟩
  · intro before action after recorded _ stepped
    exact recorded.effect (RetryLoop.step_effect stepped)

theorem connecting_at {connecting : Connecting}
    (member : connecting ∈ uninitializedConnectingChannels options) :
    ∃ channel, options.fFairMQChannelMap.at? connecting.name connecting.index = some channel ∧
      connecting.created = channel.fAddress ∧ connecting.address = channel.fAddress := by
  obtain ⟨⟨name, channels⟩, listed, made⟩ := List.mem_flatMap.mp member
  obtain ⟨⟨channel, index⟩, place, isConnecting⟩ := List.mem_filterMap.mp made
  dsimp only at isConnecting
  split at isConnecting
  · cases isConnecting
    have looked := FairMQChannelMap.lookup_eq_some_iff_mem.mpr listed
    refine ⟨channel, ?_, rfl, rfl⟩
    rw [FairMQChannelMap.at?, looked]
    exact List.mk_mem_zipIdx_iff_getElem?.mp place
  · cases isConnecting

theorem start_kept (options : ProgOptions) : (RetryLoop.start options).AddressesKept := by
  intro connecting member
  have isStart : connecting ∈ uninitializedConnectingChannels options := by
    simpa [RetryLoop.start, RetryLoop.channels] using member
  obtain ⟨channel, _, created, address⟩ := connecting_at isStart
  exact .inl (address.trans created.symm)

theorem reached_kept
    (reached : (retrySystem transport options).ReachesUnder (AddressKnown options) state) :
    state.AddressesKept := by
  refine reached.relative (fun _ => reached_recorded) ?_ ?_
  · intro start isStart
    cases isStart
    exact start_kept options
  · intro before action after recorded kept known stepped
    exact (kept.effect_iff recorded (RetryLoop.step_effect stepped)).mpr known

def Registered (options : ProgOptions) (state : RetryLoop) : Prop :=
  ∀ connecting ∈ state.channels, options.getString connecting.key = some connecting.created

theorem Registered.effect (registered : Registered options state)
    (effect : state.Effect action next) : Registered options next := by
  have descends : ∀ after ∈ next.channels, ∃ before ∈ state.channels, before.Same after := by
    intro after member
    cases effect with
    | set call _ _ _ channels =>
        rcases channels after member with known | ⟨descends, _⟩
        · exact ⟨after, known, rfl, rfl, rfl⟩
        · exact descends
    | kept _ _ _ channels =>
        obtain ⟨before, known, same, _⟩ := channels after member
        exact ⟨before, known, same⟩
    | refreshed before _ _ _ _ isBefore _ others same _ =>
        rcases others after member with rfl | known
        · exact ⟨before, isBefore, same⟩
        · exact ⟨after, known, rfl, rfl, rfl⟩
  intro after member
  obtain ⟨before, known, same⟩ := descends after member
  rw [Connecting.key, same.name, same.index, same.created]
  exact registered before known

theorem Registered.known (registered : Registered options state) (action : RetryAction) :
    AddressKnown options state action := by
  intro connecting reads
  refine .inr (registered connecting ?_)
  cases action with
  | setValue call => exact reads.elim
  | next answers =>
      have member : connecting ∈ state.todo := List.mem_of_mem_head? reads.2
      simp [RetryLoop.channels, member]

theorem start_registered (coherent : Options.Coherent options) :
    Registered options (.start options) := by
  intro connecting member
  have isStart : connecting ∈ uninitializedConnectingChannels options := by
    simpa [RetryLoop.start, RetryLoop.channels] using member
  obtain ⟨channel, found, created, _⟩ := connecting_at isStart
  have holds := coherent _ _ channel found .address
  rw [ProgOptions.getString, Connecting.key, holds, created]
  rfl

theorem reached_registered (coherent : Options.Coherent options)
    (reached : (retrySystem transport options).Reaches state) :
    Registered options state ∧
      (retrySystem transport options).ReachesUnder (AddressKnown options) state := by
  induction reached with
  | initial start =>
      cases start
      exact ⟨start_registered coherent, .initial rfl⟩
  | step _ _ stepped ih =>
      exact ⟨ih.1.effect (RetryLoop.step_effect stepped), .step ih.2 (ih.1.known _) stepped⟩

/-- Addresses change to values that were set as long as every key that is read has been set
or registered, and no longer.  All keys of channels that went through `UpdateChannelMap`
are registered. -/
theorem retry_addresses_kept_iff (transport : Transport) (options : ProgOptions) :
    (∀ state, (retrySystem transport options).ReachesUnder (AddressKnown options) state →
        state.AddressesKept ∧ ∀ action next, state.step transport action = some next →
          (next.AddressesKept ↔ AddressKnown options state action)) ∧
      (Options.Coherent options → ∀ state, (retrySystem transport options).Reaches state →
        state.AddressesKept) := by
  refine ⟨fun state reached => ⟨reached_kept reached, fun action next stepped => ?_⟩, ?_⟩
  · exact (reached_kept reached).effect_iff (reached_recorded reached) (RetryLoop.step_effect stepped)
  · intro coherent state reached
    exact reached_kept (reached_registered coherent reached).2

end Runs

def pushChannel : FairMQChannel :=
  { fType := "push", fMethod := "connect", fAddress := "tcp://a:1" }

def parsedOptions : ProgOptions :=
  (ProgOptions.new fun _ => none).updateChannelMap
    ⟨[("data", [pushChannel])], List.nodup_singleton _⟩

def addedOptions : ProgOptions :=
  (ProgOptions.new fun _ => none).addChannel "data" pushChannel

def firstRetry : List RetryAction :=
  List.replicate 3 (.next fun _ => { resolvedHost := "" })

theorem parsed_channel_retried :
    ∃ state, (retrySystem .zmq parsedOptions).Reaches state ∧
      state.kept.map Connecting.address = ["tcp://a:1"] ∧ state.AddressesKept := by
  have retried : ∃ state, (retrySystem .zmq parsedOptions).Reaches state ∧
      state.kept.map Connecting.address = ["tcp://a:1"] :=
    TransitionSystem.reaches_of_runUnder (RetryLoop.start parsedOptions) firstRetry rfl (by decide)
  obtain ⟨state, reached, addresses⟩ := retried
  have kept := (retry_addresses_kept_iff .zmq parsedOptions).2
    (Options.updateChannelMap_coherent _ _) state reached
  exact ⟨state, reached, addresses, kept⟩

/-- The retry reads a key that was never written. -/
theorem added_channel_loses_address :
    ∃ state, (retrySystem .zmq addedOptions).Reaches state ∧
      (state.calls = [] ∧
        state.kept.map (fun connecting => (connecting.created, connecting.address)) =
          [("tcp://a:1", "")]) :=
  TransitionSystem.reaches_of_runUnder (RetryLoop.start addedOptions) firstRetry rfl (by decide)

end FairMQ.Device
