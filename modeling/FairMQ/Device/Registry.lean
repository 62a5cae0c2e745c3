import FairMQ.Data.UnorderedMap
import FairMQ.Device.MultiTransport
import Mathlib.Logic.Function.Basic

namespace FairMQ.Device

open FairMQ.Data

inductive Callback (α β : Type) where
  | msg (callback : α)
  | multipart (callback : β)
deriving DecidableEq, Repr

structure Registration (α β : Type) where
  channel : String
  callback : Callback α β
deriving DecidableEq, Repr

/-- The tables of the device.  The keys are those of the tables, each once. -/
structure Registry (α β : Type) where
  fDataCallbacks : Bool
  fMsgInputs : UnorderedMap String α
  fMultipartInputs : UnorderedMap String β
  fInputChannelKeys : List String
  distinct : fInputChannelKeys.Nodup
  known : ∀ key, key ∈ fInputChannelKeys ↔
    key ∈ fMsgInputs.keys ∨ key ∈ fMultipartInputs.keys

def pushKey (channelName : String) (keys : List String) : List String :=
  if channelName ∈ keys then keys else keys ++ [channelName]

theorem mem_pushKey {channelName key : String} {keys : List String} :
    key ∈ pushKey channelName keys ↔ key ∈ keys ∨ key = channelName := by
  unfold pushKey
  split
  · rename_i there
    exact ⟨.inl, fun either => either.elim id fun same => same ▸ there⟩
  · simp

theorem nodup_pushKey {channelName : String} {keys : List String} (distinct : keys.Nodup) :
    (pushKey channelName keys).Nodup := by
  unfold pushKey
  split
  · exact distinct
  · rename_i fresh
    exact List.nodup_append.mpr ⟨distinct, List.nodup_singleton _, by
      intro key member other isOther same
      rw [List.mem_singleton.mp isOther] at same
      exact fresh (same ▸ member)⟩

namespace Registry

variable {α β : Type}

def empty : Registry α β where
  fDataCallbacks := false
  fMsgInputs := .empty
  fMultipartInputs := .empty
  fInputChannelKeys := []
  distinct := List.nodup_nil
  known := by simp [UnorderedMap.empty, UnorderedMap.keys]

def onMsg (channelName : String) (callback : α) (registry : Registry α β) : Registry α β where
  fDataCallbacks := true
  fMsgInputs := registry.fMsgInputs.insert channelName callback
  fMultipartInputs := registry.fMultipartInputs
  fInputChannelKeys := pushKey channelName registry.fInputChannelKeys
  distinct := nodup_pushKey registry.distinct
  known key := by
    rw [mem_pushKey, registry.known, UnorderedMap.mem_keys_insert]
    tauto

def onMultipart (channelName : String) (callback : β) (registry : Registry α β) :
    Registry α β where
  fDataCallbacks := true
  fMsgInputs := registry.fMsgInputs
  fMultipartInputs := registry.fMultipartInputs.insert channelName callback
  fInputChannelKeys := pushKey channelName registry.fInputChannelKeys
  distinct := nodup_pushKey registry.distinct
  known key := by
    rw [mem_pushKey, registry.known, UnorderedMap.mem_keys_insert]
    tauto

def onData (registry : Registry α β) (registration : Registration α β) : Registry α β :=
  match registration.callback with
  | .msg callback => registry.onMsg registration.channel callback
  | .multipart callback => registry.onMultipart registration.channel callback

def ofHistory (history : List (Registration α β)) : Registry α β :=
  history.foldl onData empty

end Registry

/-- The sub-channels of every channel, with their `fMultipart`. -/
abbrev Layout := String → Option (List Bool)

/-- `fMultipart` is written for all sub-channels of a channel; `at` throws if there is no
such channel. -/
def setMultipart (flag : Bool) (layout : Layout) (key : String) : Option Layout :=
  (layout key).map fun subChannels =>
    Function.update layout key (some (subChannels.map fun _ => flag))

namespace Registry

variable {α β : Type} (registry : Registry α β)

def prepare (layout : Layout) : Option Layout :=
  (registry.fMsgInputs.keys.foldlM (setMultipart false) layout).bind fun layout =>
    registry.fMultipartInputs.keys.foldlM (setMultipart true) layout

def inputs (layout : Layout) : Inputs where
  fChannels := layout
  fMsgInputs channel := (registry.fMsgInputs.get? channel).isSome
  fMultipartInputs channel := (registry.fMultipartInputs.get? channel).isSome

def callbackOf (channel : String) : Handler → Option (Callback α β)
  | .handleMsgInput => (registry.fMsgInputs.get? channel).map .msg
  | .handleMultipartInput => (registry.fMultipartInputs.get? channel).map .multipart

def multipleCallback (layout : Layout) (channel : String) (i : Nat) : Option (Callback α β) :=
  (registry.prepare layout).bind fun layout =>
    ((registry.inputs layout).handler channel i).bind (registry.callbackOf channel)

/-- What `HandleSingleChannelInput` calls: `begin` of the first table that is not empty. -/
def singleCallback (traversal : Traversal String) : Option (Callback α β) :=
  if registry.fMsgInputs.size > 0 then
    (registry.fMsgInputs.traverse traversal).head?.map fun entry => .msg entry.2
  else if registry.fMultipartInputs.size > 0 then
    (registry.fMultipartInputs.traverse traversal).head?.map fun entry => .multipart entry.2
  else none

inductive InputPath where
  | single (channel : String)
  | multiple
deriving DecidableEq, Repr

def inputPath (layout : Layout) : Option InputPath :=
  match registry.fInputChannelKeys with
  | [key] =>
      (layout key).map fun subChannels =>
        if subChannels.length = 1 then .single key else .multiple
  | _ => some .multiple

def dispatch (traversal : Traversal String) (layout : Layout) (channel : String) (i : Nat) :
    Option (Callback α β) :=
  match registry.inputPath layout with
  | none => none
  | some (.single key) =>
      if key = channel ∧ i = 0 then registry.singleCallback traversal else none
  | some .multiple => registry.multipleCallback layout channel i

end Registry

namespace Registration

variable {α β : Type}

def msg? (channel : String) (registration : Registration α β) : Option α :=
  match registration.callback with
  | .msg callback => if channel = registration.channel then some callback else none
  | .multipart _ => none

def multipart? (channel : String) (registration : Registration α β) : Option β :=
  match registration.callback with
  | .msg _ => none
  | .multipart callback => if channel = registration.channel then some callback else none

def callback? (channel : String) (registration : Registration α β) : Option (Callback α β) :=
  if channel = registration.channel then some registration.callback else none

end Registration

section History

variable {α β : Type} (history : List (Registration α β)) (channel : String)

def firstMsg : Option (Callback α β) :=
  (history.findSome? (Registration.msg? channel)).map .msg

def firstMultipart : Option (Callback α β) :=
  (history.findSome? (Registration.multipart? channel)).map .multipart

def latest : Option (Callback α β) :=
  history.reverse.findSome? (Registration.callback? channel)

theorem foldl_onData_tables (registry : Registry α β) :
    (history.foldl Registry.onData registry).fMsgInputs.get? channel =
        (registry.fMsgInputs.get? channel).or
          (history.findSome? (Registration.msg? channel)) ∧
      (history.foldl Registry.onData registry).fMultipartInputs.get? channel =
        (registry.fMultipartInputs.get? channel).or
          (history.findSome? (Registration.multipart? channel)) := by
  induction history generalizing registry with
  | nil => simp
  | cons registration history ih =>
      rw [List.foldl_cons, (ih _).1, (ih _).2]
      obtain ⟨key, callback⟩ := registration
      cases callback with
      | msg callback =>
          simp only [Registry.onData, Registry.onMsg, UnorderedMap.get?_insert, Option.or_assoc,
            List.findSome?_cons, Registration.msg?, Registration.multipart?]
          split <;> simp
      | multipart callback =>
          simp only [Registry.onData, Registry.onMultipart, UnorderedMap.get?_insert,
            Option.or_assoc, List.findSome?_cons, Registration.msg?, Registration.multipart?]
          split <;> simp

theorem ofHistory_msg :
    ((Registry.ofHistory history).fMsgInputs.get? channel).map Callback.msg =
      firstMsg history channel := by
  rw [Registry.ofHistory, (foldl_onData_tables history channel .empty).1]
  rfl

theorem ofHistory_multipart :
    ((Registry.ofHistory history).fMultipartInputs.get? channel).map Callback.multipart =
      firstMultipart history channel := by
  rw [Registry.ofHistory, (foldl_onData_tables history channel .empty).2]
  rfl

theorem registered_iff :
    channel ∈ (Registry.ofHistory history).fInputChannelKeys ↔
      ∃ registration ∈ history, registration.channel = channel := by
  have either (registration : Registration α β) : registration.channel = channel ↔
      (registration.msg? channel).isSome ∨ (registration.multipart? channel).isSome := by
    obtain ⟨key, callback⟩ := registration
    cases callback <;> by_cases same : channel = key <;>
      simp [Registration.msg?, Registration.multipart?, same, Ne.symm]
  rw [Registry.known, UnorderedMap.mem_keys_iff, UnorderedMap.mem_keys_iff, Registry.ofHistory,
    (foldl_onData_tables history channel .empty).1, (foldl_onData_tables history channel .empty).2]
  simp only [either, and_or_left, exists_or]
  exact or_congr List.findSome?_isSome_iff List.findSome?_isSome_iff

end History

theorem foldlM_setMultipart (flag : Bool) {keys : List String} {layout : Layout}
    (there : ∀ key ∈ keys, (layout key).isSome) :
    ∃ written, keys.foldlM (setMultipart flag) layout = some written ∧
      ∀ channel, written channel =
        if channel ∈ keys then (layout channel).map (List.map fun _ => flag)
        else layout channel := by
  induction keys generalizing layout with
  | nil => exact ⟨layout, rfl, by simp⟩
  | cons key keys ih =>
      obtain ⟨subChannels, found⟩ := Option.isSome_iff_exists.mp (there key List.mem_cons_self)
      have first : setMultipart flag layout key = some
          (Function.update layout key (some (subChannels.map fun _ => flag))) := by
        simp [setMultipart, found]
      have still : ∀ other ∈ keys, (Function.update layout key
          (some (subChannels.map fun _ => flag)) other).isSome := by
        intro other member
        by_cases same : other = key
        · simp [same]
        · simpa [same] using there other (List.mem_cons_of_mem _ member)
      obtain ⟨written, went, each⟩ := ih still
      refine ⟨written, ?_, ?_⟩
      · rw [List.foldlM_cons, first]
        exact went
      · intro channel
        rw [each channel]
        by_cases same : channel = key
        · subst same
          simp [found]
        · simp [same]

/-- After the two loops every sub-channel of an input channel has a handler: that for multi-part
messages if there is a callback for them. -/
theorem Registry.prepare_handlers {α β : Type} {registry : Registry α β} {layout : Layout}
    (there : ∀ key ∈ registry.fInputChannelKeys, (layout key).isSome) :
    ∃ prepared, registry.prepare layout = some prepared ∧
      ∀ channel ∈ registry.fInputChannelKeys, ∀ subChannels, layout channel = some subChannels →
        ∀ i < subChannels.length, (registry.inputs prepared).handler channel i =
          some (if channel ∈ registry.fMultipartInputs.keys then .handleMultipartInput
            else .handleMsgInput) := by
  obtain ⟨cleared, clears, eachCleared⟩ := foldlM_setMultipart false
    (fun key member => there key ((registry.known key).mpr (.inl member)))
  have thereCleared : ∀ key ∈ registry.fMultipartInputs.keys, (cleared key).isSome := by
    intro key member
    rw [eachCleared key]
    have known := there key ((registry.known key).mpr (.inr member))
    split
    · simpa using known
    · exact known
  obtain ⟨written, writes, eachWritten⟩ := foldlM_setMultipart true thereCleared
  refine ⟨written, ?_, ?_⟩
  · rw [Registry.prepare, clears]
    exact writes
  · intro channel isKey subChannels found i bound
    by_cases multipart : channel ∈ registry.fMultipartInputs.keys
    · have flags : (written channel).bind (·[i]?) = some true := by
        rw [eachWritten channel, if_pos multipart, eachCleared channel]
        split <;> simp [found, bound]
      have stored := UnorderedMap.mem_keys_iff.mp multipart
      simp [Inputs.handler, Registry.inputs, flags, stored, multipart]
    · have msg := ((registry.known channel).mp isKey).resolve_right multipart
      have flags : (written channel).bind (·[i]?) = some false := by
        rw [eachWritten channel, if_neg multipart, eachCleared channel, if_pos msg]
        simp [found, bound]
      have stored := UnorderedMap.mem_keys_iff.mp msg
      simp [Inputs.handler, Registry.inputs, flags, stored, multipart]

section Paths

variable {α β : Type} {history : List (Registration α β)} {layout : Layout} {channel : String}

def Covers (layout : Layout) (history : List (Registration α β)) : Prop :=
  ∀ registration ∈ history, ∃ subChannels, layout registration.channel = some subChannels ∧
    subChannels ≠ []

theorem Covers.there (covers : Covers layout history) {key : String}
    (isKey : key ∈ (Registry.ofHistory history).fInputChannelKeys) : (layout key).isSome := by
  obtain ⟨registration, member, rfl⟩ := (registered_iff history key).mp isKey
  obtain ⟨subChannels, found, _⟩ := covers registration member
  simp [found]

/-- `HandleMultipleChannelInput` prefers the multi-part callback, and of each kind it calls
the one that was registered first. -/
theorem multipleCallback_eq (covers : Covers layout history) {subChannels : List Bool}
    (found : layout channel = some subChannels) {i : Nat} (bound : i < subChannels.length)
    (registered : channel ∈ (Registry.ofHistory history).fInputChannelKeys) :
    (Registry.ofHistory history).multipleCallback layout channel i =
      (firstMultipart history channel).or (firstMsg history channel) := by
  obtain ⟨prepared, isPrepared, handlers⟩ := Registry.prepare_handlers fun _ => covers.there
  rw [Registry.multipleCallback, isPrepared, Option.bind_some,
    handlers channel registered subChannels found i bound, Option.bind_some, ← ofHistory_msg,
    ← ofHistory_multipart]
  by_cases multipart : channel ∈ (Registry.ofHistory history).fMultipartInputs.keys
  · obtain ⟨callback, stored⟩ := Option.isSome_iff_exists.mp (UnorderedMap.mem_keys_iff.mp multipart)
    simp [multipart, stored, Registry.callbackOf]
  · have none : (Registry.ofHistory history).fMultipartInputs.get? channel = none := by
      simpa [UnorderedMap.mem_keys_iff] using multipart
    simp [multipart, none, Registry.callbackOf]

theorem singleCallback_eq (only : (Registry.ofHistory history).fInputChannelKeys = [channel])
    (traversal : Traversal String) :
    (Registry.ofHistory history).singleCallback traversal =
      (firstMsg history channel).or (firstMultipart history channel) := by
  have isKey := (Registry.ofHistory history).known
  have onlyMsg : ∀ key ∈ (Registry.ofHistory history).fMsgInputs.keys, key = channel := by
    intro key member
    have listed := (isKey key).mpr (.inl member)
    rw [only] at listed
    exact List.mem_singleton.mp listed
  have onlyMultipart : ∀ key ∈ (Registry.ofHistory history).fMultipartInputs.keys,
      key = channel := by
    intro key member
    have listed := (isKey key).mpr (.inr member)
    rw [only] at listed
    exact List.mem_singleton.mp listed
  rw [← ofHistory_msg, ← ofHistory_multipart, Registry.singleCallback, UnorderedMap.size,
    UnorderedMap.size, UnorderedMap.traverse_of_only onlyMsg,
    UnorderedMap.traverse_of_only onlyMultipart, UnorderedMap.entries_of_only onlyMsg,
    UnorderedMap.entries_of_only onlyMultipart]
  cases (Registry.ofHistory history).fMsgInputs.get? channel with
  | some callback => rfl
  | none =>
      cases (Registry.ofHistory history).fMultipartInputs.get? channel with
      | some callback => rfl
      | none => rfl

theorem dispatch_eq (covers : Covers layout history) {subChannels : List Bool}
    (found : layout channel = some subChannels) {i : Nat} (bound : i < subChannels.length)
    (registered : channel ∈ (Registry.ofHistory history).fInputChannelKeys)
    (traversal : Traversal String) :
    (Registry.ofHistory history).dispatch traversal layout channel i =
      if (Registry.ofHistory history).fInputChannelKeys = [channel] ∧ subChannels.length = 1 then
        (firstMsg history channel).or (firstMultipart history channel)
      else (firstMultipart history channel).or (firstMsg history channel) := by
  have multiple := multipleCallback_eq covers found bound registered
  by_cases only : (Registry.ofHistory history).fInputChannelKeys = [channel]
  · have path : (Registry.ofHistory history).inputPath layout =
        some (if subChannels.length = 1 then .single channel else .multiple) := by
      simp [Registry.inputPath, only, found]
    by_cases one : subChannels.length = 1
    · have first : i = 0 := by omega
      simp [Registry.dispatch, path, one, only, first, singleCallback_eq only]
    · simp [Registry.dispatch, path, one, multiple]
  · have path : (Registry.ofHistory history).inputPath layout = some .multiple := by
      unfold Registry.inputPath
      split
      · rename_i key keys
        rw [keys] at registered only
        exact absurd (congrArg (fun key => [key]) (List.mem_singleton.mp registered).symm) only
      · rfl
    simp [Registry.dispatch, path, only, multiple]

theorem only_key_iff (registered : channel ∈ (Registry.ofHistory history).fInputChannelKeys) :
    (Registry.ofHistory history).fInputChannelKeys = [channel] ↔
      ∀ registration ∈ history, registration.channel = channel := by
  constructor
  · intro only registration member
    have listed := (registered_iff history registration.channel).mpr ⟨registration, member, rfl⟩
    rw [only] at listed
    exact List.mem_singleton.mp listed
  · intro all
    have same : ∀ key ∈ (Registry.ofHistory history).fInputChannelKeys, key = channel := by
      intro key member
      obtain ⟨registration, known, rfl⟩ := (registered_iff history key).mp member
      exact all registration known
    have distinct := (Registry.ofHistory history).distinct
    match keys : (Registry.ofHistory history).fInputChannelKeys with
    | [] => simp [keys] at registered
    | [key] => rw [same key (by simp [keys])]
    | first :: second :: others =>
        rw [keys] at distinct
        simp [same first (by simp [keys]), same second (by simp [keys])] at distinct

end Paths

/-- The latest callback of a channel handles its data in every layout exactly if it is what
the lookup finds, the first multi-part callback or without any the first one for single
messages, and if a channel that is the only one has callbacks of one kind. -/
theorem dispatch_latest_iff {α β : Type} (history : List (Registration α β)) (channel : String)
    (registered : ∃ registration ∈ history, registration.channel = channel) :
    (∀ (layout : Layout) (traversal : Traversal String) (subChannels : List Bool) (i : Nat),
      Covers layout history → layout channel = some subChannels → i < subChannels.length →
        (Registry.ofHistory history).dispatch traversal layout channel i =
          latest history channel) ↔
    (firstMultipart history channel).or (firstMsg history channel) = latest history channel ∧
      ((∀ registration ∈ history, registration.channel = channel) →
        firstMultipart history channel = none ∨ firstMsg history channel = none) := by
  have isKey := (registered_iff history channel).mpr registered
  constructor
  · intro law
    have multiple := law (fun _ => some [false, false]) .oldestFirst _ 0
      (fun _ _ => ⟨_, rfl, by simp⟩) rfl (by simp)
    rw [dispatch_eq (fun _ _ => ⟨_, rfl, by simp⟩) rfl (by simp) isKey] at multiple
    have several : ([false, false] : List Bool).length ≠ 1 := by decide
    rw [if_neg fun single => several single.2] at multiple
    refine ⟨multiple, ?_⟩
    intro only
    have single := law (fun _ => some [false]) .oldestFirst _ 0
      (fun _ _ => ⟨_, rfl, by simp⟩) rfl (by simp)
    rw [dispatch_eq (fun _ _ => ⟨_, rfl, by simp⟩) rfl (by simp) isKey,
      if_pos ⟨(only_key_iff isKey).mpr only, rfl⟩, ← multiple] at single
    -- with callbacks of both kinds the two orders differ
    unfold firstMsg firstMultipart at single ⊢
    cases msgs : history.findSome? (Registration.msg? channel) with
    | none => exact .inr rfl
    | some msg =>
        cases multiparts : history.findSome? (Registration.multipart? channel) with
        | none => exact .inl rfl
        | some multipart => simp [msgs, multiparts] at single
  · rintro ⟨isLatest, oneKind⟩ layout traversal subChannels i covers found bound
    rw [dispatch_eq covers found bound isKey, ← isLatest]
    split
    · rename_i single
      rcases oneKind ((only_key_iff isKey).mp single.1) with none | none <;> simp [none]
    · rfl

theorem registered_once_dispatched :
    (Registry.ofHistory [⟨"data", .msg 1⟩, ⟨"ctrl", .multipart 2⟩] : Registry Nat Nat).dispatch
        .newestFirst (fun _ => some [true, false]) "data" 1 = some (.msg 1) :=
  (dispatch_latest_iff [⟨"data", .msg 1⟩, ⟨"ctrl", .multipart 2⟩] "data"
    ⟨_, List.mem_cons_self, rfl⟩).mpr
    ⟨by decide, fun _ => .inl (by decide)⟩ (fun _ => some [true, false]) .newestFirst [true, false] 1
    (fun _ _ => ⟨_, rfl, by simp⟩) rfl (by decide)

/-- A second registration changes nothing; and with one of each kind, one sub-channel and two
are handled by different callbacks. -/
theorem second_registration_ignored :
    (Registry.ofHistory [⟨"data", .msg 1⟩, ⟨"data", .msg 2⟩] : Registry Nat Nat).dispatch
        .oldestFirst (fun _ => some [false]) "data" 0 = some (.msg 1) ∧
    latest ([⟨"data", .msg 1⟩, ⟨"data", .msg 2⟩] : List (Registration Nat Nat)) "data" =
      some (.msg 2) ∧
    (Registry.ofHistory [⟨"data", .msg 1⟩, ⟨"data", .multipart 2⟩] : Registry Nat Nat).dispatch
        .oldestFirst (fun _ => some [false]) "data" 0 = some (.msg 1) ∧
    (Registry.ofHistory [⟨"data", .msg 1⟩, ⟨"data", .multipart 2⟩] : Registry Nat Nat).dispatch
        .oldestFirst (fun _ => some [false, false]) "data" 0 = some (.multipart 2) := by
  decide

end FairMQ.Device
