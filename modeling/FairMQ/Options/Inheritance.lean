import FairMQ.Options.Parser
import Mathlib.Algebra.Ring.Nat

namespace FairMQ.Options

open FairMQ.Data
open FairMQ.Data.PropertyTree

def readValue : Kind → String → Option Value
  | .string, text => some (.string text)
  | .int, text => (readInt text).map .int

/-- The value a node gives for a member; a text that is no number gives none for an int. -/
def given? (tree : PropertyTree) (member : Member) : Option Value :=
  (tree.child? member.text).bind fun child => readValue member.kind child.data

def inherited (socket : Option PropertyTree) (entry : PropertyTree) (member : Member) : Value :=
  ((socket.bind (given? · member)).or (given? entry member)).getD (member.value {})

def socketNodes (entry : PropertyTree) : List (Option PropertyTree) :=
  if 0 < entry.getInt "numSockets" 0 then
    List.replicate (entry.getInt "numSockets" 0).toNat none
  else
    match entry.elements "sockets" with
    | [] => [none]
    | sockets => sockets.map some

def Inherits (entry : PropertyTree) (channels : List FairMQChannel) : Prop :=
  List.Forall₂ (fun socket channel => ∀ member, member.value channel =
    inherited socket entry member) (socketNodes entry) channels

def KnownTransport (tree : PropertyTree) : Prop :=
  ∀ child ∈ tree.child? "transport", (transportTypes child.data).isSome

def KnownTransports (entry : PropertyTree) : Prop :=
  KnownTransport entry ∧ ∀ socket ∈ entry.elements "sockets", KnownTransport socket

instance : DecidablePred KnownTransport := fun tree =>
  inferInstanceAs (Decidable (∀ child ∈ tree.child? "transport", _))

instance : DecidablePred KnownTransports := fun entry =>
  inferInstanceAs (Decidable (_ ∧ ∀ socket ∈ entry.elements "sockets", _))

def deviceEntries (deviceId : String) (device : PropertyTree) : List PropertyTree :=
  if deviceIdKey device = some deviceId then device.elements "channels" else []

def channelEntries (tree : PropertyTree) (deviceId : String) : List PropertyTree :=
  (tree.elements "devices").flatMap (deviceEntries deviceId)

def entryName (entry : PropertyTree) : String :=
  entry.getString "name" ""

def Declares (entry : PropertyTree) (channel : String × List FairMQChannel) : Prop :=
  channel.1 = entryName entry ∧ Inherits entry channel.2

theorem transportTypes_names (transport : Transport) :
    transportTypes (transportNames transport) = some transport := by
  cases transport <;> rfl

section Properties

variable {tree : PropertyTree} {channel after : FairMQChannel}

theorem getString_given (tree : PropertyTree) (member : Member) (isString : member.kind = .string)
    (fallback : String) :
    Value.string (tree.getString member.text fallback) =
      (given? tree member).getD (.string fallback) := by
  simp only [given?, isString, getString, readValue]
  cases tree.child? member.text <;> rfl

theorem getInt_given (tree : PropertyTree) (member : Member) (isInt : member.kind = .int)
    (fallback : Int) :
    Value.int (tree.getInt member.text fallback) =
      (given? tree member).getD (.int fallback) := by
  simp only [given?, isInt, getInt, readValue]
  cases tree.child? member.text with
  | none => rfl
  | some child => cases found : readInt child.data <;> simp [found]

theorem applyProperties_value (applied : applyProperties tree channel = some after)
    (member : Member) : member.value after = (given? tree member).getD (member.value channel) := by
  obtain ⟨middle, isMiddle, rfl⟩ := Option.map_eq_some_iff.mp applied
  obtain ⟨transport, known, rfl⟩ := Option.map_eq_some_iff.mp isMiddle
  cases member with
  | transport =>
      have name := transportNames_of_types known
      exact (congrArg Value.string name).trans (getString_given tree .transport rfl _)
  | type => exact getString_given tree .type rfl _
  | method => exact getString_given tree .method rfl _
  | address => exact getString_given tree .address rfl _
  | sndBufSize => exact getInt_given tree .sndBufSize rfl _
  | rcvBufSize => exact getInt_given tree .rcvBufSize rfl _
  | sndKernelSize => exact getInt_given tree .sndKernelSize rfl _
  | rcvKernelSize => exact getInt_given tree .rcvKernelSize rfl _
  | rateLogging => exact getInt_given tree .rateLogging rfl _

theorem applyProperties_isSome (known : KnownTransport tree) (channel : FairMQChannel) :
    (applyProperties tree channel).isSome := by
  simp only [applyProperties, FairMQChannel.updateTransport, Option.isSome_map, getString]
  cases found : tree.child? "transport" with
  | none => simp [transportTypes_names]
  | some child => exact known child found

end Properties

section Entry

variable {entry : PropertyTree} {commonChannel : FairMQChannel}

theorem copy_value (channel : FairMQChannel) (member : Member) :
    member.value channel.copy = member.value channel := by
  cases member <;> rfl

theorem common_inherits (applied : applyProperties entry {} = some commonChannel)
    (member : Member) : member.value commonChannel.copy = inherited none entry member := by
  rw [copy_value, applyProperties_value applied]
  rfl

theorem socket_inherits (applied : applyProperties entry {} = some commonChannel)
    {socket : PropertyTree} {channel : FairMQChannel}
    (overridden : applyProperties socket commonChannel.copy = some channel) (member : Member) :
    member.value channel = inherited (some socket) entry member := by
  rw [applyProperties_value overridden, common_inherits applied]
  simp only [inherited, Option.bind_some, Option.bind_none, Option.none_or]
  cases given? socket member <;> rfl

theorem socketParser_inherits (applied : applyProperties entry {} = some commonChannel)
    (noNumber : ¬ 0 < entry.getInt "numSockets" 0) {channels : List FairMQChannel}
    (parsed : socketParser entry commonChannel = some channels) : Inherits entry channels := by
  obtain ⟨channelList, each, rfl⟩ := Option.map_eq_some_iff.mp parsed
  have made := mapM_eq_some_iff.mp each
  rw [Inherits, socketNodes, if_neg noNumber]
  cases sockets : entry.elements "sockets" with
  | nil =>
      rw [sockets, List.forall₂_nil_left_iff] at made
      rw [if_pos made]
      exact .cons (common_inherits applied) .nil
  | cons first rest =>
      rw [sockets] at made
      have nonempty : channelList ≠ [] := by
        intro empty
        rw [empty] at made
        cases made
      rw [if_neg nonempty]
      exact List.forall₂_map_left_iff.mpr (made.imp fun _ _ => socket_inherits applied)

theorem parseChannel_declares {result : String × List FairMQChannel}
    (parsed : parseChannel entry = some result) : Declares entry result := by
  simp only [parseChannel] at parsed
  split at parsed
  · rename_i name commonChannel named applied
    have isName : entryName entry = name.data := by simp [entryName, getString, named]
    rw [Declares, isName]
    split at parsed
    · rename_i positive
      cases parsed
      refine ⟨rfl, ?_⟩
      rw [Inherits, socketNodes, if_pos positive]
      apply List.forall₂_iff_get.mpr
      simp [common_inherits applied]
    · rename_i noNumber
      obtain ⟨channels, sockets, rfl⟩ := Option.map_eq_some_iff.mp parsed
      exact ⟨rfl, socketParser_inherits applied noNumber sockets⟩
  · cases parsed

theorem parseChannel_isSome (named : (entry.child? "name").isSome)
    (known : KnownTransports entry) : (parseChannel entry).isSome := by
  obtain ⟨name, isName⟩ := Option.isSome_iff_exists.mp named
  obtain ⟨commonChannel, applied⟩ := Option.isSome_iff_exists.mp
    (applyProperties_isSome known.1 {})
  simp only [parseChannel, isName, applied]
  split
  · rfl
  · simp only [socketParser, Option.isSome_map]
    exact mapM_isSome fun socket member => applyProperties_isSome (known.2 socket member) _

end Entry

section Devices

variable {tree pt : PropertyTree} {deviceId : String} {rootNode : List String}
  {channelMap result : UnorderedMap String (List FairMQChannel)}

theorem parseDevice_iff {device : PropertyTree} :
    parseDevice deviceId channelMap device = some result ↔
      (deviceIdKey device).isSome ∧
        ∃ parsed, (deviceEntries deviceId device).mapM parseChannel = some parsed ∧
          channelMap.insertAll parsed = result := by
  unfold parseDevice deviceEntries
  cases deviceIdKey device with
  | none => simp
  | some key =>
      by_cases same : deviceId = key
      · simp [same, channelParser]
      · simp [same, Ne.symm same, UnorderedMap.insertAll]

/-- The entries of the matching devices are inserted one after the other; a device
without key and id stops the parser wherever it stands. -/
theorem deviceParser_iff :
    deviceParser tree deviceId channelMap = some result ↔
      (∀ device ∈ tree.elements "devices", (deviceIdKey device).isSome) ∧
        ∃ parsed, (channelEntries tree deviceId).mapM parseChannel = some parsed ∧
          channelMap.insertAll parsed = result := by
  unfold deviceParser channelEntries
  induction tree.elements "devices" generalizing channelMap with
  | nil => simp [UnorderedMap.insertAll]
  | cons device devices ih =>
      simp only [List.foldlM_cons, bind, Option.bind_eq_some_iff, parseDevice_iff, ih,
        List.mem_cons, forall_eq_or_imp, List.flatMap_cons, List.mapM_append, pure,
        Option.some.injEq]
      constructor
      · intro parsed
        obtain ⟨_, ⟨identified, first, isFirst, rfl⟩, others, rest, areRest, stored⟩ := parsed
        exact ⟨⟨identified, others⟩, _, ⟨first, isFirst, rest, areRest, rfl⟩,
          (UnorderedMap.insertAll_append ..).trans stored⟩
      · intro parsed
        obtain ⟨⟨identified, others⟩, _, ⟨first, isFirst, rest, areRest, rfl⟩, stored⟩ := parsed
        exact ⟨_, ⟨identified, first, isFirst, rfl⟩, others, rest, areRest,
          (UnorderedMap.insertAll_append ..).symm.trans stored⟩

theorem ptreeToMQMap_eq (root : pt.getChild rootNode = some tree) (identified : deviceId ≠ "") :
    ptreeToMQMap pt deviceId rootNode = deviceParser tree deviceId .empty := by
  rw [ptreeToMQMap, if_neg identified, root]
  rfl

/-- With distinct names each entry is one channel of the map, and there are no others. -/
theorem channel_entries_inherited (root : pt.getChild rootNode = some tree)
    (identified : deviceId ≠ "")
    (named : ∀ entry ∈ channelEntries tree deviceId, (entry.child? "name").isSome)
    (distinct : ((channelEntries tree deviceId).map entryName).Nodup)
    (known : ∀ entry ∈ channelEntries tree deviceId, KnownTransports entry) :
    ((ptreeToMQMap pt deviceId rootNode).isSome ↔
        ∀ device ∈ tree.elements "devices", (deviceIdKey device).isSome) ∧
      ∀ channelMap, ptreeToMQMap pt deviceId rootNode = some channelMap →
        List.Forall₂ Declares (channelEntries tree deviceId) channelMap.entries := by
  obtain ⟨parsed, each⟩ := Option.isSome_iff_exists.mp
    (mapM_isSome fun entry member => parseChannel_isSome (named entry member) (known entry member))
  have made := (mapM_eq_some_iff.mp each).imp fun _ _ => parseChannel_declares
  have names : parsed.map Prod.fst = (channelEntries tree deviceId).map entryName :=
    map_fst_of_forall₂ (made.imp fun _ _ declares => declares.1)
  rw [ptreeToMQMap_eq root identified]
  refine ⟨?_, fun channelMap returned => ?_⟩
  · simp [Option.isSome_iff_exists, deviceParser_iff, each]
  · obtain ⟨_, all, areAll, rfl⟩ := deviceParser_iff.mp returned
    cases each.symm.trans areAll
    rw [UnorderedMap.empty_insertAll (names ▸ distinct)]
    exact made

/-- A socket overrides the type and the transport of its channel; the second device is
another one. -/
def overridingTree : PropertyTree :=
  node "" [("devices", node "" [
    ("", node "" [("id", node "sampler" []), ("channels", node "" [
      ("", node "" [("name", node "data" []), ("type", node "push" []),
        ("transport", node "zeromq" []), ("sockets", node "" [
          ("", node "" [("address", node "tcp://a:1" [])]),
          ("", node "" [("type", node "pair" []), ("transport", node "shmem" [])])])])])]),
    ("", node "" [("key", node "sink" []), ("channels", node "" [
      ("", node "" [("name", node "data" [])])])])])]

theorem overriding_socket_inherited :
    ∃ channelMap, ptreeToMQMap overridingTree "sampler" [] = some channelMap ∧
      (channelEntries overridingTree "sampler").length = 1 ∧
      List.Forall₂ Declares (channelEntries overridingTree "sampler") channelMap.entries := by
  have holds := channel_entries_inherited (rfl : overridingTree.getChild [] = some overridingTree)
    (by decide : "sampler" ≠ "") (by decide) (by decide) (by decide)
  obtain ⟨channelMap, returned⟩ := Option.isSome_iff_exists.mp (holds.1.mpr (by decide))
  exact ⟨channelMap, returned, by decide, holds.2 channelMap returned⟩

end Devices

/-- A list of sockets counts, whatever the number of sockets says. -/
def declaredSockets (entry : PropertyTree) : Nat :=
  match entry.elements "sockets" with
  | [] => if 0 < entry.getInt "numSockets" 0 then (entry.getInt "numSockets" 0).toNat else 1
  | sockets => sockets.length

def entriesNamed (tree : PropertyTree) (deviceId name : String) : List PropertyTree :=
  (channelEntries tree deviceId).filter fun entry => entryName entry = name

def declaredTotal (entries : List PropertyTree) : Nat :=
  (entries.map declaredSockets).sum

/-- Only the first entry under a name is stored, and its `numSockets` goes before its
list. -/
def Conserved : List PropertyTree → Prop
  | [] => True
  | [entry] =>
      0 < entry.getInt "numSockets" 0 → entry.elements "sockets" ≠ [] →
        entry.getInt "numSockets" 0 = (entry.elements "sockets").length
  | entry :: rest =>
      0 < entry.getInt "numSockets" 0 ∧
        entry.getInt "numSockets" 0 = declaredTotal (entry :: rest)

section Sockets

variable {tree pt entry : PropertyTree} {deviceId : String} {rootNode : List String}
  {channelMap : UnorderedMap String (List FairMQChannel)}

theorem declaredSockets_pos (entry : PropertyTree) : 0 < declaredSockets entry := by
  unfold declaredSockets
  split
  · split <;> omega
  · exact List.length_pos_iff.mpr (by assumption)

theorem socketNodes_length_of_number (positive : 0 < entry.getInt "numSockets" 0) :
    ((socketNodes entry).length : Int) = entry.getInt "numSockets" 0 := by
  rw [socketNodes, if_pos positive, List.length_replicate]
  omega

theorem socketNodes_length_of_none (noNumber : ¬ 0 < entry.getInt "numSockets" 0) :
    (socketNodes entry).length = declaredSockets entry := by
  rw [socketNodes, if_neg noNumber]
  unfold declaredSockets
  cases entry.elements "sockets" with
  | nil => simp [noNumber]
  | cons first rest => simp

theorem declaredTotal_cons (entry : PropertyTree) (rest : List PropertyTree) :
    declaredTotal (entry :: rest) = declaredSockets entry + declaredTotal rest := by
  simp [declaredTotal]

theorem single_conserved_iff (entry : PropertyTree) :
    (socketNodes entry).length = declaredSockets entry ↔ Conserved [entry] := by
  by_cases positive : 0 < entry.getInt "numSockets" 0
  · have number := socketNodes_length_of_number positive
    cases sockets : entry.elements "sockets" with
    | nil =>
        have declared : declaredSockets entry = (entry.getInt "numSockets" 0).toNat := by
          simp [declaredSockets, sockets, positive]
        simp only [Conserved, sockets, declared, ne_eq, not_true, false_implies, implies_true,
          iff_true]
        omega
    | cons first rest =>
        have declared : declaredSockets entry = (first :: rest).length := by
          simp [declaredSockets, sockets]
        simp only [Conserved, sockets, positive, declared, ne_eq, reduceCtorEq, not_false_iff,
          true_implies]
        omega
  · simp [Conserved, positive, socketNodes_length_of_none positive]

theorem repeated_conserved_iff (entry second : PropertyTree) (rest : List PropertyTree) :
    (socketNodes entry).length = declaredTotal (entry :: second :: rest) ↔
      Conserved (entry :: second :: rest) := by
  by_cases positive : 0 < entry.getInt "numSockets" 0
  · have number := socketNodes_length_of_number positive
    simp only [Conserved, positive, true_and]
    omega
  · have atLeastOne := declaredSockets_pos second
    rw [socketNodes_length_of_none positive, declaredTotal_cons, declaredTotal_cons]
    simp only [Conserved, positive, false_and, iff_false]
    omega

theorem declared_length {entries : List PropertyTree}
    {parsed : List (String × List FairMQChannel)} (made : List.Forall₂ Declares entries parsed)
    (name : String) :
    (((parsed.find? fun channel => channel.1 = name).map Prod.snd).getD []).length =
      ((entries.find? fun entry => entryName entry = name).map
        fun entry => (socketNodes entry).length).getD 0 := by
  induction made with
  | nil => rfl
  | @cons entry channel entries parsed first _ ih =>
      rw [List.find?_cons, List.find?_cons, first.1]
      by_cases isName : entryName entry = name
      · simp [isName, first.2.length_eq]
      · simpa [isName] using ih

theorem subChannels_length (root : pt.getChild rootNode = some tree)
    (returned : ptreeToMQMap pt deviceId rootNode = some channelMap) (name : String) :
    ((channelMap.get? name).getD []).length =
      ((entriesNamed tree deviceId name).head?.map fun entry =>
        (socketNodes entry).length).getD 0 := by
  have identified : deviceId ≠ "" := by
    intro missing
    rw [ptreeToMQMap, if_pos missing] at returned
    cases returned
  rw [ptreeToMQMap_eq root identified] at returned
  obtain ⟨_, parsed, each, rfl⟩ := deviceParser_iff.mp returned
  have made := (mapM_eq_some_iff.mp each).imp fun _ _ => parseChannel_declares
  rw [entriesNamed, List.head?_filter, UnorderedMap.get?_insertAll, ← declared_length made]
  rfl

theorem sockets_conserved_iff (root : pt.getChild rootNode = some tree)
    (returned : ptreeToMQMap pt deviceId rootNode = some channelMap) (name : String) :
    ((channelMap.get? name).getD []).length = declaredTotal (entriesNamed tree deviceId name) ↔
      Conserved (entriesNamed tree deviceId name) := by
  rw [subChannels_length root returned]
  match entriesNamed tree deviceId name with
  | [] => simp [declaredTotal, Conserved]
  | [entry] => exact single_conserved_iff entry
  | entry :: second :: rest => exact repeated_conserved_iff entry second rest

theorem overriding_sockets_conserved :
    ∃ channelMap, ptreeToMQMap overridingTree "sampler" [] = some channelMap ∧
      ((channelMap.get? "data").getD []).length =
        declaredTotal (entriesNamed overridingTree "sampler" "data") := by
  have conserved : Conserved (entriesNamed overridingTree "sampler" "data") :=
    fun positive => absurd positive (by decide)
  obtain ⟨channelMap, returned⟩ := Option.isSome_iff_exists.mp
    (by decide : (ptreeToMQMap overridingTree "sampler" []).isSome)
  exact ⟨channelMap, returned, (sockets_conserved_iff rfl returned "data").mpr conserved⟩

/-- Two devices under one id declare a channel of the same name, and the second one a
further channel with three sockets and a list of one. -/
def repeatedTree : PropertyTree :=
  node "" [("devices", node "" [
    ("", node "" [("id", node "sampler" []), ("channels", node "" [
      ("", node "" [("name", node "data" [])])])]),
    ("", node "" [("id", node "sampler" []), ("channels", node "" [
      ("", node "" [("name", node "data" [])]),
      ("", node "" [("name", node "ack" []), ("numSockets", node "3" []),
        ("sockets", node "" [("", node "" [])])])])])])]

theorem repeated_channel_dropped :
    ∃ channelMap, ptreeToMQMap repeatedTree "sampler" [] = some channelMap ∧
      ((channelMap.get? "data").getD []).length = 1 ∧
      declaredTotal (entriesNamed repeatedTree "sampler" "data") = 2 ∧
      ((channelMap.get? "ack").getD []).length = 3 ∧
      declaredTotal (entriesNamed repeatedTree "sampler" "ack") = 1 :=
  ⟨_, rfl, rfl, rfl, rfl, rfl⟩

end Sockets

end FairMQ.Options
