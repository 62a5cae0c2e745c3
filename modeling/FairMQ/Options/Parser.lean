import FairMQ.Data.PropertyTree
import FairMQ.Data.UnorderedMap
import FairMQ.Options.ProgOptions
import Mathlib.Data.List.Forall2

namespace FairMQ.Options

open FairMQ.Data

/-- The properties of a node on top of those of a channel.  An unknown transport ends the
process. -/
def applyProperties (tree : PropertyTree) (channel : FairMQChannel) : Option FairMQChannel :=
  let channel := channel.updateType (tree.getString "type" channel.fType)
  let channel := channel.updateMethod (tree.getString "method" channel.fMethod)
  let channel := channel.updateAddress (tree.getString "address" channel.fAddress)
  (channel.updateTransport
    (tree.getString "transport" (transportNames channel.fTransportType))).map fun channel =>
      let channel := channel.updateSndBufSize (tree.getInt "sndBufSize" channel.fSndBufSize)
      let channel := channel.updateRcvBufSize (tree.getInt "rcvBufSize" channel.fRcvBufSize)
      let channel :=
        channel.updateSndKernelSize (tree.getInt "sndKernelSize" channel.fSndKernelSize)
      let channel :=
        channel.updateRcvKernelSize (tree.getInt "rcvKernelSize" channel.fRcvKernelSize)
      channel.updateRateLogging (tree.getInt "rateLogging" channel.fRateLogging)

def socketParser (tree : PropertyTree) (commonChannel : FairMQChannel) :
    Option (List FairMQChannel) :=
  ((tree.elements "sockets").mapM fun socket =>
    applyProperties socket commonChannel.copy).map fun channelList =>
      if channelList = [] then [commonChannel.copy] else channelList

/-- The name of a channel and its sub-channels; a channel without a name makes `get`
throw. -/
def parseChannel (tree : PropertyTree) : Option (String × List FairMQChannel) :=
  match tree.child? "name", applyProperties tree {} with
  | some name, some commonChannel =>
      let numSockets := tree.getInt "numSockets" 0
      if 0 < numSockets then
        some (name.data, List.replicate numSockets.toNat commonChannel.copy)
      else (socketParser tree commonChannel).map (name.data, ·)
  | _, _ => none

/-- `ChannelParser`; a name that is in the map already keeps its channels. -/
def channelParser (tree : PropertyTree) (channelMap : UnorderedMap String (List FairMQChannel)) :
    Option (UnorderedMap String (List FairMQChannel)) :=
  ((tree.elements "channels").mapM parseChannel).map channelMap.insertAll

/-- The key of a device, or its id if there is none; with neither of them `get` throws. -/
def deviceIdKey (device : PropertyTree) : Option String :=
  let key := device.getString "key" ""
  if key ≠ "" then some key else (device.child? "id").map PropertyTree.data

/-- A device with another key is left out. -/
def parseDevice (deviceId : String) (channelMap : UnorderedMap String (List FairMQChannel))
    (device : PropertyTree) : Option (UnorderedMap String (List FairMQChannel)) :=
  match deviceIdKey device with
  | none => none
  | some key => if deviceId ≠ key then some channelMap else channelParser device channelMap

def deviceParser (tree : PropertyTree) (deviceId : String)
    (channelMap : UnorderedMap String (List FairMQChannel)) :
    Option (UnorderedMap String (List FairMQChannel)) :=
  (tree.elements "devices").foldlM (parseDevice deviceId) channelMap

/-- `ptreeToMQMap`; it throws without a device id. -/
def ptreeToMQMap (pt : PropertyTree) (id : String) (rootNode : List String) :
    Option (UnorderedMap String (List FairMQChannel)) :=
  if id = "" then none
  else (pt.getChild rootNode).bind fun tree => deviceParser tree id .empty

theorem mapM_eq_some_iff {α β : Type} {f : α → Option β} {inputs : List α} {results : List β} :
    inputs.mapM f = some results ↔
      List.Forall₂ (fun input result => f input = some result) inputs results := by
  induction inputs generalizing results with
  | nil => simp [eq_comm]
  | cons input inputs ih =>
      simp only [List.mapM_cons, bind, pure, Option.bind_eq_some_iff, Option.some.injEq,
        List.forall₂_cons_left_iff, ih]
      constructor
      · rintro ⟨first, isFirst, others, areOthers, rfl⟩
        exact ⟨first, others, isFirst, areOthers, rfl⟩
      · rintro ⟨first, others, isFirst, areOthers, rfl⟩
        exact ⟨first, isFirst, others, areOthers, rfl⟩

theorem mapM_getElem? {α β : Type} {f : α → Option β} {inputs : List α} {results : List β}
    (all : inputs.mapM f = some results) (i : Nat) : results[i]? = inputs[i]?.bind f := by
  rw [mapM_eq_some_iff] at all
  induction all generalizing i with
  | nil => rfl
  | cons isFirst _ ih =>
      cases i with
      | zero => exact isFirst.symm
      | succ i => exact ih i

theorem mapM_length {α β : Type} {f : α → Option β} {inputs : List α} {results : List β}
    (all : inputs.mapM f = some results) : results.length = inputs.length :=
  (mapM_eq_some_iff.mp all).length_eq.symm

theorem mem_mapM {α β : Type} {f : α → Option β} {inputs : List α} {results : List β}
    (all : inputs.mapM f = some results) {result : β} (member : result ∈ results) :
    ∃ input ∈ inputs, f input = some result := by
  obtain ⟨i, place⟩ := List.mem_iff_getElem?.mp member
  rw [mapM_getElem? all i] at place
  obtain ⟨input, found, isResult⟩ := Option.bind_eq_some_iff.mp place
  exact ⟨input, List.mem_of_getElem? found, isResult⟩

theorem mapM_isSome {α β : Type} {f : α → Option β} {inputs : List α}
    (each : ∀ input ∈ inputs, (f input).isSome) : (inputs.mapM f).isSome := by
  induction inputs with
  | nil => rfl
  | cons input inputs ih =>
      obtain ⟨first, isFirst⟩ := Option.isSome_iff_exists.mp (each input (by simp))
      obtain ⟨others, areOthers⟩ := Option.isSome_iff_exists.mp
        (ih fun other member => each other (List.mem_cons_of_mem _ member))
      rw [List.mapM_cons, isFirst, areOthers]
      rfl

theorem map_fst_of_forall₂ {α β γ : Type} {key : α → β} {inputs : List α}
    {results : List (β × γ)}
    (keyed : List.Forall₂ (fun input result => result.1 = key input) inputs results) :
    results.map Prod.fst = inputs.map key := by
  induction keyed with
  | nil => rfl
  | cons first _ ih => rw [List.map_cons, List.map_cons, first, ih]

theorem socketParser_nonempty {tree : PropertyTree} {commonChannel : FairMQChannel}
    {channelList : List FairMQChannel}
    (parsed : socketParser tree commonChannel = some channelList) : channelList ≠ [] := by
  obtain ⟨sockets, _, rfl⟩ := Option.map_eq_some_iff.mp parsed
  split
  · exact List.cons_ne_nil _ _
  · assumption

theorem parseChannel_nonempty {tree : PropertyTree} {entry : String × List FairMQChannel}
    (parsed : parseChannel tree = some entry) : entry.2 ≠ [] := by
  simp only [parseChannel] at parsed
  split at parsed
  · split at parsed
    · rename_i positive
      cases parsed
      simpa using positive
    · obtain ⟨channelList, sockets, rfl⟩ := Option.map_eq_some_iff.mp parsed
      exact socketParser_nonempty sockets
  · cases parsed

theorem channelParser_nonempty {tree : PropertyTree}
    {channelMap : UnorderedMap String (List FairMQChannel)}
    (parsed : channelParser tree .empty = some channelMap) {name : String}
    {channels : List FairMQChannel} (found : channelMap.get? name = some channels) :
    channels ≠ [] := by
  obtain ⟨entries, each, rfl⟩ := Option.map_eq_some_iff.mp parsed
  have member := UnorderedMap.get?_eq_some_iff.mp found
  rcases UnorderedMap.mem_entries_insertAll member with old | new
  · cases old
  · obtain ⟨channel, _, isEntry⟩ := mem_mapM each new
    exact parseChannel_nonempty isEntry

end FairMQ.Options
