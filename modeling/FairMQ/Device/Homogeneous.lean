import FairMQ.Device.Attempts
import FairMQ.Device.Poller
import FairMQ.Options.Parser
import Mathlib.Data.List.Forall2

namespace FairMQ.Device

open FairMQ.Data FairMQ.Channels
open FairMQ.Options (Transport FairMQChannel channelParser)

def SocketType.ofName : String → Option SocketType
  | "sub" => some .sub
  | "pub" => some .pub
  | "pull" => some .pull
  | "push" => some .push
  | "req" => some .req
  | "rep" => some .rep
  | "xsub" => some .xsub
  | "xpub" => some .xpub
  | "dealer" => some .dealer
  | "router" => some .router
  | "pair" => some .pair
  | _ => none

abbrev DeviceChannels := String → Option (List (Channel Socket))

def subChannel? (channel : Channel Socket) : Option SubChannel :=
  match channel.fSocket, SocketType.ofName channel.fType with
  | some socket, some type => some ⟨socket.transport, type⟩
  | _, _ => none

def pollMap (fChannels : DeviceChannels) : ChannelMap :=
  fun name => (fChannels name).bind (List.mapM subChannel?)

namespace DeviceChannels

variable (fChannels : DeviceChannels)

def at? (key : String) (i : Nat) : Option (Channel Socket) :=
  (fChannels key).bind (·[i]?)

def transportType? (key : String) : Option Transport :=
  (fChannels.at? key 0).map fun channel => channel.fTransportType

def factory? (key : String) (i : Nat) : Option Transport :=
  (fChannels.at? key i).bind fun channel => channel.fTransportFactory

end DeviceChannels

structure Request where
  transport : Transport
  keys : List String
deriving DecidableEq

def Request.create (fChannels : DeviceChannels) (request : Request) : Option Poller :=
  createPoller request.transport (pollMap fChannels) request.keys

def addInput (transport : Transport) (key : String) : List Request → List Request
  | [] => [⟨transport, [key]⟩]
  | group :: groups =>
      if group.transport = transport then ⟨transport, group.keys ++ [key]⟩ :: groups
      else group :: addInput transport key groups

def groupInputs (fChannels : DeviceChannels) : List String → List Request → Option (List Request)
  | [], groups => some groups
  | key :: keys, groups =>
      match fChannels.transportType? key with
      | none => none
      | some transport => groupInputs fChannels keys (addInput transport key groups)

/-- The pollers of `HandleMultipleChannelInput`: those of the threads of `PollForTransport`, or
one from the factory of the first channel. -/
def inputRequests (fChannels : DeviceChannels) (fInputChannelKeys : List String) :
    Option (List Request) :=
  match groupInputs fChannels fInputChannelKeys [] with
  | none => none
  | some groups =>
      if groups.length > 1 then some groups
      else
        match fInputChannelKeys with
        | [] => none
        | key :: _ =>
            (fChannels.factory? key 0).map fun transport => [⟨transport, fInputChannelKeys⟩]

/-- `NewPoller` for names, with whether it raises `ERROR_FOUND`; it asks for a poller
anyway. -/
def newPoller (fChannels : DeviceChannels) : List String → Option (Bool × Request)
  | [] => none
  | chan :: chans =>
      match fChannels.factory? chan 0, chans.mapM (fChannels.factory? · 0) with
      | some type, some types => some (types.any (· ≠ type), ⟨type, chan :: chans⟩)
      | _, _ => none

def newPollerOf (fChannels : DeviceChannels) :
    List (String × Nat) → Option (Bool × Poller)
  | [] => none
  | channel :: channels =>
      match fChannels.factory? channel.1 channel.2,
        channels.mapM fun other => fChannels.factory? other.1 other.2 with
      | some type, some types =>
          ((channel :: channels).mapM fun place =>
            ((pollMap fChannels).at? place.1 place.2).bind (makeItem type place.1 place.2)).map
              fun items => (types.any (· ≠ type), ⟨type, items.map some, fun _ => none⟩)
      | _, _ => none

def Homogeneous (channelsMap : ChannelMap) (poller : Poller) : Prop :=
  ∀ entry ∈ poller.fItems, ∃ item channel i subChannel, entry = some item ∧
    item.watched = some (channel, i) ∧ channelsMap.at? channel i = some subChannel ∧
    subChannel.transport = poller.transport

section Items

variable {transport : Transport} {channelsMap : ChannelMap} {channelList : List String}
  {poller : Poller}

/-- A poller is homogeneous exactly if no channel is listed twice, which leaves items without
a socket, and if all sub-channels are of its transport. -/
theorem homogeneous_iff (filled : ∀ key ∈ channelList, 0 < channelsMap.size key)
    (created : createPoller transport channelsMap channelList = some poller) :
    Homogeneous channelsMap poller ↔ channelList.Nodup ∧
      ∀ key ∈ channelList, ∀ i subChannel, channelsMap.at? key i = some subChannel →
        subChannel.transport = transport := by
  obtain ⟨rfl, laidOut⟩ := createPoller_laidOut created
  constructor
  · intro homogeneous
    constructor
    · by_contra repeated
      obtain ⟨place, _, upper, free⟩ := InRange.gap filled repeated 0
      rw [Nat.zero_add, ← laidOut.length] at upper
      have hole := List.mem_of_getElem? (laidOut.uninitialized place upper free)
      obtain ⟨item, _, _, _, impossible, _⟩ := homogeneous none hole
      cases impossible
    · intro key member i subChannel isSubChannel
      obtain ⟨offset, item, _, made, place⟩ :=
        laidOut.stored key member i subChannel isSubChannel
      obtain ⟨_, channel, j, other, same, watched, found, own⟩ :=
        homogeneous _ (List.mem_of_getElem? place)
      cases same
      rcases makeItem_watched made with here | ⟨nothing, _⟩
      · cases here.symm.trans watched
        cases isSubChannel.symm.trans found
        exact own
      · cases nothing.symm.trans watched
  · rintro ⟨distinct, own⟩ entry member
    obtain ⟨place, isEntry⟩ := List.mem_iff_getElem?.mp member
    have upper := (List.getElem?_eq_some_iff.mp isEntry).1
    rw [laidOut.length, ← Nat.zero_add (rangeTotal _ _)] at upper
    obtain ⟨key, inside⟩ := InRange.covers distinct (Nat.zero_le place) upper
    have listed := inside.mem
    obtain ⟨start, isStart, lower, above⟩ := inside
    have there : (channelsMap.at? key (place - start)).isSome :=
      ChannelMap.at?_isSome.mpr (by omega)
    obtain ⟨subChannel, isSubChannel⟩ := Option.isSome_iff_exists.mp there
    obtain ⟨offset, item, isOffset, made, isItem⟩ :=
      laidOut.stored key listed (place - start) subChannel isSubChannel
    rw [laidOut.offsets, isStart] at isOffset
    cases isOffset
    rw [Nat.add_sub_cancel' lower, isEntry] at isItem
    have isOwn := own key listed _ subChannel isSubChannel
    exact ⟨item, key, _, subChannel, Option.some.inj isItem, makeItem_watched_self made isOwn,
      isSubChannel, isOwn⟩

end Items

section Groups

variable {fChannels : DeviceChannels} {keys : List String} {groups result : List Request}

def Sorted (fChannels : DeviceChannels) (groups : List Request) : Prop :=
  ∀ group ∈ groups, ∀ key ∈ group.keys, fChannels.transportType? key = some group.transport

theorem addInput_keys (transport : Transport) (key : String) (groups : List Request) :
    ((addInput transport key groups).flatMap Request.keys).Perm
      (key :: groups.flatMap Request.keys) := by
  induction groups with
  | nil => exact .refl _
  | cons group groups ih =>
      rw [addInput]
      split
      · rw [List.flatMap_cons, List.flatMap_cons, List.append_assoc]
        exact List.perm_middle
      · rw [List.flatMap_cons, List.flatMap_cons]
        exact (ih.append_left _).trans List.perm_middle

theorem addInput_sorted {transport : Transport} {key : String} (sorted : Sorted fChannels groups)
    (isTransport : fChannels.transportType? key = some transport) :
    Sorted fChannels (addInput transport key groups) := by
  induction groups with
  | nil =>
      intro group member other isKey
      cases List.mem_singleton.mp member
      cases List.mem_singleton.mp isKey
      exact isTransport
  | cons first groups ih =>
      obtain ⟨own, others⟩ := List.forall_mem_cons.mp sorted
      rw [addInput]
      split
      · rename_i same
        apply List.forall_mem_cons.mpr ⟨?_, others⟩
        intro other isKey
        rcases List.mem_append.mp isKey with old | new
        · exact same ▸ own other old
        · rw [List.mem_singleton.mp new]
          exact isTransport
      · exact List.forall_mem_cons.mpr ⟨own, ih others⟩

theorem groupInputs_sorted (sorted : Sorted fChannels groups)
    (grouped : groupInputs fChannels keys groups = some result) :
    (result.flatMap Request.keys).Perm (groups.flatMap Request.keys ++ keys) ∧
      Sorted fChannels result := by
  induction keys generalizing groups with
  | nil =>
      cases grouped
      rw [List.append_nil]
      exact ⟨.refl _, sorted⟩
  | cons key keys ih =>
      simp only [groupInputs] at grouped
      split at grouped
      · cases grouped
      · rename_i transport isTransport
        obtain ⟨same, sorted⟩ := ih (addInput_sorted sorted isTransport) grouped
        refine ⟨same.trans ?_, sorted⟩
        exact ((addInput_keys transport key groups).append_right keys).trans List.perm_middle.symm

theorem inputRequests_sorted
    (factories : ∀ key transport, fChannels.transportType? key = some transport →
      fChannels.factory? key 0 = some transport)
    (requested : inputRequests fChannels keys = some result) :
    (result.flatMap Request.keys).Perm keys ∧ Sorted fChannels result := by
  simp only [inputRequests] at requested
  split at requested
  · cases requested
  · rename_i groups grouped
    have empty : Sorted fChannels [] := fun _ member => by cases member
    obtain ⟨same, sorted⟩ := groupInputs_sorted empty grouped
    split at requested
    · cases requested
      exact ⟨same, sorted⟩
    · rename_i few
      split at requested
      · cases requested
      · rename_i key keys
        obtain ⟨transport, isFactory, rfl⟩ := Option.map_eq_some_iff.mp requested
        refine ⟨by simp, ?_⟩
        -- There is one group, with all keys.
        obtain ⟨group, rfl⟩ : ∃ group, groups = [group] := by
          match groups with
          | [] => simp at same
          | [group] => exact ⟨group, rfl⟩
          | _ :: _ :: _ => simp at few
        have all : ∀ other ∈ key :: keys, fChannels.transportType? other = some group.transport := by
          intro other member
          apply sorted group List.mem_cons_self
          simpa using same.mem_iff.mpr member
        have first := factories key _ (all key List.mem_cons_self)
        cases isFactory.symm.trans first
        intro request isRequest
        cases List.mem_singleton.mp isRequest
        exact all

end Groups

inductive AttachedFrom (device : Transport) (config : FairMQChannel) : Channel Socket → Prop where
  | intro {environment : Environment} {limit : Int} {channels : List (Channel Socket)}
      {iterations : Nat} {state : Initialization} {entry : Entry} {start : Channel Socket}
      (isDevice : environment.transport = device)
      (ran : connectLoop environment limit channels iterations = some state)
      (attached : entry ∈ state.initialized) (found : channels[entry.index]? = some start)
      (fresh : start.fSocket = none) (configured : start.fTransportType = config.fTransportType) :
      AttachedFrom device config entry.channel

def configuredTransport (device : Transport) (config : FairMQChannel) : Transport :=
  channelTransport device { toFairMQChannel := config }

theorem AttachedFrom.uses {device : Transport} {config : FairMQChannel} {channel : Channel Socket}
    (attached : AttachedFrom device config channel) :
    UsesTransport (configuredTransport device config) channel := by
  obtain ⟨isDevice, ran, attached, found, fresh, configured⟩ := attached
  have uses := connectLoop_transport ran attached found fresh
  rw [channelTransport, configured, isDevice] at uses
  exact uses

def AllAttached (device : Transport) (channelMap : UnorderedMap String (List FairMQChannel))
    (fChannels : DeviceChannels) : Prop :=
  ∀ name, Option.Rel (List.Forall₂ (AttachedFrom device)) (channelMap.get? name) (fChannels name)

def Uniform (device : Transport) (channelMap : UnorderedMap String (List FairMQChannel))
    (name : String) : Prop :=
  ∀ configs, channelMap.get? name = some configs → ∀ config ∈ configs, ∀ other ∈ configs,
    configuredTransport device config = configuredTransport device other

theorem forall₂_getElem? {α β : Type} {related : α → β → Prop} {xs : List α} {ys : List β}
    (each : List.Forall₂ related xs ys) (i : Nat) : Option.Rel related xs[i]? ys[i]? := by
  induction each generalizing i with
  | nil => exact .none
  | cons first _ ih =>
      cases i with
      | zero => exact .some first
      | succ i => exact ih i

section Attached

variable {device : Transport} {channelMap : UnorderedMap String (List FairMQChannel)}
  {fChannels : DeviceChannels} {key : String} {i : Nat}

theorem AllAttached.sub (attached : AllAttached device channelMap fChannels) (key : String)
    (i : Nat) :
    Option.Rel (AttachedFrom device) ((channelMap.get? key).bind (·[i]?))
      (fChannels.at? key i) := by
  have related := attached key
  rw [DeviceChannels.at?]
  generalize channelMap.get? key = configs at related ⊢
  generalize fChannels key = channels at related ⊢
  cases related with
  | none => exact .none
  | some each => exact forall₂_getElem? each i

theorem AllAttached.config (attached : AllAttached device channelMap fChannels)
    {channel : Channel Socket} (found : fChannels.at? key i = some channel) :
    ∃ configs config, channelMap.get? key = some configs ∧ configs[i]? = some config ∧
      UsesTransport (configuredTransport device config) channel := by
  have related := attached.sub key i
  rw [found] at related
  cases isConfig : (channelMap.get? key).bind (·[i]?) with
  | none =>
      rw [isConfig] at related
      cases related
  | some config =>
      rw [isConfig] at related
      cases related with
      | some attachedFrom =>
          obtain ⟨configs, areConfigs, place⟩ := Option.bind_eq_some_iff.mp isConfig
          exact ⟨configs, config, areConfigs, place, attachedFrom.uses⟩

theorem AllAttached.channel (attached : AllAttached device channelMap fChannels)
    {configs : List FairMQChannel} {config : FairMQChannel}
    (areConfigs : channelMap.get? key = some configs) (isConfig : configs[i]? = some config) :
    ∃ channel, fChannels.at? key i = some channel ∧
      UsesTransport (configuredTransport device config) channel := by
  have related := attached.sub key i
  rw [areConfigs, Option.bind_some, isConfig] at related
  cases found : fChannels.at? key i with
  | none =>
      rw [found] at related
      cases related
  | some channel =>
      rw [found] at related
      cases related with
      | some attachedFrom => exact ⟨channel, rfl, attachedFrom.uses⟩

theorem subChannel?_transport {transport : Transport} {channel : Channel Socket}
    {subChannel : SubChannel} (uses : UsesTransport transport channel)
    (isSubChannel : subChannel? channel = some subChannel) : subChannel.transport = transport := by
  obtain ⟨socket, isSocket, own⟩ := uses.socket
  simp only [subChannel?, isSocket] at isSubChannel
  split at isSubChannel
  · rename_i same _
    cases same
    cases isSubChannel
    exact own
  · cases isSubChannel

theorem pollMap_at? (fChannels : DeviceChannels) (known : (pollMap fChannels key).isSome)
    (i : Nat) : (pollMap fChannels).at? key i = (fChannels.at? key i).bind subChannel? := by
  obtain ⟨subChannels, areSubChannels⟩ := Option.isSome_iff_exists.mp known
  obtain ⟨channels, areChannels, all⟩ := Option.bind_eq_some_iff.mp areSubChannels
  rw [ChannelMap.at?, areSubChannels, DeviceChannels.at?, areChannels, Option.bind_some,
    Option.bind_some, Options.mapM_getElem? all i]

theorem pollMap_size (fChannels : DeviceChannels) (known : (pollMap fChannels key).isSome)
    {channel : Channel Socket} (found : fChannels.at? key i = some channel) :
    ∃ subChannel, subChannel? channel = some subChannel := by
  obtain ⟨subChannels, areSubChannels⟩ := Option.isSome_iff_exists.mp known
  obtain ⟨channels, areChannels, all⟩ := Option.bind_eq_some_iff.mp areSubChannels
  rw [DeviceChannels.at?, areChannels, Option.bind_some] at found
  have bound := (List.getElem?_eq_some_iff.mp found).1
  have place := Options.mapM_getElem? all i
  rw [found, Option.bind_some, List.getElem?_eq_getElem (by rwa [Options.mapM_length all])] at place
  exact ⟨_, place.symm⟩

theorem AllAttached.subChannel (attached : AllAttached device channelMap fChannels)
    (known : (pollMap fChannels key).isSome) {configs : List FairMQChannel}
    {config : FairMQChannel} (areConfigs : channelMap.get? key = some configs)
    (isConfig : configs[i]? = some config) :
    ∃ subChannel, (pollMap fChannels).at? key i = some subChannel ∧
      subChannel.transport = configuredTransport device config := by
  obtain ⟨channel, found, uses⟩ := attached.channel areConfigs isConfig
  obtain ⟨subChannel, isSubChannel⟩ := pollMap_size fChannels known found
  refine ⟨subChannel, ?_, subChannel?_transport uses isSubChannel⟩
  rw [pollMap_at? fChannels known, found, Option.bind_some, isSubChannel]

theorem AllAttached.configured (attached : AllAttached device channelMap fChannels)
    (known : (pollMap fChannels key).isSome) {subChannel : SubChannel}
    (found : (pollMap fChannels).at? key i = some subChannel) :
    ∃ configs config, channelMap.get? key = some configs ∧ configs[i]? = some config ∧
      subChannel.transport = configuredTransport device config := by
  rw [pollMap_at? fChannels known] at found
  obtain ⟨channel, isChannel, isSubChannel⟩ := Option.bind_eq_some_iff.mp found
  obtain ⟨configs, config, areConfigs, isConfig, uses⟩ := attached.config isChannel
  exact ⟨configs, config, areConfigs, isConfig, subChannel?_transport uses isSubChannel⟩

theorem AllAttached.uniform_iff (attached : AllAttached device channelMap fChannels)
    (known : (pollMap fChannels key).isSome) {transport : Transport}
    (isFactory : fChannels.factory? key 0 = some transport) :
    (∀ i subChannel, (pollMap fChannels).at? key i = some subChannel →
      subChannel.transport = transport) ↔ Uniform device channelMap key := by
  constructor
  · intro own configs areConfigs
    have each : ∀ config ∈ configs, configuredTransport device config = transport := by
      intro config member
      obtain ⟨i, isConfig⟩ := List.mem_iff_getElem?.mp member
      obtain ⟨subChannel, found, same⟩ := attached.subChannel known areConfigs isConfig
      exact same.symm.trans (own i subChannel found)
    intro config member other isOther
    exact (each config member).trans (each other isOther).symm
  · intro uniform i subChannel found
    obtain ⟨first, isFirst, isTransport⟩ := Option.bind_eq_some_iff.mp isFactory
    obtain ⟨configs, firstConfig, areConfigs, isFirstConfig, uses⟩ := attached.config isFirst
    obtain ⟨_, config, same, isConfig, isSame⟩ := attached.configured known found
    cases areConfigs.symm.trans same
    rw [isSame, uniform configs areConfigs config (List.mem_of_getElem? isConfig) firstConfig
      (List.mem_of_getElem? isFirstConfig)]
    exact Option.some.inj (uses.factory.symm.trans isTransport)

theorem AllAttached.filled (attached : AllAttached device channelMap fChannels)
    {tree : PropertyTree} (parsed : channelParser tree .empty = some channelMap)
    (known : (pollMap fChannels key).isSome) : 0 < (pollMap fChannels).size key := by
  obtain ⟨subChannels, areSubChannels⟩ := Option.isSome_iff_exists.mp known
  obtain ⟨channels, areChannels, all⟩ := Option.bind_eq_some_iff.mp areSubChannels
  have related := attached key
  rw [areChannels] at related
  cases areConfigs : channelMap.get? key with
  | none =>
      rw [areConfigs] at related
      cases related
  | some configs =>
      have nonempty := Options.channelParser_nonempty parsed areConfigs
      have first := List.getElem?_eq_getElem (List.length_pos_iff.mpr nonempty)
      obtain ⟨subChannel, found, _⟩ := attached.subChannel known areConfigs first
      exact ChannelMap.at?_isSome.mp (Option.isSome_of_eq_some found)

theorem AllAttached.homogeneous_iff (attached : AllAttached device channelMap fChannels)
    {tree : PropertyTree} (parsed : channelParser tree .empty = some channelMap)
    {request : Request} {poller : Poller} (created : request.create fChannels = some poller)
    (factories : ∀ key ∈ request.keys, fChannels.factory? key 0 = some request.transport) :
    Homogeneous (pollMap fChannels) poller ↔
      request.keys.Nodup ∧ ∀ key ∈ request.keys, Uniform device channelMap key := by
  have known := (createPoller_laidOut created).2.known
  rw [Device.homogeneous_iff (fun key member => attached.filled parsed (known key member)) created]
  apply and_congr_right
  intro _
  apply forall₂_congr
  intro key member
  exact attached.uniform_iff (known key member) (factories key member)

theorem AllAttached.factories (attached : AllAttached device channelMap fChannels)
    (key : String) (transport : Transport)
    (isType : fChannels.transportType? key = some transport) :
    fChannels.factory? key 0 = some transport := by
  obtain ⟨channel, found, rfl⟩ := Option.map_eq_some_iff.mp isType
  obtain ⟨_, _, _, _, uses⟩ := attached.config found
  rw [DeviceChannels.factory?, found, Option.bind_some, uses.factory, uses.type]

theorem mapM_same_type {α : Type} {factory : α → Option Transport} {inputs : List α}
    {types : List Transport} {type : Transport} (all : inputs.mapM factory = some types)
    (same : types.any (· ≠ type) = false) : ∀ input ∈ inputs, factory input = some type := by
  intro input member
  obtain ⟨i, isInput⟩ := List.mem_iff_getElem?.mp member
  have bound := (List.getElem?_eq_some_iff.mp isInput).1
  rw [← Options.mapM_length all] at bound
  have place := Options.mapM_getElem? all i
  rw [List.getElem?_eq_getElem bound, isInput, Option.bind_some] at place
  have isType := List.any_eq_false.mp same types[i] (List.getElem_mem bound)
  rw [← place, Option.some.injEq]
  simpa using isType

theorem newPoller_factories {chans : List String} {request : Request}
    (requested : newPoller fChannels chans = some (false, request)) :
    request.keys = chans ∧
      ∀ key ∈ request.keys, fChannels.factory? key 0 = some request.transport := by
  cases chans with
  | nil => cases requested
  | cons chan chans =>
      simp only [newPoller] at requested
      split at requested
      · rename_i type types isType areTypes
        simp only [Option.some.injEq, Prod.mk.injEq] at requested
        obtain ⟨same, rfl⟩ := requested
        exact ⟨rfl, List.forall_mem_cons.mpr ⟨isType, mapM_same_type areTypes same⟩⟩
      · cases requested

theorem newPollerOf_homogeneous (attached : AllAttached device channelMap fChannels)
    {channels : List (String × Nat)} {poller : Poller}
    (requested : newPollerOf fChannels channels = some (false, poller)) :
    Homogeneous (pollMap fChannels) poller := by
  cases channels with
  | nil => cases requested
  | cons channel channels =>
      simp only [newPollerOf] at requested
      split at requested
      · rename_i type types isType areTypes
        obtain ⟨items, all, created⟩ := Option.map_eq_some_iff.mp requested
        simp only [Prod.mk.injEq] at created
        obtain ⟨same, rfl⟩ := created
        have factories : ∀ place ∈ channel :: channels,
            fChannels.factory? place.1 place.2 = some type :=
          List.forall_mem_cons.mpr ⟨isType, mapM_same_type areTypes same⟩
        intro entry member
        obtain ⟨item, isItem, rfl⟩ := List.mem_map.mp member
        obtain ⟨place, isPlace, made⟩ := Options.mem_mapM all isItem
        obtain ⟨subChannel, found, made⟩ := Option.bind_eq_some_iff.mp made
        have known : (pollMap fChannels place.1).isSome := by
          obtain ⟨subChannels, areSubChannels, _⟩ := Option.bind_eq_some_iff.mp found
          exact Option.isSome_of_eq_some areSubChannels
        have isFound := pollMap_at? fChannels known place.2
        rw [found] at isFound
        obtain ⟨other, isOther, isSubChannel⟩ := Option.bind_eq_some_iff.mp isFound.symm
        obtain ⟨_, config, _, _, uses⟩ := attached.config isOther
        have isFactory := factories place isPlace
        rw [DeviceChannels.factory?, isOther, Option.bind_some, uses.factory,
          Option.some.injEq] at isFactory
        have own := (subChannel?_transport uses isSubChannel).trans isFactory
        exact ⟨item, place.1, place.2, subChannel, rfl, makeItem_watched_self made own, found, own⟩
      · cases requested

end Attached

/-- The pollers for the input channels of any device whose channels come from a configuration
and are attached: every input channel is in one of them, with all its sub-channels.  They have
sockets of their own transports only exactly if no channel of theirs is configured for two
transports.  A poller from `NewPoller` must not name a channel twice either, and one for a list
of sub-channels has one transport always. -/
theorem pollers_homogeneous_iff {tree : PropertyTree}
    {channelMap : UnorderedMap String (List FairMQChannel)}
    (parsed : channelParser tree .empty = some channelMap) {device : Transport}
    {fChannels : DeviceChannels} (attached : AllAttached device channelMap fChannels) :
    (∀ fInputChannelKeys requests, fInputChannelKeys.Nodup →
      inputRequests fChannels fInputChannelKeys = some requests →
      (requests.flatMap Request.keys).Perm fInputChannelKeys ∧
      (∀ request ∈ requests, ∀ poller, request.create fChannels = some poller →
        ∀ key ∈ request.keys,
          Stored poller.transport (pollMap fChannels) poller.fOffsetMap poller.fItems key) ∧
      ((∀ request ∈ requests, ∀ poller, request.create fChannels = some poller →
          Homogeneous (pollMap fChannels) poller) ↔
        ∀ request ∈ requests, (request.create fChannels).isSome →
          ∀ key ∈ request.keys, Uniform device channelMap key)) ∧
    (∀ chans request poller, newPoller fChannels chans = some (false, request) →
      request.create fChannels = some poller →
      (Homogeneous (pollMap fChannels) poller ↔
        chans.Nodup ∧ ∀ key ∈ chans, Uniform device channelMap key)) ∧
    ∀ channels poller, newPollerOf fChannels channels = some (false, poller) →
      Homogeneous (pollMap fChannels) poller := by
  refine ⟨?_, ?_, ?_⟩
  · intro keys requests distinct requested
    obtain ⟨same, sorted⟩ := inputRequests_sorted attached.factories requested
    refine ⟨same, ?_, ?_⟩
    · intro request member poller created
      exact (createPoller_laidOut created).2.stored
    · have flat := same.nodup_iff.mpr distinct
      have homogeneous : ∀ request ∈ requests, ∀ poller,
          request.create fChannels = some poller → (Homogeneous (pollMap fChannels) poller ↔
            ∀ key ∈ request.keys, Uniform device channelMap key) := by
        intro request member poller created
        have own := (List.nodup_flatMap.mp flat).1 request member
        have factories : ∀ key ∈ request.keys,
            fChannels.factory? key 0 = some request.transport :=
          fun key isKey => attached.factories key _ (sorted request member key isKey)
        rw [attached.homogeneous_iff parsed created factories]
        exact and_iff_right own
      constructor
      · intro law request member isSome
        obtain ⟨poller, created⟩ := Option.isSome_iff_exists.mp isSome
        exact (homogeneous request member poller created).mp (law request member poller created)
      · intro uniform request member poller created
        exact (homogeneous request member poller created).mpr
          (uniform request member (Option.isSome_of_eq_some created))
  · intro chans request poller requested created
    obtain ⟨rfl, factories⟩ := newPoller_factories requested
    exact attached.homogeneous_iff parsed created factories
  · intro channels poller requested
    exact newPollerOf_homogeneous attached requested

def socketsTree (transports : List String) : PropertyTree :=
  .node "" [("channels", .node "" [("", .node "" [("name", .node "c" []),
    ("type", .node "pull" []), ("method", .node "connect" []), ("address", .node "tcp://a:1" []),
    ("sockets", .node "" (transports.map fun transport =>
      ("", .node "" [("transport", .node transport [])])))])])]

def startC (transport : Transport) : Channel Socket where
  fType := "pull"
  fMethod := "connect"
  fAddress := "tcp://a:1"
  fTransportType := transport

def attachedC (transport : Transport) : Channel Socket where
  fType := "pull"
  fMethod := "connect"
  fAddress := "tcp://10.0.0.1:1"
  fTransportType := transport
  fModified := false
  fSocket := some ⟨transport, [⟨false, "tcp://10.0.0.1:1".toList⟩]⟩
  fTransportFactory := some transport

theorem attachedC_from {config : FairMQChannel} {transport : Transport}
    (configured : config.fTransportType = transport)
    (isTransport : transport = .zmq ∨ transport = .nn) :
    AttachedFrom .zmq config (attachedC transport) := by
  obtain ⟨entry, ran, index, isChannel⟩ : ∃ entry : Entry,
      connectLoop lateHost 600 [startC transport] 0 = some ⟨[], [entry], 1, 0⟩ ∧
        entry.index = 0 ∧ entry.channel = attachedC transport := by
    rcases isTransport with rfl | rfl
    · exact ⟨_, rfl, rfl, by decide⟩
    · exact ⟨_, rfl, rfl, by decide⟩
  rw [← isChannel]
  exact .intro rfl ran List.mem_cons_self (by rw [index]; rfl) rfl configured.symm

def deviceC (transports : List Transport) : DeviceChannels :=
  fun name => if name = "c" then some (transports.map attachedC) else none

theorem deviceC_attached {channelMap : UnorderedMap String (List FairMQChannel)}
    {configs : List FairMQChannel} (isConfigs : channelMap.entries = [("c", configs)])
    {transports : List Transport} (configured : configs.map (·.fTransportType) = transports)
    (each : ∀ transport ∈ transports, transport = .zmq ∨ transport = .nn) :
    AllAttached .zmq channelMap (deviceC transports) := by
  intro name
  by_cases isC : name = "c"
  · have found : channelMap.get? name = some configs := by
      rw [isC, UnorderedMap.get?_eq_some_iff, isConfigs]
      exact List.mem_cons_self
    subst configured
    rw [found, deviceC, if_pos isC, List.map_map]
    apply Option.Rel.some
    rw [List.forall₂_map_right_iff, List.forall₂_same]
    intro config member
    exact attachedC_from rfl (each _ (List.mem_map_of_mem member))
  · have absent : channelMap.get? name = none := by
      rw [← Option.not_isSome_iff_eq_none, ← UnorderedMap.mem_keys_iff, UnorderedMap.keys, isConfigs]
      simpa using isC
    rw [absent, deviceC, if_neg isC]
    exact .none

theorem one_transport_homogeneous :
    ∃ poller, Request.create (deviceC [.zmq, .zmq]) ⟨.zmq, ["c"]⟩ = some poller ∧
      Homogeneous (pollMap (deviceC [.zmq, .zmq])) poller := by
  obtain ⟨channelMap, parsed, configs, isConfigs, configured⟩ : ∃ channelMap,
      channelParser (socketsTree ["zeromq", "zeromq"]) .empty = some channelMap ∧
        ∃ configs, channelMap.entries = [("c", configs)] ∧
          configs.map (·.fTransportType) = [.zmq, .zmq] := ⟨_, rfl, _, rfl, rfl⟩
  obtain ⟨poller, created⟩ : ∃ poller,
    Request.create (deviceC [.zmq, .zmq]) ⟨.zmq, ["c"]⟩ = some poller := ⟨_, rfl⟩
  have attached := deviceC_attached isConfigs configured (by decide)
  refine ⟨poller, created, ?_⟩
  have law := (pollers_homogeneous_iff parsed attached).2.1 ["c"] _ poller rfl created
  refine law.mpr ⟨by decide, ?_⟩
  intro key member others found
  cases List.mem_singleton.mp member
  rw [UnorderedMap.get?_eq_some_iff, isConfigs] at found
  cases List.mem_singleton.mp found
  have each : ∀ config ∈ configs, config.fTransportType = .zmq := by
    intro config isConfig
    have isTransport := List.mem_map_of_mem (f := (·.fTransportType)) isConfig
    rw [configured] at isTransport
    simpa using isTransport
  intro config isConfig other isOther
  simp only [configuredTransport, channelTransport, each config isConfig, each other isOther]

/-- The second sub-channel is of nanomsg, but its channel goes to a poller of zeromq, which has
no socket for it. -/
theorem mixed_channel_polled :
    ∃ channelMap poller,
      channelParser (socketsTree ["zeromq", "nanomsg"]) .empty = some channelMap ∧
      AllAttached .zmq channelMap (deviceC [.zmq, .nn]) ∧
      inputRequests (deviceC [.zmq, .nn]) ["c"] = some [⟨.zmq, ["c"]⟩] ∧
      newPoller (deviceC [.zmq, .nn]) ["c"] = some (false, ⟨.zmq, ["c"]⟩) ∧
      Request.create (deviceC [.zmq, .nn]) ⟨.zmq, ["c"]⟩ = some poller ∧
      ¬ Homogeneous (pollMap (deviceC [.zmq, .nn])) poller := by
  refine ⟨_, _, rfl, deviceC_attached rfl rfl (by decide), by decide, by decide, rfl, ?_⟩
  intro homogeneous
  obtain ⟨item, _, _, _, isItem, watched, _⟩ :=
    homogeneous (some ⟨none, .both, some ⟨false, false⟩⟩) (by decide)
  cases isItem
  cases watched

end FairMQ.Device
