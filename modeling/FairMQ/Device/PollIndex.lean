import FairMQ.Device.Poller
import Mathlib.Data.Set.Function
import Mathlib.Order.Interval.Set.Defs

namespace FairMQ.Device

open FairMQ.Data
open FairMQ.Options (Transport)

def ChannelMap.listed (channelsMap : ChannelMap) (channelList : List String) : Set (String × Nat) :=
  {place | place.1 ∈ channelList ∧ place.2 < channelsMap.size place.1}

namespace Poller

def fNumItems (poller : Poller) : Nat :=
  poller.fItems.length

/-- `fOffsetMap[channel] + i`; the operator yields zero for an unknown channel. -/
def index (poller : Poller) (place : String × Nat) : Nat :=
  (poller.fOffsetMap place.1).getD 0 + place.2

def polls (poller : Poller) (outcomes : List PollOutcome) : Option Poller :=
  outcomes.foldlM poll poller

structure Reads (poller : Poller) (place : String × Nat) (item : Item) : Prop where
  stored : poller.fItems[poller.index place]? = some (some item)
  input : poller.checkInput place.1 place.2 = item.revents.map (inputTest poller.transport)
  output : poller.checkOutput place.1 place.2 = item.revents.map Events.output

end Poller

/-- The sub-channels have numbers of their own, and whatever has been polled, the checks of a
sub-channel read the item that was made for it. -/
structure IndexMapped (channelsMap : ChannelMap) (channelList : List String) (poller : Poller) :
    Prop where
  bijective : Set.BijOn poller.index (channelsMap.listed channelList) (Set.Iio poller.fNumItems)
  items : ∀ outcomes polled, poller.polls outcomes = some polled →
    ∀ key ∈ channelList, ∀ i subChannel, channelsMap.at? key i = some subChannel →
      ∃ made item, makeItem poller.transport key i subChannel = some made ∧
        polled.Reads (key, i) item ∧ item.watched = made.watched ∧ item.events = made.events

def HoldsSockets (channelsMap : ChannelMap) (channelList : List String) (poller : Poller) : Prop :=
  ∀ place ∈ channelsMap.listed channelList, ∃ item,
    poller.fItems[poller.index place]? = some (some item) ∧ item.watched = some place

section Numbers

variable {channelsMap : ChannelMap} {channelList : List String} {poller : Poller}
  {place : String × Nat}

theorem LaidOut.index_inRange (laidOut : LaidOut channelsMap channelList poller)
    (isListed : place ∈ channelsMap.listed channelList) :
    InRange channelsMap.size channelList 0 place.1 (poller.index place) := by
  obtain ⟨start, isStart⟩ := Option.isSome_iff_exists.mp (rangeStart_isSome.mpr isListed.1)
  refine ⟨start, isStart, ?_⟩
  have bound := isListed.2
  rw [Poller.index, laidOut.offsets, isStart, Option.getD_some]
  omega

theorem LaidOut.index_bijOn (laidOut : LaidOut channelsMap channelList poller)
    (distinct : channelList.Nodup) :
    Set.BijOn poller.index (channelsMap.listed channelList) (Set.Iio poller.fNumItems) := by
  refine ⟨?_, ?_, ?_⟩
  · intro place isListed
    have bounds := (laidOut.index_inRange isListed).bounds
    rw [Nat.zero_add] at bounds
    rw [Set.mem_Iio, Poller.fNumItems, laidOut.length]
    exact bounds.2
  · intro place isListed other isOther same
    have inside := laidOut.index_inRange isListed
    rw [same] at inside
    have channel := inside.unique (laidOut.index_inRange isOther)
    simp only [Poller.index, channel, Nat.add_left_cancel_iff] at same
    exact Prod.ext channel same
  · intro number bound
    rw [Set.mem_Iio, Poller.fNumItems, laidOut.length] at bound
    obtain ⟨key, inside⟩ := InRange.covers distinct (Nat.zero_le number) (by rwa [Nat.zero_add])
    have member := inside.mem
    obtain ⟨start, isStart, lower, upper⟩ := inside
    refine ⟨(key, number - start), ⟨member, by dsimp only; omega⟩, ?_⟩
    rw [Poller.index, laidOut.offsets, isStart, Option.getD_some]
    omega

end Numbers

section Items

variable {transport : Transport} {channelsMap : ChannelMap} {channelList : List String}
  {poller polled : Poller}

structure Poller.SameItems (poller polled : Poller) : Prop where
  transport : polled.transport = poller.transport
  offsets : polled.fOffsetMap = poller.fOffsetMap
  items : ∀ (number : Nat) (item : Item), poller.fItems[number]? = some (some item) →
    ∃ after : Item, polled.fItems[number]? = some (some after) ∧
      after.watched = item.watched ∧ after.events = item.events

theorem Poller.SameItems.refl (poller : Poller) : poller.SameItems poller :=
  ⟨rfl, rfl, fun _ item stored => ⟨item, stored, rfl, rfl⟩⟩

theorem Poller.SameItems.trans {middle : Poller} (first : poller.SameItems middle)
    (second : middle.SameItems polled) : poller.SameItems polled where
  transport := second.transport.trans first.transport
  offsets := second.offsets.trans first.offsets
  items number item stored := by
    obtain ⟨between, isBetween, watched, events⟩ := first.items number item stored
    obtain ⟨after, isAfter, watchedLater, eventsLater⟩ := second.items number between isBetween
    exact ⟨after, isAfter, watchedLater.trans watched, eventsLater.trans events⟩

theorem Poller.poll_sameItems {outcome : PollOutcome} (done : poller.poll outcome = some polled) :
    poller.SameItems polled := by
  cases outcome with
  | reported ready =>
      cases done
      exact ⟨rfl, rfl, fun _ item stored => ⟨item.report ready, by simp [stored], rfl, rfl⟩⟩
  | term =>
      cases done
      exact .refl poller
  | failed => cases done

theorem Poller.polls_sameItems {outcomes : List PollOutcome}
    (done : poller.polls outcomes = some polled) : poller.SameItems polled := by
  induction outcomes generalizing poller with
  | nil =>
      cases done
      exact .refl _
  | cons outcome outcomes ih =>
      obtain ⟨next, isNext, rest⟩ := Option.bind_eq_some_iff.mp done
      exact (poll_sameItems isNext).trans (ih rest)

theorem Poller.reads_of_stored {place : String × Nat} {offset : Nat} {item : Item}
    (isOffset : poller.fOffsetMap place.1 = some offset)
    (stored : poller.fItems[offset + place.2]? = some (some item)) : poller.Reads place item where
  stored := by rw [index, isOffset, Option.getD_some, stored]
  input := by simp [checkInput, isOffset, stored]
  output := by simp [checkOutput, isOffset, stored]

theorem createPoller_indexMapped (distinct : channelList.Nodup)
    (created : createPoller transport channelsMap channelList = some poller) :
    IndexMapped channelsMap channelList poller := by
  obtain ⟨_, laidOut⟩ := createPoller_laidOut created
  refine ⟨laidOut.index_bijOn distinct, ?_⟩
  intro outcomes polled done key member i subChannel found
  obtain ⟨offset, made, isOffset, isMade, stored⟩ := laidOut.stored key member i subChannel found
  have same := Poller.polls_sameItems done
  obtain ⟨item, isItem, watched, events⟩ := same.items _ made stored
  have reads : polled.Reads (key, i) item :=
    Poller.reads_of_stored (same.offsets ▸ isOffset) isItem
  exact ⟨made, item, isMade, reads, watched, events⟩

end Items

section Creation

variable {transport : Transport} {channelsMap : ChannelMap} {channelList : List String}

theorem pollOffsets_isSome (known : ∀ key ∈ channelList, (channelsMap key).isSome) (base : Nat)
    (before : String → Option Nat) :
    (pollOffsets channelsMap channelList base before).isSome := by
  induction channelList generalizing base before with
  | nil => rfl
  | cons channel channelList ih =>
      obtain ⟨first, others⟩ := List.forall_mem_cons.mp known
      obtain ⟨subChannels, found⟩ := Option.isSome_iff_exists.mp first
      simp only [pollOffsets, found]
      exact ih others _ _

theorem writeItems_isSome {channel : String} {subChannels : List SubChannel}
    (made : ∀ subChannel ∈ subChannels, ∀ i, (makeItem transport channel i subChannel).isSome)
    (offset i : Nat) (items : List (Option Item)) :
    (writeItems transport channel offset i subChannels items).isSome := by
  induction subChannels generalizing i items with
  | nil => rfl
  | cons subChannel subChannels ih =>
      obtain ⟨first, others⟩ := List.forall_mem_cons.mp made
      obtain ⟨item, isItem⟩ := Option.isSome_iff_exists.mp (first i)
      simp only [writeItems, isItem]
      exact ih others _ _

theorem fillItems_isSome {offsetMap : String → Option Nat}
    (offsets : ∀ key ∈ channelList, (offsetMap key).isSome)
    (known : ∀ key ∈ channelList, ∃ subChannels, channelsMap key = some subChannels ∧
      ∀ subChannel ∈ subChannels, ∀ i, (makeItem transport key i subChannel).isSome)
    (items : List (Option Item)) :
    (fillItems transport channelsMap offsetMap channelList items).isSome := by
  induction channelList generalizing items with
  | nil => rfl
  | cons channel channelList ih =>
      obtain ⟨⟨subChannels, found, made⟩, others⟩ := List.forall_mem_cons.mp known
      obtain ⟨isOffset, otherOffsets⟩ := List.forall_mem_cons.mp offsets
      obtain ⟨offset, isOffset⟩ := Option.isSome_iff_exists.mp isOffset
      obtain ⟨written, isWritten⟩ := Option.isSome_iff_exists.mp
        (writeItems_isSome made offset 0 items)
      simp only [fillItems, found, isOffset, isWritten, Option.bind_some]
      exact ih otherOffsets others written

theorem createPoller_isSome
    (known : ∀ key ∈ channelList, ∃ subChannels, channelsMap key = some subChannels ∧
      ∀ subChannel ∈ subChannels, ∀ i, (makeItem transport key i subChannel).isSome) :
    (createPoller transport channelsMap channelList).isSome := by
  have present : ∀ key ∈ channelList, (channelsMap key).isSome := by
    intro key member
    obtain ⟨subChannels, found, _⟩ := known key member
    exact Option.isSome_of_eq_some found
  obtain ⟨⟨offsetMap, numItems⟩, done⟩ :=
    Option.isSome_iff_exists.mp (pollOffsets_isSome present 0 fun _ => none)
  have offsets : ∀ key ∈ channelList, (offsetMap key).isSome := by
    intro key member
    rw [(pollOffsets_eq done).2.2 key, Option.isSome_or, rangeStart_isSome.mpr member]
    rfl
  simp only [createPoller, done, Option.isSome_map]
  exact fillItems_isSome offsets known _

def Knows (transport : Transport) (subChannel : SubChannel) : Prop :=
  subChannel.transport = .nn ↔ transport = .nn

theorem makeItem_knows {transport : Transport} {subChannel : SubChannel}
    (supported : transport ≠ .ofi) (knows : Knows transport subChannel) (key : String) (i : Nat) :
    ∃ item, makeItem transport key i subChannel = some item ∧ item.watched = some (key, i) := by
  cases transport with
  | ofi => contradiction
  | nn =>
      have own : subChannel.transport = .nn := knows.mpr rfl
      have events : (nnItemEvents (nnProtocol subChannel.type)).isSome := by
        cases subChannel.type <;> rfl
      obtain ⟨events, isEvents⟩ := Option.isSome_iff_exists.mp events
      exact ⟨⟨some (key, i), events, none⟩, by simp [makeItem, own, isEvents], rfl⟩
  | default | zmq | shm =>
      have other : subChannel.transport ≠ .nn := fun foreign => by cases knows.mp foreign
      exact ⟨_, rfl, if_neg other⟩

theorem knows_of_watched {subChannel : SubChannel} {key : String} {i : Nat} {item : Item}
    (made : makeItem transport key i subChannel = some item)
    (watched : item.watched = some (key, i)) : Knows transport subChannel := by
  cases transport with
  | nn =>
      simp only [makeItem] at made
      split at made
      · exact ⟨fun _ => rfl, fun _ => by assumption⟩
      · cases made
  | ofi | default | zmq | shm =>
      rcases makeItem_cases made with ⟨same, _⟩ | ⟨_, isWatched, _⟩
      · cases same
      · rw [watched, zmqWatched] at isWatched
        split at isWatched
        · cases isWatched
        · exact ⟨fun foreign => by contradiction, fun same => by cases same⟩

end Creation

/-- For distinct existing channels the numbers of the sub-channels and the items that the checks
read are right in every poller that gets created.  The poller gets created and all its items are
for the sockets exactly if its library knows the sockets. -/
theorem poller_items_iff {transport : Transport}
    (supported : transport = .zmq ∨ transport = .shm ∨ transport = .nn)
    {channelsMap : ChannelMap} {channelList : List String} (distinct : channelList.Nodup)
    (existing : ∀ key ∈ channelList, (channelsMap key).isSome) :
    (∀ poller, createPoller transport channelsMap channelList = some poller →
      IndexMapped channelsMap channelList poller) ∧
    ((∃ poller, createPoller transport channelsMap channelList = some poller ∧
        HoldsSockets channelsMap channelList poller) ↔
      ∀ key ∈ channelList, ∀ i subChannel, channelsMap.at? key i = some subChannel →
        Knows transport subChannel) := by
  have notOfi : transport ≠ .ofi := by
    rcases supported with rfl | rfl | rfl <;> decide
  refine ⟨fun poller created => createPoller_indexMapped distinct created, ?_, ?_⟩
  · intro holds key member i subChannel found
    obtain ⟨poller, created, holds⟩ := holds
    obtain ⟨rfl, _⟩ := createPoller_laidOut created
    obtain ⟨made, item, isMade, reads, watched, _⟩ :=
      (createPoller_indexMapped distinct created).items [] poller rfl key member i subChannel found
    have bound := ChannelMap.at?_isSome.mp (Option.isSome_of_eq_some found)
    obtain ⟨held, isHeld, isWatched⟩ := holds (key, i) ⟨member, bound⟩
    cases reads.stored.symm.trans isHeld
    exact knows_of_watched isMade (watched.symm.trans isWatched)
  · intro knows
    have makes : ∀ key ∈ channelList, ∃ subChannels, channelsMap key = some subChannels ∧
        ∀ subChannel ∈ subChannels, ∀ i, (makeItem transport key i subChannel).isSome := by
      intro key member
      obtain ⟨subChannels, found⟩ := Option.isSome_iff_exists.mp (existing key member)
      refine ⟨subChannels, found, ?_⟩
      intro subChannel isSubChannel i
      obtain ⟨j, isPlace⟩ := List.mem_iff_getElem?.mp isSubChannel
      have isAt : channelsMap.at? key j = some subChannel := by
        rw [ChannelMap.at?, found, Option.bind_some, isPlace]
      obtain ⟨item, made, _⟩ := makeItem_knows notOfi (knows key member j subChannel isAt) key i
      exact Option.isSome_of_eq_some made
    obtain ⟨poller, created⟩ := Option.isSome_iff_exists.mp (createPoller_isSome makes)
    refine ⟨poller, created, ?_⟩
    rintro ⟨key, i⟩ ⟨member, bound⟩
    obtain ⟨subChannel, found⟩ := Option.isSome_iff_exists.mp (ChannelMap.at?_isSome.mpr bound)
    obtain ⟨made, item, isMade, reads, watched, _⟩ :=
      (createPoller_indexMapped distinct created).items [] poller rfl key member i subChannel found
    obtain ⟨rfl, _⟩ := createPoller_laidOut created
    obtain ⟨own, isOwn, isWatched⟩ :=
      makeItem_knows notOfi (knows key member i subChannel found) key i
    cases isMade.symm.trans isOwn
    exact ⟨item, reads.stored, watched.trans isWatched⟩

def twoChannels : ChannelMap
  | "data" => some [⟨.zmq, .pull⟩, ⟨.zmq, .pair⟩]
  | "ack" => some [⟨.shm, .push⟩]
  | _ => none

theorem own_sockets_numbered :
    ∃ poller, createPoller .zmq twoChannels ["data", "ack"] = some poller ∧
      IndexMapped twoChannels ["data", "ack"] poller ∧
        HoldsSockets twoChannels ["data", "ack"] poller := by
  have existing : ∀ key ∈ ["data", "ack"], (twoChannels key).isSome := by decide
  have knows : ∀ key ∈ ["data", "ack"], ∀ i subChannel,
      twoChannels.at? key i = some subChannel → Knows .zmq subChannel := by
    intro key member i subChannel found
    obtain ⟨subChannels, isKey, place⟩ := Option.bind_eq_some_iff.mp found
    have each : ∀ key ∈ ["data", "ack"], ∀ subChannels ∈ twoChannels key,
        ∀ subChannel ∈ subChannels, subChannel.transport ≠ .nn := by decide
    have other := each key member subChannels isKey subChannel (List.mem_of_getElem? place)
    exact ⟨fun foreign => absurd foreign other, fun same => by cases same⟩
  obtain ⟨mapped, holds⟩ := poller_items_iff (.inl rfl) (by decide) existing
  obtain ⟨poller, created, sockets⟩ := holds.mpr knows
  exact ⟨poller, created, mapped poller created, sockets⟩

/-- The item for a socket of nanomsg has none: it stands for the file descriptor zero. -/
theorem nanomsg_socket_not_held :
    ∃ poller, createPoller .zmq (fun _ => some [⟨.zmq, .pull⟩, ⟨.nn, .pull⟩]) ["data"] =
        some poller ∧
      poller.fItems[poller.index ("data", 1)]? =
        some (some ⟨none, .both, some ⟨false, false⟩⟩) ∧
      ¬ HoldsSockets (fun _ => some [⟨.zmq, .pull⟩, ⟨.nn, .pull⟩]) ["data"] poller := by
  refine ⟨_, rfl, rfl, ?_⟩
  intro holds
  obtain ⟨item, isItem, watched⟩ := holds ("data", 1) ⟨by decide, by decide⟩
  cases isItem
  cases watched

end FairMQ.Device
