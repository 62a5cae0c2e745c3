import FairMQ.Data.Ranges
import FairMQ.Options.ProgOptions
import Mathlib.Algebra.Ring.Nat
import Mathlib.Logic.Function.Basic

namespace FairMQ.Device

open FairMQ.Data
open FairMQ.Options (Transport)

inductive SocketType where
  | sub | pub | pull | push | req | rep | xsub | xpub | dealer | router | pair
deriving DecidableEq, Repr

structure Events where
  input : Bool
  output : Bool
deriving DecidableEq, Repr

namespace Events

def both : Events := ⟨true, true⟩

def restrict (events ready : Events) : Events :=
  ⟨events.input && ready.input, events.output && ready.output⟩

end Events

structure SubChannel where
  transport : Transport
  type : SocketType
deriving DecidableEq

def zmqItemEvents : SocketType → Events
  | .req | .rep | .pair | .dealer | .router => .both
  | .push | .pub | .xpub => ⟨false, true⟩
  | .pull | .sub | .xsub => ⟨true, false⟩

/-- Nanomsg has protocols for some types only; the others stand for one of these. -/
def nnProtocol : SocketType → SocketType
  | .xsub => .sub
  | .xpub => .pub
  | .dealer => .req
  | .router => .rep
  | type => type

/-- `SetItemEvents` for nanomsg; other protocols end the process. -/
def nnItemEvents : SocketType → Option Events
  | .req | .rep | .pair => some .both
  | .push | .pub => some ⟨false, true⟩
  | .pull | .sub => some ⟨true, false⟩
  | .xsub | .xpub | .dealer | .router => none

/-- `SetItemEvents` for ofi throws for other types. -/
def ofiItemEvents : SocketType → Option Events
  | .pair => some .both
  | _ => none

/-- The type that zeromq reports for `GetSocket()`.  The socket of ofi is a pair; nanomsg
returns a null pointer, which leaves the type at zero, and that is the pair as well. -/
def zmqType (subChannel : SubChannel) : SocketType :=
  match subChannel.transport with
  | .nn | .ofi => .pair
  | _ => subChannel.type

/-- An item of the array: the sub-channel whose socket the library looks at, or none for the
file descriptor zero, and the events; a poller of nanomsg does not set the result. -/
structure Item where
  watched : Option (String × Nat)
  events : Events
  revents : Option Events
deriving DecidableEq, Repr

def zmqWatched (channel : String) (i : Nat) (subChannel : SubChannel) : Option (String × Nat) :=
  if subChannel.transport = .nn then none else some (channel, i)

def zmqItem (channel : String) (i : Nat) (subChannel : SubChannel) (events : Events) : Item where
  watched := zmqWatched channel i subChannel
  events := events
  revents := some ⟨false, false⟩

/-- One item of the array; `GetSocket(int)` is `-1` for all sockets but those of nanomsg, which
leaves the protocol at zero. -/
def makeItem (transport : Transport) (channel : String) (i : Nat) (subChannel : SubChannel) :
    Option Item :=
  match transport with
  | .nn =>
      if subChannel.transport = .nn then
        (nnItemEvents (nnProtocol subChannel.type)).map fun events =>
          ⟨some (channel, i), events, none⟩
      else none
  | .ofi => (ofiItemEvents (zmqType subChannel)).map (zmqItem channel i subChannel)
  | .default | .zmq | .shm => some (zmqItem channel i subChannel (zmqItemEvents (zmqType subChannel)))

section Items

variable {transport : Transport} {channel : String} {i : Nat} {subChannel : SubChannel}
  {item : Item}

theorem makeItem_cases (made : makeItem transport channel i subChannel = some item) :
    transport = .nn ∧ item.watched = some (channel, i) ∧
        nnItemEvents (nnProtocol subChannel.type) = some item.events ∨
      transport ≠ .nn ∧ item.watched = zmqWatched channel i subChannel ∧
        (subChannel.transport = .nn → item.events = .both) := by
  cases transport with
  | nn =>
      simp only [makeItem] at made
      split at made
      · obtain ⟨events, isEvents, rfl⟩ := Option.map_eq_some_iff.mp made
        exact .inl ⟨rfl, rfl, isEvents⟩
      · cases made
  | ofi =>
      obtain ⟨events, isEvents, rfl⟩ := Option.map_eq_some_iff.mp made
      refine .inr ⟨by decide, rfl, ?_⟩
      intro foreign
      simp only [zmqType, foreign, ofiItemEvents, Option.some.injEq] at isEvents
      exact isEvents.symm
  | default | zmq | shm =>
      cases made
      refine .inr ⟨by decide, rfl, ?_⟩
      intro foreign
      simp only [zmqItem, zmqType, foreign, zmqItemEvents]

theorem makeItem_watched (made : makeItem transport channel i subChannel = some item) :
    item.watched = some (channel, i) ∨
      item.watched = none ∧ transport ≠ .nn ∧ subChannel.transport = .nn := by
  rcases makeItem_cases made with ⟨_, watched, _⟩ | ⟨other, watched, _⟩
  · exact .inl watched
  · rw [watched, zmqWatched]
    split
    · exact .inr ⟨rfl, other, by assumption⟩
    · exact .inl rfl

theorem makeItem_watched_self (made : makeItem transport channel i subChannel = some item)
    (own : subChannel.transport = transport) : item.watched = some (channel, i) := by
  rcases makeItem_watched made with watched | ⟨_, other, foreign⟩
  · exact watched
  · exact absurd (own.symm.trans foreign) other

end Items

abbrev ChannelMap := String → Option (List SubChannel)

/-- The array may have items that are not written; they are uninitialized. -/
structure Poller where
  transport : Transport
  fItems : List (Option Item)
  fOffsetMap : String → Option Nat

/-- The first loop of the constructor: the offsets and the number of items. -/
def pollOffsets (channelsMap : ChannelMap) : List String → Nat → (String → Option Nat) →
    Option ((String → Option Nat) × Nat)
  | [], offset, offsetMap => some (offsetMap, offset)
  | channel :: channelList, offset, offsetMap =>
      match channelsMap channel with
      | none => none
      | some subChannels =>
          pollOffsets channelsMap channelList (offset + subChannels.length)
            (Function.update offsetMap channel (some offset))

def writeItems (transport : Transport) (channel : String) (offset : Nat) :
    Nat → List SubChannel → List (Option Item) → Option (List (Option Item))
  | _, [], items => some items
  | i, subChannel :: subChannels, items =>
      match makeItem transport channel i subChannel with
      | none => none
      | some item =>
          writeItems transport channel offset (i + 1) subChannels (items.set (offset + i) (some item))

def fillItems (transport : Transport) (channelsMap : ChannelMap) (offsetMap : String → Option Nat) :
    List String → List (Option Item) → Option (List (Option Item))
  | [], items => some items
  | channel :: channelList, items =>
      match channelsMap channel, offsetMap channel with
      | some subChannels, some offset =>
          (writeItems transport channel offset 0 subChannels items).bind
            (fillItems transport channelsMap offsetMap channelList)
      | _, _ => none

/-- `CreatePoller` for a map of channels and a list of names; there is no poller if it throws
or ends the process. -/
def createPoller (transport : Transport) (channelsMap : ChannelMap) (channelList : List String) :
    Option Poller :=
  match pollOffsets channelsMap channelList 0 fun _ => none with
  | none => none
  | some (offsetMap, numItems) =>
      (fillItems transport channelsMap offsetMap channelList (List.replicate numItems none)).map
        fun items => ⟨transport, items, offsetMap⟩

/-- How `Poll` ends: with what the library reports of the things it looks at, with `ETERM`, which
is logged and leaves the items as they are, or with an exception. -/
inductive PollOutcome where
  | reported (ready : Option (String × Nat) → Events)
  | term
  | failed

def Item.report (ready : Option (String × Nat) → Events) (item : Item) : Item :=
  { item with revents := some (item.events.restrict (ready item.watched)) }

def Poller.poll (poller : Poller) : PollOutcome → Option Poller
  | .reported ready => some { poller with fItems := poller.fItems.map (Option.map (Item.report ready)) }
  | .term => some poller
  | .failed => none

/-- The test of `CheckInput`; that of nanomsg is for either event. -/
def inputTest : Transport → Events → Bool
  | .nn, revents => revents.input || revents.output
  | _, revents => revents.input

/-- `CheckInput(channelKey, index)`; there is no answer for an unknown key, for an index behind
the array and for an item without a result. -/
def Poller.checkInput (poller : Poller) (channelKey : String) (index : Nat) : Option Bool :=
  (poller.fOffsetMap channelKey).bind fun offset =>
    (poller.fItems[offset + index]?).join.bind fun item =>
      item.revents.map (inputTest poller.transport)

def Poller.checkOutput (poller : Poller) (channelKey : String) (index : Nat) : Option Bool :=
  (poller.fOffsetMap channelKey).bind fun offset =>
    (poller.fItems[offset + index]?).join.bind fun item => item.revents.map Events.output

namespace ChannelMap

def size (channelsMap : ChannelMap) (channel : String) : Nat :=
  ((channelsMap channel).getD []).length

def at? (channelsMap : ChannelMap) (channel : String) (i : Nat) : Option SubChannel :=
  (channelsMap channel).bind (·[i]?)

variable {channelsMap : ChannelMap} {channel : String} {i : Nat}

theorem size_eq {subChannels : List SubChannel} (found : channelsMap channel = some subChannels) :
    channelsMap.size channel = subChannels.length := by
  simp [size, found]

theorem at?_isSome : (channelsMap.at? channel i).isSome ↔ i < channelsMap.size channel := by
  cases found : channelsMap channel <;> simp [at?, size, found]

end ChannelMap

section Construction

variable {transport : Transport} {channelsMap : ChannelMap} {channel : String}
  {channelList : List String} {offset i : Nat} {items after : List (Option Item)}

theorem pollOffsets_eq {base numItems : Nat} {before offsetMap : String → Option Nat}
    (done : pollOffsets channelsMap channelList base before = some (offsetMap, numItems)) :
    numItems = base + rangeTotal channelsMap.size channelList ∧
      (∀ key ∈ channelList, (channelsMap key).isSome) ∧
      ∀ key, offsetMap key =
        (rangeStart channelsMap.size channelList base key).or (before key) := by
  induction channelList generalizing base before with
  | nil =>
      cases done
      exact ⟨rfl, by simp, by simp [rangeStart]⟩
  | cons channel channelList ih =>
      simp only [pollOffsets] at done
      split at done
      · cases done
      · rename_i subChannels found
        obtain ⟨total, known, each⟩ := ih done
        rw [← ChannelMap.size_eq found] at total each
        refine ⟨?_, ?_, ?_⟩
        · rw [total, rangeTotal_cons, Nat.add_assoc]
        · intro key member
          rcases List.mem_cons.mp member with rfl | later
          · rw [found]
            rfl
          · exact known key later
        · intro key
          rw [each key, rangeStart, Option.or_assoc]
          by_cases same : channel = key
          · subst same
            simp
          · simp [same, Ne.symm same]

theorem writeItems_length {subChannels : List SubChannel}
    (written : writeItems transport channel offset i subChannels items = some after) :
    after.length = items.length := by
  induction subChannels generalizing i items with
  | nil =>
      cases written
      rfl
  | cons subChannel subChannels ih =>
      simp only [writeItems] at written
      split at written
      · cases written
      · rw [ih written, List.length_set]

theorem writeItems_frame {subChannels : List SubChannel} {place : Nat}
    (written : writeItems transport channel offset i subChannels items = some after)
    (outside : place < offset + i ∨ offset + i + subChannels.length ≤ place) :
    after[place]? = items[place]? := by
  induction subChannels generalizing i items with
  | nil =>
      cases written
      rfl
  | cons subChannel subChannels ih =>
      simp only [writeItems] at written
      split at written
      · cases written
      · rw [List.length_cons] at outside
        rw [ih written (by omega), List.getElem?_set_ne (by omega)]

theorem writeItems_item {subChannels : List SubChannel} {j : Nat} {subChannel : SubChannel}
    (written : writeItems transport channel offset i subChannels items = some after)
    (isSubChannel : subChannels[j]? = some subChannel)
    (room : offset + i + j < items.length) :
    ∃ item, makeItem transport channel (i + j) subChannel = some item ∧
      after[offset + i + j]? = some (some item) := by
  induction subChannels generalizing i j items with
  | nil => cases isSubChannel
  | cons first subChannels ih =>
      simp only [writeItems] at written
      split at written
      · cases written
      · rename_i item made
        cases j with
        | zero =>
            cases isSubChannel
            refine ⟨item, made, ?_⟩
            rw [writeItems_frame written (.inl (by omega))]
            exact List.getElem?_set_self room
        | succ j =>
            have next := ih written isSubChannel (by rw [List.length_set]; omega)
            rwa [show i + 1 + j = i + (j + 1) by omega,
              show offset + (i + 1) + j = offset + i + (j + 1) by omega] at next

def Stored (transport : Transport) (channelsMap : ChannelMap) (offsetMap : String → Option Nat)
    (items : List (Option Item)) (key : String) : Prop :=
  ∀ i subChannel, channelsMap.at? key i = some subChannel →
    ∃ offset item, offsetMap key = some offset ∧
      makeItem transport key i subChannel = some item ∧ items[offset + i]? = some (some item)

theorem fillItems_length {offsetMap : String → Option Nat}
    (filled : fillItems transport channelsMap offsetMap channelList items = some after) :
    after.length = items.length := by
  induction channelList generalizing items with
  | nil =>
      cases filled
      rfl
  | cons channel channelList ih =>
      simp only [fillItems] at filled
      split at filled
      · obtain ⟨middle, written, rest⟩ := Option.bind_eq_some_iff.mp filled
        rw [ih rest, writeItems_length written]
      · cases filled

section Ranges

variable {all : List String} {offsetMap : String → Option Nat}

theorem fillItems_frame {place : Nat}
    (offsets : ∀ key, offsetMap key = rangeStart channelsMap.size all 0 key)
    (filled : fillItems transport channelsMap offsetMap channelList items = some after)
    (outside : ∀ key ∈ channelList, ¬ InRange channelsMap.size all 0 key place) :
    after[place]? = items[place]? := by
  induction channelList generalizing items with
  | nil =>
      cases filled
      rfl
  | cons channel channelList ih =>
      simp only [fillItems] at filled
      split at filled
      · rename_i subChannels offset found isOffset
        obtain ⟨middle, written, rest⟩ := Option.bind_eq_some_iff.mp filled
        rw [ih rest fun key member => outside key (List.mem_cons_of_mem _ member)]
        apply writeItems_frame written
        by_contra inside
        apply outside channel List.mem_cons_self
        rw [offsets] at isOffset
        refine ⟨offset, isOffset, ?_⟩
        rw [ChannelMap.size_eq found]
        omega
      · cases filled

theorem fillItems_stored
    (offsets : ∀ key, offsetMap key = rangeStart channelsMap.size all 0 key)
    (room : items.length = rangeTotal channelsMap.size all)
    (filled : fillItems transport channelsMap offsetMap channelList items = some after) :
    ∀ key ∈ channelList, Stored transport channelsMap offsetMap after key := by
  induction channelList generalizing items with
  | nil => simp
  | cons channel channelList ih =>
      simp only [fillItems] at filled
      split at filled
      · rename_i subChannels offset found isOffset
        obtain ⟨middle, written, rest⟩ := Option.bind_eq_some_iff.mp filled
        have later := ih ((writeItems_length written).trans room) rest
        intro key member
        -- A channel that is listed again is written again, with the same items.
        by_cases again : key ∈ channelList
        · exact later key again
        · obtain rfl := (List.mem_cons.mp member).resolve_right again
          intro i subChannel isSubChannel
          have bound := ChannelMap.at?_isSome.mp (Option.isSome_of_eq_some isSubChannel)
          have inside : InRange channelsMap.size all 0 key (offset + i) :=
            ⟨offset, (offsets key).symm.trans isOffset, by omega, by omega⟩
          have upper := inside.bounds.2
          rw [ChannelMap.at?, found, Option.bind_some] at isSubChannel
          obtain ⟨item, made, place⟩ :=
            writeItems_item written isSubChannel (by rw [room]; omega)
          rw [Nat.zero_add] at made
          refine ⟨offset, item, isOffset, made, ?_⟩
          rw [← place]
          apply fillItems_frame offsets rest
          intro other known insideOther
          rw [inside.unique insideOther] at again
          exact again known
      · cases filled

end Ranges

structure LaidOut (channelsMap : ChannelMap) (channelList : List String) (poller : Poller) :
    Prop where
  known : ∀ key ∈ channelList, (channelsMap key).isSome
  offsets : ∀ key, poller.fOffsetMap key = rangeStart channelsMap.size channelList 0 key
  length : poller.fItems.length = rangeTotal channelsMap.size channelList
  stored : ∀ key ∈ channelList,
    Stored poller.transport channelsMap poller.fOffsetMap poller.fItems key
  uninitialized : ∀ place < poller.fItems.length,
    (∀ key, ¬ InRange channelsMap.size channelList 0 key place) →
      poller.fItems[place]? = some none

theorem createPoller_laidOut {poller : Poller}
    (created : createPoller transport channelsMap channelList = some poller) :
    poller.transport = transport ∧ LaidOut channelsMap channelList poller := by
  simp only [createPoller] at created
  split at created
  · cases created
  · rename_i offsetMap numItems done
    obtain ⟨total, known, each⟩ := pollOffsets_eq done
    have offsets : ∀ key, offsetMap key = rangeStart channelsMap.size channelList 0 key := by
      simpa using each
    rw [Nat.zero_add] at total
    obtain ⟨items, filled, rfl⟩ := Option.map_eq_some_iff.mp created
    have length := fillItems_length filled
    rw [List.length_replicate] at length
    refine ⟨rfl, known, offsets, length.trans total, ?_, ?_⟩
    · exact fillItems_stored offsets (List.length_replicate.trans total) filled
    · intro place bound outside
      rw [fillItems_frame offsets filled fun key _ => outside key]
      exact List.getElem?_replicate_of_lt (length ▸ bound)

end Construction

section Report

variable {transport : Transport} {channelsMap : ChannelMap} {channelList : List String}
  {poller polled : Poller} {ready : Option (String × Nat) → Events}

theorem poll_reported_twice (earlier : Option (String × Nat) → Events)
    (before : poller.poll (.reported earlier) = some polled) :
    polled.poll (.reported ready) = poller.poll (.reported ready) := by
  cases before
  simp only [Poller.poll, List.map_map, Option.some.injEq, Poller.mk.injEq, true_and, and_true]
  refine List.map_congr_left fun item _ => ?_
  cases item <;> rfl

theorem checkInput_reported
    (created : createPoller transport channelsMap channelList = some poller)
    (reported : poller.poll (.reported ready) = some polled) {key : String}
    (member : key ∈ channelList) {i : Nat} {subChannel : SubChannel}
    (isSubChannel : channelsMap.at? key i = some subChannel) :
    ∃ item, makeItem transport key i subChannel = some item ∧
      polled.checkInput key i =
        some (inputTest transport (item.events.restrict (ready item.watched))) := by
  obtain ⟨rfl, laidOut⟩ := createPoller_laidOut created
  obtain ⟨offset, item, isOffset, made, place⟩ :=
    laidOut.stored key member i subChannel isSubChannel
  cases reported
  refine ⟨item, made, ?_⟩
  simp [Poller.checkInput, isOffset, place, Item.report]

end Report

end FairMQ.Device
