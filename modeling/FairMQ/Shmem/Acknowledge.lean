import FairMQ.Shmem.Transfer

namespace FairMQ.Shmem

open FairMQ.Data

/-- A `FairMQUnmanagedRegionSHM` in the process that has created it; the `RegionCounter`
starts with 1. -/
structure UnmanagedRegion where
  fRegionId : Nat
  base : Int
  size : Nat
  counted : fRegionId ≠ 0

/-- What the callback of a region is called with. -/
structure Extent where
  data : Int
  size : Nat
  hint : Nat
deriving DecidableEq, Repr

namespace UnmanagedRegion

variable (region : UnmanagedRegion)

def Contains (extent : Extent) : Prop :=
  region.base ≤ extent.data ∧ extent.data + extent.size ≤ region.base + region.size

instance (extent : Extent) : Decidable (region.Contains extent) :=
  inferInstanceAs (Decidable (_ ∧ _))

def header (extent : Extent) : MetaHeader where
  fSize := extent.size
  fRegionId := region.fRegionId
  fHandle := extent.data - region.base
  fHint := extent.hint

/-- The constructor with a region; the check that throws is a disjunction. -/
def newMessage (extent : Extent) : Option MessageSHM :=
  if region.base ≤ extent.data ∨ extent.data ≤ region.base + region.size then
    some {
      fMessage := ⟨true, region.header extent⟩
      fQueued := false
      fMetaCreated := true
      fRegionId := region.fRegionId
      fHandle := extent.data - region.base
      fSize := extent.size
      fHint := extent.hint }
  else none

def callback (block : RegionBlock) : Extent where
  data := region.base + block.fHandle
  size := block.fSize
  hint := block.fHint

end UnmanagedRegion

/-- The message objects and wires of all devices, the acknowledgement queue of one
region, the calls of its callback, and, as history, what messages were created on. -/
structure RegionWorld where
  world : World
  queue : List RegionBlock
  callbacks : List Extent
  created : List Extent

inductive RegionOperation where
  | newMessage
  | createMessage (extent : Extent)
  | send (id wire : Nat) (attempt : Attempt)
  | sendVector (ids : List Nat) (wire : Nat) (attempt : Attempt)
  | receive (id wire : Nat) (leftover : MetaHeader)
  | receiveVector (wire : Nat)
  | destroy (id : Nat)
  | receiveAck
deriving DecidableEq, Repr

namespace RegionWorld

variable (region : UnmanagedRegion) (state : RegionWorld)

def add (message : MessageSHM) : RegionWorld :=
  { state with world := { state.world with objects := state.world.objects ++ [some message] } }

def createMessage (extent : Extent) : Option RegionWorld :=
  if region.Contains extent then
    (region.newMessage extent).map fun message =>
      { state.add message with created := state.created ++ [extent] }
  else none

def sendVector (ids : List Nat) (wire : Nat) (attempt : Attempt) : Option World :=
  match state.world.usables ids with
  | some messages =>
      if ids.Nodup then (sendImpl messages attempt).bind (state.world.transmit ids wire) else none
  | none => none

/-- Packed headers are left to the vector `Receive`. -/
def receive (id wire : Nat) (leftover : MetaHeader) : Option World :=
  match state.world.wires[wire]? with
  | some (packet :: _) =>
      if packet.length ≤ 1 then state.world.receive id wire leftover else none
  | _ => none

/-- `GetRemoteRegion` finds the live region; the queue has room. -/
def release (world : World) : MessageSHM.Release → RegionWorld
  | .acknowledge regionId block =>
      if regionId = region.fRegionId then { state with world, queue := state.queue ++ [block] }
      else { state with world }
  | .deallocate handle => { state with world := { world with live := world.live.erase handle } }
  | .nothing => { state with world }

def destroy (id : Nat) : Option RegionWorld :=
  match state.world.objects[id]? with
  | some (some message) =>
      some (state.release region
        { state.world with objects := state.world.objects.set id none } message.closeMessage)
  | _ => none

def receiveAck : Option RegionWorld :=
  match state.queue with
  | block :: queue =>
      some { state with queue, callbacks := state.callbacks ++ [region.callback block] }
  | [] => none

def step : RegionOperation → Option RegionWorld
  | .newMessage => some (state.add .newMessage)
  | .createMessage extent => state.createMessage region extent
  | .send id wire attempt =>
      (state.world.step (.send id wire attempt)).map fun world => { state with world }
  | .sendVector ids wire attempt =>
      (state.sendVector ids wire attempt).map fun world => { state with world }
  | .receive id wire leftover =>
      (state.receive id wire leftover).map fun world => { state with world }
  | .receiveVector wire =>
      (state.world.receiveVector wire).map fun world => { state with world }
  | .destroy id => state.destroy region id
  | .receiveAck => state.receiveAck region

/-- The ranges for which a block was put into the queue, as the callback sees them. -/
def acknowledged : List Extent :=
  state.callbacks ++ state.queue.map region.callback

def start (wires : Nat) : RegionWorld := ⟨.start wires, [], [], []⟩

end RegionWorld

def acknowledgeSystem (region : UnmanagedRegion) :
    TransitionSystem RegionWorld RegionOperation where
  initial state := ∃ wires, state = .start wires
  step state operation := state.step region operation

/-- The bytes that a `Send` of several messages copies from those that refer to nothing
are the ones of the constructor: none of them has received an empty message. -/
def World.Clean (world : World) (ids : List Nat) : Prop :=
  match world.usables ids with
  | some messages => ∀ header ∈ strays messages, header = ZmqMsg.zeroed.bytes
  | none => True

instance (world : World) (ids : List Nat) : Decidable (world.Clean ids) :=
  match found : world.usables ids with
  | some messages =>
      decidable_of_iff (∀ header ∈ strays messages, header = ZmqMsg.zeroed.bytes)
        (by simp only [World.Clean, found])
  | none => isTrue (by simp only [World.Clean, found])

def CleanSends (state : RegionWorld) : RegionOperation → Prop
  | .sendVector ids _ _ => ids.length = 1 ∨ state.world.Clean ids
  | _ => True

instance (state : RegionWorld) (operation : RegionOperation) :
    Decidable (CleanSends state operation) :=
  match operation with
  | .sendVector ids _ _ => inferInstanceAs (Decidable (ids.length = 1 ∨ state.world.Clean ids))
  | .newMessage | .createMessage _ | .send .. | .receive .. | .receiveVector _ | .destroy _
  | .receiveAck => isTrue trivial

structure Settled (region : UnmanagedRegion) (state : RegionWorld) : Prop where
  faithful : Faithful state.world
  total : ∀ extent, state.world.references.count (region.header extent) +
    (state.acknowledged region).count extent = state.created.count extent

section Region

variable {region : UnmanagedRegion} {state after : RegionWorld}

theorem header_eq_iff {extent other : Extent} :
    region.header extent = region.header other ↔ extent = other := by
  constructor
  · intro same
    obtain ⟨data, size, hint⟩ := extent
    obtain ⟨data', size', hint'⟩ := other
    simp only [UnmanagedRegion.header, MetaHeader.mk.injEq] at same
    simp only [Extent.mk.injEq]
    omega
  · exact congrArg region.header

theorem header_callback {message : MessageSHM} (own : message.fRegionId = region.fRegionId) :
    region.header (region.callback ⟨message.fHandle, message.fSize, message.fHint⟩) =
      message.header := by
  simp [UnmanagedRegion.header, UnmanagedRegion.callback, MessageSHM.header, own]

theorem count_header (extent other : Extent) :
    Multiset.count (region.header extent) {region.header other} = [other].count extent := by
  by_cases same : extent = other
  · simp [same]
  · simp [header_eq_iff, same, Ne.symm same]

theorem acknowledged_snoc (world : World) (block : RegionBlock) :
    { state with world, queue := state.queue ++ [block] }.acknowledged region =
      state.acknowledged region ++ [region.callback block] := by
  simp [RegionWorld.acknowledged]

theorem newMessage_inside {extent : Extent} (inside : region.Contains extent) :
    ∃ message, region.newMessage extent = some message ∧ message.Truthful ∧
      message.references = {region.header extent} := by
  have passes : region.base ≤ extent.data ∨ extent.data ≤ region.base + region.size :=
    .inl inside.1
  have offset : 0 ≤ extent.data - region.base := Int.sub_nonneg_of_le inside.1
  exact ⟨_, if_pos passes, ⟨fun _ _ => offset, fun _ _ => rfl⟩,
    MessageSHM.references_of_unqueued rfl offset⟩

section Foreign

variable {message : MessageSHM}
  (foreign : 0 ≤ message.fHandle → message.fQueued = false →
    message.fRegionId ≠ region.fRegionId)
include foreign

theorem foreign_references (extent : Extent) :
    message.references.count (region.header extent) = 0 := by
  rw [Multiset.count_eq_zero]
  intro member
  unfold MessageSHM.references at member
  split at member
  · rename_i holds
    have same := congrArg MetaHeader.fRegionId (Multiset.mem_singleton.mp member)
    exact foreign holds.1 holds.2 same.symm
  · cases member

theorem foreign_release (world : World) :
    ∃ live, state.release region world message.closeMessage =
      { state with world := { world with live } } := by
  unfold MessageSHM.closeMessage
  split
  · rename_i holds
    split
    · exact ⟨_, rfl⟩
    · exact ⟨world.live, if_neg (foreign holds.1 holds.2)⟩
  · exact ⟨world.live, rfl⟩

end Foreign

namespace Settled

theorem transfer (settled : Settled region state) {world : World} {stray : Multiset MetaHeader}
    (moved : world.references = state.world.references + stray) (faithful : Faithful world)
    (foreign : ∀ extent, region.header extent ∉ stray) :
    Settled region { state with world } where
  faithful := faithful
  total extent := by
    have total := settled.total extent
    rw [← Nat.add_zero (Multiset.count _ _), ← Multiset.count_eq_zero.mpr (foreign extent),
      ← Multiset.count_add, ← moved] at total
    exact total

theorem unchanged (settled : Settled region state) {world : World}
    (kept : world.references = state.world.references ∧ Faithful world) :
    Settled region { state with world } := by
  apply settled.transfer (kept.1.trans (add_zero _).symm) kept.2
  simp

theorem newMessage (settled : Settled region state) :
    Settled region (state.add .newMessage) := by
  apply settled.unchanged
  constructor
  · have appended := state.world.references_append [.newMessage] state.world.live
    simpa [MessageSHM.references_of_empty (by decide : MessageSHM.newMessage.fHandle < 0)]
      using appended
  · apply settled.faithful.append state.world.live [.newMessage]
    simpa using MessageSHM.newMessage_truthful

theorem createMessage (settled : Settled region state) {extent : Extent}
    (stepped : state.createMessage region extent = some after) : Settled region after := by
  unfold RegionWorld.createMessage at stepped
  split at stepped
  · rename_i inside
    obtain ⟨message, isNew, truthful, references⟩ := newMessage_inside inside
    rw [isNew] at stepped
    cases stepped
    constructor
    · apply settled.faithful.append state.world.live [message]
      simpa using truthful
    · intro other
      have total := settled.total other
      have appended := state.world.references_append [message] state.world.live
      simp only [List.map_cons, List.map_nil, List.sum_cons, List.sum_nil, add_zero,
        references] at appended
      have counted := congrArg (Multiset.count (region.header other)) appended
      rw [Multiset.count_add, count_header] at counted
      simp only [RegionWorld.add, RegionWorld.acknowledged, List.count_append] at total ⊢
      omega
  · contradiction

theorem send (settled : Settled region state) {id wire : Nat} {attempt : Attempt} {world : World}
    (stepped : state.world.step (.send id wire attempt) = some world) :
    Settled region { state with world } := by
  simp only [World.step] at stepped
  split at stepped
  · rename_i message usable
    obtain ⟨found, unqueued⟩ := World.usable_eq_some.mp usable
    have handsOver := message.sendImpl_handsOver attempt (settled.faithful.stored found) unqueued
    obtain ⟨moved, faithful⟩ := settled.faithful.transmit (List.nodup_singleton id)
      (by simp [found]) handsOver stepped
    exact settled.transfer moved faithful (by simp)
  · contradiction

theorem sendVector (settled : Settled region state) {ids : List Nat} {wire : Nat}
    {attempt : Attempt} {world : World} (clean : ids.length = 1 ∨ state.world.Clean ids)
    (stepped : state.sendVector ids wire attempt = some world) :
    Settled region { state with world } := by
  unfold RegionWorld.sendVector at stepped
  split at stepped
  · rename_i messages usable
    split at stepped
    · rename_i distinct
      have found := (World.usables_eq_some usable).1
      have length : messages.length = ids.length := by
        simpa using (congrArg List.length found).symm
      have zeroed : messages.length = 1 ∨
          ∀ header ∈ strays messages, header = ZmqMsg.zeroed.bytes := by
        simpa only [length, World.Clean, usable] using clean
      have sound : messages.length = 1 ∨ ∀ header ∈ strays messages, 0 ≤ header.fHandle := by
        apply zeroed.imp_right
        intro zeroed header member
        rw [zeroed header member]
        decide
      obtain ⟨sending, done, moved⟩ := Option.bind_eq_some_iff.mp stepped
      obtain ⟨stray, handsOver, among⟩ :=
        sendImpl_handsOver (settled.faithful.usables usable) sound done
      obtain ⟨moved, faithful⟩ := settled.faithful.transmit distinct found handsOver moved
      apply settled.transfer moved faithful
      -- a zeroed header carries region id 0
      intro extent member
      obtain ⟨known, several⟩ := among _ member
      have same := zeroed.resolve_left several _ known
      exact region.counted (congrArg MetaHeader.fRegionId same)
    · contradiction
  · contradiction

theorem receive (settled : Settled region state) {id wire : Nat} {leftover : MetaHeader}
    {world : World} (stepped : state.receive id wire leftover = some world) :
    Settled region { state with world } := by
  unfold RegionWorld.receive at stepped
  split at stepped
  · rename_i packet _ wired
    split at stepped
    · rename_i short
      obtain ⟨packet', queue, wired', total, faithful⟩ := settled.faithful.receive stepped
      rw [wired] at wired'
      cases wired'
      rw [if_pos short, add_zero] at total
      exact settled.unchanged ⟨total, faithful⟩
    · contradiction
  · contradiction

theorem destroy (settled : Settled region state) {id : Nat}
    (stepped : state.destroy region id = some after) : Settled region after := by
  unfold RegionWorld.destroy at stepped
  split at stepped
  · rename_i message found
    cases stepped
    by_cases own : 0 ≤ message.fHandle ∧ message.fQueued = false ∧
        message.fRegionId = region.fRegionId
    · obtain ⟨holds, unqueued, own⟩ := own
      have closed : message.closeMessage =
          .acknowledge region.fRegionId ⟨message.fHandle, message.fSize, message.fHint⟩ := by
        simp [MessageSHM.closeMessage, holds, unqueued, own, region.counted]
      obtain ⟨erased, faithful⟩ := settled.faithful.erase found state.world.live
      rw [closed, RegionWorld.release, if_pos rfl]
      refine ⟨faithful, ?_⟩
      intro extent
      have total := settled.total extent
      rw [← erased, MessageSHM.references_of_unqueued unqueued holds, Multiset.count_add,
        ← header_callback own, count_header] at total
      rw [acknowledged_snoc, List.count_append]
      simp only at total ⊢
      omega
    · have foreign : 0 ≤ message.fHandle → message.fQueued = false →
          message.fRegionId ≠ region.fRegionId :=
        fun holds unqueued same => own ⟨holds, unqueued, same⟩
      obtain ⟨live, released⟩ := foreign_release foreign
        { state.world with objects := state.world.objects.set id none }
      obtain ⟨erased, faithful⟩ := settled.faithful.erase found live
      rw [released]
      refine ⟨faithful, ?_⟩
      intro extent
      have total := settled.total extent
      rw [← erased, Multiset.count_add, foreign_references foreign, Nat.add_zero] at total
      exact total
  · contradiction

theorem receiveAck (settled : Settled region state)
    (stepped : state.receiveAck region = some after) : Settled region after := by
  unfold RegionWorld.receiveAck at stepped
  split at stepped
  · rename_i block queue isQueue
    cases stepped
    have same : { state with
        queue, callbacks := state.callbacks ++ [region.callback block] }.acknowledged region =
          state.acknowledged region := by
      simp [RegionWorld.acknowledged, isQueue]
    exact ⟨settled.faithful, same ▸ settled.total⟩
  · contradiction

theorem step (settled : Settled region state) {operation : RegionOperation}
    (clean : CleanSends state operation) (stepped : state.step region operation = some after) :
    Settled region after := by
  cases operation with
  | newMessage =>
      cases stepped
      exact settled.newMessage
  | createMessage extent => exact settled.createMessage stepped
  | send id wire attempt =>
      obtain ⟨world, sent, rfl⟩ := Option.map_eq_some_iff.mp stepped
      exact settled.send sent
  | sendVector ids wire attempt =>
      obtain ⟨world, sent, rfl⟩ := Option.map_eq_some_iff.mp stepped
      exact settled.sendVector clean sent
  | receive id wire leftover =>
      obtain ⟨world, received, rfl⟩ := Option.map_eq_some_iff.mp stepped
      exact settled.receive received
  | receiveVector wire =>
      obtain ⟨world, received, rfl⟩ := Option.map_eq_some_iff.mp stepped
      exact settled.unchanged (settled.faithful.receiveVector received)
  | destroy id => exact settled.destroy stepped
  | receiveAck => exact settled.receiveAck stepped

end Settled

theorem settled_of_reaches (reached : (acknowledgeSystem region).ReachesUnder CleanSends state) :
    Settled region state := by
  induction reached with
  | initial start =>
      obtain ⟨wires, rfl⟩ := start
      refine ⟨faithful_start wires, ?_⟩
      intro extent
      simp [RegionWorld.start, RegionWorld.acknowledged, World.references, World.start, travelling]
  | step _ permitted stepped ih => exact ih.step permitted stepped

end Region

/-- As often as a message was created on a range, there is a message that is not queued
or a header in flight that refers to it, or a block that makes the callback run with
it. -/
theorem region_messages_acknowledged_once (region : UnmanagedRegion) {state : RegionWorld}
    (reached : (acknowledgeSystem region).ReachesUnder CleanSends state) (extent : Extent) :
    state.world.references.count (region.header extent) +
        (state.acknowledged region).count extent = state.created.count extent :=
  (settled_of_reaches reached).total extent

def exampleRegion : UnmanagedRegion := ⟨1, 5000, 100, by decide⟩

/-- One range is forwarded and acknowledged, one is on its way. -/
theorem forwarded_range_acknowledged :
    ∃ state : RegionWorld, (acknowledgeSystem exampleRegion).ReachesUnder CleanSends state ∧
      state.callbacks = [⟨5000, 10, 7⟩] ∧
      state.world.references.count (exampleRegion.header ⟨5010, 10, 8⟩) = 1 ∧
      state.world.references.count (exampleRegion.header ⟨5000, 10, 7⟩) +
        (state.acknowledged exampleRegion).count ⟨5000, 10, 7⟩ = 1 := by
  obtain ⟨state, reached, isState⟩ :
      ∃ state, (acknowledgeSystem exampleRegion).ReachesUnder CleanSends state ∧
        (state.callbacks = [⟨5000, 10, 7⟩] ∧
          state.world.references.count (exampleRegion.header ⟨5010, 10, 8⟩) = 1 ∧
          state.created.count ⟨5000, 10, 7⟩ = 1) :=
    TransitionSystem.reaches_of_runUnder (RegionWorld.start 2)
      [.createMessage ⟨5000, 10, 7⟩, .createMessage ⟨5010, 10, 8⟩, .sendVector [0, 1] 0 .accepted,
        .receiveVector 0, .destroy 0, .destroy 2, .send 3 1 .accepted, .receiveAck]
      ⟨2, rfl⟩ (by decide)
  have once := region_messages_acknowledged_once exampleRegion reached ⟨5000, 10, 7⟩
  rw [isState.2.2] at once
  exact ⟨state, reached, isState.1, isState.2.1, once⟩

/-- A received part is sent on alone: its `zmq_msg_t` is empty, so zero bytes go over
the wire and the part keeps its range.  zmq moves the inline bytes along with the empty
message, and the message that receives it puts them into its next vector `Send`. -/
theorem stale_header_sent_twice :
    ∃ state : RegionWorld, (acknowledgeSystem exampleRegion).Reaches state ∧
      state.created.count ⟨5000, 10, 7⟩ = 1 ∧
      state.world.references.count (exampleRegion.header ⟨5000, 10, 7⟩) = 2 := by
  exact TransitionSystem.reaches_of_runUnder (RegionWorld.start 3)
    [.createMessage ⟨5000, 10, 7⟩, .createMessage ⟨5010, 10, 8⟩, .sendVector [0, 1] 0 .accepted,
      .receiveVector 0, .send 2 1 .accepted, .newMessage,
      .receive 4 1 (exampleRegion.header ⟨5000, 10, 7⟩), .sendVector [4, 3] 2 .accepted]
    ⟨3, rfl⟩ (by decide)

end FairMQ.Shmem
