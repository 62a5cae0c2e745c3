import FairMQ.Shmem.Ownership
import FairMQ.Shmem.Pointers

namespace FairMQ.Shmem

open FairMQ.Data

namespace MessageSHM

def close (message : MessageSHM) : MessageSHM :=
  match message.closeMessage with
  | .deallocate _ => { message with fHandle := 0 }
  | _ => message

def rebuild (message : MessageSHM) (size : Nat) (allocated : Option Int) : MessageSHM :=
  { message.close with fQueued := false }.initializeChunk size allocated

def rebuildEmpty (message : MessageSHM) : MessageSHM :=
  { message.close with
    fQueued := false
    fMessage := message.close.fMessage.init
    fMetaCreated := true }

end MessageSHM

def LocalMessage.rebuild (mapping : Mapping) (message : LocalMessage) (size : Nat)
    (allocated : Option Int) : LocalMessage × MessageSHM.Release :=
  let closed := message.closeMessage mapping
  (LocalMessage.initializeChunk mapping { closed.1 with fQueued := false } size allocated,
    closed.2)

/-- A chunk that the allocator returns, and its size. -/
structure Offer where
  handle : Int
  bytes : Nat
deriving DecidableEq, Repr

/-- Calls on messages of all devices: those of `Operation`, and further ways to use a
message again. -/
inductive HeapOperation where
  | operate (operation : Operation)
  | createOnRegion (region : UnmanagedRegion) (extent : Extent)
  | receiveInto (id wire : Nat) (leftover : MetaHeader)
  | setUsedSize (id size : Nat)
  | rebuildEmpty (id : Nat)
  | rebuild (id size : Nat) (offer : Offer)

namespace World

/-- `Receive` into a message that may have been used; a packed message ends the process. -/
def receiveInto (world : World) (id wire : Nat) (leftover : MetaHeader) : Option World :=
  match world.objects[id]?, world.wires[wire]? with
  | some (some message), some (packet :: queue) =>
      if message.fMetaCreated then
        some { world with
          objects := world.objects.set id (message.receiveImpl leftover packet)
          wires := world.wires.set wire queue }
      else none
  | _, _ => none

def setUsedSize (world : World) (id size : Nat) : Option World :=
  match world.objects[id]? with
  | some (some message) =>
      if size ≤ message.fSize then
        some { world with objects := world.objects.set id (some (message.shrink size)) }
      else none
  | _ => none

def rebuildEmpty (world : World) (id : Nat) : Option World :=
  match world.objects[id]? with
  | some (some message) =>
      some { world with
        live := world.freed message
        objects := world.objects.set id (some message.rebuildEmpty) }
  | _ => none

/-- A `Rebuild` that is not interrupted; the offer is taken if the allocator is asked. -/
def rebuild (world : World) (id size : Nat) (offer : Offer) : Option World :=
  match world.objects[id]? with
  | some (some message) =>
      if 0 < offer.handle ∧ offer.handle ∉ world.freed message ∧ size ≤ offer.bytes then
        some { world with
          live :=
            if message.fHandle < 0 then insert offer.handle (world.freed message)
            else world.freed message
          objects := world.objects.set id (some (message.rebuild size (some offer.handle))) }
      else none
  | _ => none

def heapStep (world : World) : HeapOperation → Option World
  | .operate operation => world.step operation
  | .createOnRegion region extent =>
      (region.newMessage extent).map fun message =>
        { world with objects := world.objects ++ [some message] }
  | .receiveInto id wire leftover => world.receiveInto id wire leftover
  | .setUsedSize id size => world.setUsedSize id size
  | .rebuildEmpty id => world.rebuildEmpty id
  | .rebuild id size offer => world.rebuild id size offer

end World

def heapSystem : TransitionSystem World HeapOperation where
  initial world := ∃ wires, world = .start wires
  step := World.heapStep

/-- Region messages lie in their region, an empty message is not received into a message
that holds something, and only messages that hold nothing are rebuilt. -/
def Considerate (world : World) : HeapOperation → Prop
  | .operate _ => True
  | .createOnRegion region extent => region.Contains extent
  | .receiveInto id wire _ =>
      ∀ message queue, world.objects[id]? = some (some message) →
        world.wires[wire]? = some ([] :: queue) → message.fHandle < 0
  | .setUsedSize _ _ => True
  | .rebuildEmpty id => ∀ message, world.objects[id]? = some (some message) → message.fHandle < 0
  | .rebuild id _ _ => ∀ message, world.objects[id]? = some (some message) → message.fHandle < 0

/-- What a `Rebuild` has to achieve: the message has a chunk that is new, is large enough and
is referred to by nothing else, its header describes that chunk, `GetData` points to it, and a
chunk that the message owned has been deallocated. -/
structure Rebuilt (mapping : Mapping) (world : World) (message : LocalMessage) (size : Nat)
    (offer : Offer) (after : World) : Prop where
  new : (message.rebuild mapping size (some offer.handle)).1.fHandle ∉
    world.freed message.toMessageSHM
  live : (message.rebuild mapping size (some offer.handle)).1.fHandle ∈ after.live
  room : (message.rebuild mapping size (some offer.handle)).1.fHandle = offer.handle ∧
    size ≤ offer.bytes
  alone : (chunksOf after.references).count offer.handle = 1
  header : (message.rebuild mapping size (some offer.handle)).1.fMessage =
    ⟨true, ⟨size, 0, offer.handle, message.fHint⟩⟩
  data : ((message.rebuild mapping size (some offer.handle)).1.getData mapping).2 =
    some (mapping.segment + offer.handle)
  released : 0 ≤ message.fHandle → message.fQueued = false → message.fRegionId = 0 →
    (message.rebuild mapping size (some offer.handle)).2 = .deallocate message.fHandle

/-- Only a message that refers to something may be on a region. -/
def RegionRule.emptyOnSegment : RegionRule where
  allows header := header.fHandle < 0 → header.fRegionId = 0
  segment _ onSegment _ := onSegment
  empty _ allowed := allowed

section Rebuild

variable {mapping : Mapping} {world after : World} {message : LocalMessage} {id size : Nat}
  {offer : Offer}

theorem closeMessage_of_empty {message : MessageSHM} (empty : message.fHandle < 0) :
    message.closeMessage = .nothing := by
  have gone : ¬ (0 ≤ message.fHandle ∧ message.fQueued = false) :=
    fun holds => Int.not_le.mpr empty holds.1
  rw [MessageSHM.closeMessage, if_neg gone]

theorem close_of_empty {message : MessageSHM} (empty : message.fHandle < 0) :
    message.close = message := by
  rw [MessageSHM.close, closeMessage_of_empty empty]

theorem freed_of_empty {message : MessageSHM} (empty : message.fHandle < 0) :
    world.freed message = world.live := by
  rw [World.freed, closeMessage_of_empty empty]

theorem rebuild_of_empty {message : MessageSHM} (empty : message.fHandle < 0) (handle : Int) :
    message.rebuild size (some handle) =
      { message with fQueued := false, fHandle := handle }.describe size := by
  rw [MessageSHM.rebuild, close_of_empty empty]
  exact if_pos empty

theorem chunksOf_references_shrink (message : MessageSHM) (size : Nat) :
    chunksOf (message.shrink size).references = chunksOf message.references := by
  by_cases holds : 0 ≤ message.fHandle ∧ message.fQueued = false
  · have shrunk : (message.shrink size).references = {(message.shrink size).header} := if_pos holds
    rw [shrunk, MessageSHM.references_of_unqueued holds.2 holds.1]
    by_cases segment : message.fRegionId = 0
    · rw [chunksOf_singleton segment, chunksOf_singleton segment]
      rfl
    · rw [chunksOf_region segment, chunksOf_region segment]
  · have shrunk : (message.shrink size).references = 0 := if_neg holds
    have gone : message.references = 0 := if_neg holds
    rw [shrunk, gone]

namespace Accounted

variable {rule : RegionRule}

theorem receiveInto (accounted : Accounted rule world) {wire : Nat} {leftover : MetaHeader}
    (considerate : ∀ message queue, world.objects[id]? = some (some message) →
      world.wires[wire]? = some ([] :: queue) → message.fHandle < 0)
    (stepped : world.receiveInto id wire leftover = some after) : Accounted rule after := by
  unfold World.receiveInto at stepped
  split at stepped
  · rename_i message packet queue found wired
    split at stepped
    · cases stepped
      apply accounted.adopt found wired
      intro none
      exact considerate message queue found (none ▸ wired)
    · contradiction
  · contradiction

theorem rebuildEmpty (accounted : Accounted rule world)
    (considerate : ∀ message, world.objects[id]? = some (some message) → message.fHandle < 0)
    (stepped : world.rebuildEmpty id = some after) : Accounted rule after := by
  unfold World.rebuildEmpty at stepped
  split at stepped
  · rename_i message found
    cases stepped
    have empty := considerate message found
    have same : message.rebuildEmpty.header = message.header := by
      rw [MessageSHM.rebuildEmpty, close_of_empty empty]
      rfl
    have handle : message.rebuildEmpty.fHandle = message.fHandle :=
      congrArg MetaHeader.fHandle same
    have stillEmpty : message.rebuildEmpty.fHandle < 0 := handle ▸ empty
    rw [freed_of_empty empty]
    apply accounted.replace found (MessageSHM.truthful_of_empty rfl stillEmpty)
    · rw [MessageSHM.references_of_empty stillEmpty]
      exact Multiset.zero_le _
    · rw [same]
      exact accounted.stored found
  · contradiction

theorem rebuild (accounted : Accounted rule world)
    (considerate : ∀ message, world.objects[id]? = some (some message) → message.fHandle < 0)
    (stepped : world.rebuild id size offer = some after) : Accounted rule after := by
  unfold World.rebuild at stepped
  split at stepped
  · rename_i message found
    split at stepped
    · rename_i offered
      cases stepped
      have empty := considerate message found
      rw [freed_of_empty empty] at offered ⊢
      rw [if_pos empty, rebuild_of_empty empty]
      have truthful := MessageSHM.describe_truthful
        { message with fQueued := false, fHandle := offer.handle } size offered.1.le
      have segment : message.fRegionId = 0 := accounted.stored_empty found empty
      exact accounted.allocate found empty truthful rfl segment offered.1 offered.2.1
    · contradiction
  · contradiction

theorem setUsedSize (accounted : Accounted .emptyOnSegment world)
    (stepped : world.setUsedSize id size = some after) : Accounted .emptyOnSegment after := by
  unfold World.setUsedSize at stepped
  split at stepped
  · rename_i message found
    split at stepped
    · cases stepped
      have truthful := accounted.faithful.stored found
      have allowed : message.fHandle < 0 → message.fRegionId = 0 := accounted.stored_empty found
      apply accounted.replace found _ (chunksOf_references_shrink message size).le allowed
      refine ⟨truthful.chunk, ?_⟩
      intro unqueued chunk
      have described := truthful.described unqueued chunk
      simp only [MessageSHM.shrink, described, MessageSHM.header]
    · contradiction
  · contradiction

theorem createOnRegion (accounted : Accounted .emptyOnSegment world) {region : UnmanagedRegion}
    {extent : Extent} (inside : region.Contains extent)
    (stepped : world.heapStep (.createOnRegion region extent) = some after) :
    Accounted .emptyOnSegment after := by
  obtain ⟨message, isNew, truthful, references⟩ := newMessage_inside inside
  rw [World.heapStep, isNew] at stepped
  cases stepped
  apply accounted.add truthful
  · rw [references]
    exact chunksOf_region region.counted
  · intro empty
    rw [MessageSHM.references_of_empty empty] at references
    exact absurd references.symm (Multiset.singleton_ne_zero _)

theorem heapStep (accounted : Accounted .emptyOnSegment world) {operation : HeapOperation}
    (considerate : Considerate world operation)
    (stepped : world.heapStep operation = some after) : Accounted .emptyOnSegment after := by
  cases operation with
  | operate operation => exact accounted.step stepped
  | createOnRegion region extent => exact accounted.createOnRegion considerate stepped
  | receiveInto id wire leftover => exact accounted.receiveInto considerate stepped
  | setUsedSize id size => exact accounted.setUsedSize stepped
  | rebuildEmpty id => exact accounted.rebuildEmpty considerate stepped
  | rebuild id size offer => exact accounted.rebuild considerate stepped

end Accounted

theorem accounted_of_reaches (reached : heapSystem.ReachesUnder Considerate world) :
    Accounted .emptyOnSegment world := by
  refine reached.invariant ?_ ?_
  · rintro _ ⟨wires, rfl⟩
    exact .start _ wires
  · intro before operation after accounted considerate stepped
    exact accounted.heapStep considerate stepped

theorem rebuild_eq (stored : world.objects[id]? = some (some message.toMessageSHM))
    (stepped : world.rebuild id size offer = some after) :
    (0 < offer.handle ∧ offer.handle ∉ world.freed message.toMessageSHM ∧ size ≤ offer.bytes) ∧
      after = { world with
        live :=
          if message.fHandle < 0 then insert offer.handle (world.freed message.toMessageSHM)
          else world.freed message.toMessageSHM
        objects := world.objects.set id
          (some (message.toMessageSHM.rebuild size (some offer.handle))) } := by
  simp only [World.rebuild, stored] at stepped
  split at stepped
  · cases stepped
    exact ⟨‹_›, rfl⟩
  · contradiction

theorem rebuild_fields (mapping : Mapping) (message : LocalMessage) (size : Nat)
    (allocated : Option Int) :
    (message.rebuild mapping size allocated).1.toMessageSHM =
      message.toMessageSHM.rebuild size allocated := by
  have fields : (message.closeMessage mapping).1.toMessageSHM = message.toMessageSHM.close := by
    unfold LocalMessage.closeMessage MessageSHM.close MessageSHM.closeMessage
    by_cases holds : 0 ≤ message.fHandle ∧ message.fQueued = false
    · by_cases segment : message.fRegionId = 0
      · simp [holds, segment]
      · simp only [holds, segment, and_self, if_true, if_false]
        split
        · rfl
        · split
          · rfl
          · rfl
    · simp [holds]
  simp only [LocalMessage.rebuild, LocalMessage.initializeChunk, MessageSHM.rebuild, fields]

theorem rebuild_local_of_empty (mapping : Mapping) (empty : message.fHandle < 0) (size : Nat)
    (handle : Int) :
    message.rebuild mapping size (some handle) =
      ({ message with
        toMessageSHM :=
          { message.toMessageSHM with fQueued := false, fHandle := handle }.describe size
        fLocalPtr := some (mapping.segment + handle) }, .nothing) := by
  have closed : message.closeMessage mapping = (message, .nothing) :=
    if_neg fun holds => Int.not_le.mpr empty holds.1
  simp only [LocalMessage.rebuild, closed, LocalMessage.initializeChunk,
    MessageSHM.initializeChunk, empty, if_true]

theorem chunksOf_rebuild (stored : world.objects[id]? = some (some message.toMessageSHM))
    (empty : message.fHandle < 0) (segment : message.fRegionId = 0)
    (stepped : world.rebuild id size offer = some after) :
    chunksOf after.references = chunksOf world.references + {offer.handle} := by
  obtain ⟨⟨positive, _, _⟩, rfl⟩ := rebuild_eq stored stepped
  have moved := world.references_set stored
    (some (message.toMessageSHM.rebuild size (some offer.handle)))
    (if message.fHandle < 0 then insert offer.handle (world.freed message.toMessageSHM)
      else world.freed message.toMessageSHM)
  rw [referencesOf, referencesOf, MessageSHM.references_of_empty empty, add_zero,
    rebuild_of_empty empty, MessageSHM.references_of_unqueued rfl positive.le] at moved
  rw [rebuild_of_empty empty, moved, chunksOf_add, chunksOf_singleton segment]
  rfl

theorem empty_of_rebuilt (stored : world.objects[id]? = some (some message.toMessageSHM))
    (stepped : world.rebuild id size offer = some after)
    (rebuilt : Rebuilt mapping world message size offer after) : message.fHandle < 0 := by
  obtain ⟨_, isAfter⟩ := rebuild_eq stored stepped
  apply Decidable.byContradiction
  intro holds
  have live := rebuilt.live
  rw [isAfter] at live
  simp only [holds, if_false] at live
  exact rebuilt.new live

end Rebuild

/-- `Rebuild` yields a message with a chunk of its own exactly if the message held nothing,
neither a chunk or a block nor, after a send, the handle of what it has sent, if it was not on
a region, and if nobody still refers to the chunk that the allocator returns.  As long as all
calls are considerate, a message that holds nothing meets the other two conditions. -/
theorem rebuild_fresh_iff {mapping : Mapping} {world after : World} {message : LocalMessage}
    {id size : Nat} {offer : Offer}
    (stored : world.objects[id]? = some (some message.toMessageSHM))
    (stepped : world.rebuild id size offer = some after) :
    (Rebuilt mapping world message size offer after ↔
      message.fHandle < 0 ∧ message.fRegionId = 0 ∧
        offer.handle ∉ chunksOf world.references) ∧
    (heapSystem.ReachesUnder Considerate world → message.fHandle < 0 →
      message.fRegionId = 0 ∧ offer.handle ∉ chunksOf world.references) := by
  obtain ⟨⟨positive, fresh, room⟩, isAfter⟩ := rebuild_eq stored stepped
  refine ⟨⟨?_, ?_⟩, ?_⟩
  · intro rebuilt
    have empty := empty_of_rebuilt stored stepped rebuilt
    have header := rebuilt.header
    rw [rebuild_local_of_empty mapping empty] at header
    have segment : message.fRegionId = 0 :=
      congrArg (fun zmqMsg => zmqMsg.bytes.fRegionId) header
    have alone := rebuilt.alone
    rw [chunksOf_rebuild stored empty segment stepped, Multiset.count_add,
      Multiset.count_singleton_self] at alone
    exact ⟨empty, segment, Multiset.count_eq_zero.mp (by omega)⟩
  · rintro ⟨empty, segment, unreferenced⟩
    have isRebuilt := rebuild_local_of_empty mapping empty size offer.handle
    refine ⟨?_, ?_, ?_, ?_, ?_, ?_, ?_⟩
    · rw [isRebuilt]
      exact fresh
    · rw [isRebuilt, isAfter]
      simp only [empty, if_true]
      exact Finset.mem_insert_self _ _
    · rw [isRebuilt]
      exact ⟨rfl, room⟩
    · rw [chunksOf_rebuild stored empty segment stepped, Multiset.count_add,
        Multiset.count_singleton_self, Multiset.count_eq_zero.mpr unreferenced]
    · rw [isRebuilt]
      simp [MessageSHM.describe, MessageSHM.header, segment]
    · rw [isRebuilt]
      rfl
    · intro holds
      exact absurd empty (Int.not_lt.mpr holds)
  · intro reached empty
    have accounted := accounted_of_reaches reached
    refine ⟨accounted.stored_empty stored empty, ?_⟩
    rw [freed_of_empty empty] at fresh
    exact fun referenced => fresh (accounted.backed.exists_of_mem referenced)

theorem new_message_rebuilt :
    ∃ world after, heapSystem.ReachesUnder Considerate world ∧
      world.objects[0]? = some (some LocalMessage.new.toMessageSHM) ∧
      world.rebuild 0 20 ⟨16, 32⟩ = some after ∧
      Rebuilt ⟨1000, fun _ => none⟩ world .new 20 ⟨16, 32⟩ after := by
  have created : heapSystem.ReachesUnder Considerate
      { World.start 0 with objects := [some .newMessage] } :=
    .step (.initial ⟨0, rfl⟩) (show Considerate (.start 0) (.operate .newMessage) from trivial) rfl
  have rebuilt : World.rebuild { World.start 0 with objects := [some .newMessage] } 0 20 ⟨16, 32⟩ =
      some { World.start 0 with
        live := {16}
        objects := [some (MessageSHM.newMessage.rebuild 20 (some 16))] } := by decide
  have fresh := @rebuild_fresh_iff ⟨1000, fun _ => none⟩ _ _ .new _ _ _ rfl rebuilt
  exact ⟨_, _, created, rfl, rebuilt,
    fresh.1.mpr ⟨by decide, fresh.2 created (by decide)⟩⟩

/-- A message of 10 bytes is rebuilt with 20 bytes: its chunk is deallocated, no other one is
allocated, and the header that it would send has the handle 0. -/
theorem rebuilt_message_without_chunk :
    ∃ (world after : World) (message : LocalMessage), heapSystem.Reaches world ∧
      world.objects[0]? = some (some message.toMessageSHM) ∧
      world.rebuild 0 20 ⟨16, 32⟩ = some after ∧ after.live = ∅ ∧
      (message.rebuild ⟨1000, fun _ => none⟩ 20 (some 16)).1.fMessage = ⟨true, ⟨20, 0, 0, 0⟩⟩ ∧
      ¬ Rebuilt ⟨1000, fun _ => none⟩ world message 20 ⟨16, 32⟩ after := by
  obtain ⟨world, created, isWorld⟩ : ∃ world, heapSystem.Reaches world ∧
      world = { World.start 0 with live := {8}, objects := [some (.ofSize 10 (some 8))] } :=
    TransitionSystem.reaches_of_runUnder (.start 0) [.operate (.create 10 (some 8))] ⟨0, rfl⟩
      (by decide)
  subst isWorld
  have rebuilt : World.rebuild
      { World.start 0 with live := {8}, objects := [some (.ofSize 10 (some 8))] } 0 20 ⟨16, 32⟩ =
      some { World.start 0 with
        live := ∅
        objects := [some ((MessageSHM.ofSize 10 (some 8)).rebuild 20 (some 16))] } := by decide
  refine ⟨_, _, .ofSize ⟨1000, fun _ => none⟩ 10 (some 8), created, rfl, rebuilt, rfl, by decide, ?_⟩
  intro fresh
  exact absurd fresh.live (by decide)

end FairMQ.Shmem
