import FairMQ.Shmem.Acknowledge

namespace FairMQ.Shmem

open FairMQ.Data

/-- The addresses of a process: where the segment is mapped, and where the region is that
`GetRemoteRegion` yields for an id. -/
structure Mapping where
  segment : Int
  region : Nat → Option Int

structure LocalMessage extends MessageSHM where
  fRegionPtr : Option Nat
  fLocalPtr : Option Int
deriving DecidableEq, Repr

/-- The effect of a successful `SetUsedSize` on the fields and on the header. -/
def MessageSHM.shrink (message : MessageSHM) (size : Nat) : MessageSHM :=
  { message with
    fSize := size
    fMessage := { message.fMessage with bytes := { message.fMessage.bytes with fSize := size } } }

namespace LocalMessage

def new : LocalMessage :=
  { MessageSHM.newMessage with fRegionPtr := none, fLocalPtr := none }

def initializeChunk (mapping : Mapping) (message : LocalMessage) (size : Nat)
    (allocated : Option Int) : LocalMessage :=
  { message with
    toMessageSHM := message.toMessageSHM.initializeChunk size allocated
    fLocalPtr :=
      match allocated with
      | some handle =>
          if message.fHandle < 0 then some (mapping.segment + handle) else message.fLocalPtr
      | none => message.fLocalPtr }

def ofSize (mapping : Mapping) (size : Nat) (allocated : Option Int) : LocalMessage :=
  initializeChunk mapping { MessageSHM.blank with fRegionPtr := none, fLocalPtr := none } size
    allocated

def ofRegion (region : UnmanagedRegion) (extent : Extent) : Option LocalMessage :=
  (region.newMessage extent).map fun message =>
    { message with fRegionPtr := none, fLocalPtr := some extent.data }

/-- The message after the call, and the address; the pointers are `mutable`. -/
def getData (mapping : Mapping) (message : LocalMessage) : LocalMessage × Option Int :=
  match message.fLocalPtr with
  | some address => (message, some address)
  | none =>
      if message.fRegionId = 0 then (message, some (mapping.segment + message.fHandle))
      else
        match mapping.region message.fRegionId with
        | some base =>
            ({ message with
              fRegionPtr := some message.fRegionId
              fLocalPtr := some (base + message.fHandle) }, some (base + message.fHandle))
        | none => ({ message with fRegionPtr := none, fLocalPtr := none }, none)

/-- `shrunk` says whether the allocator could shrink the chunk at `fLocalPtr`; without a
pointer it cannot. -/
def setUsedSize (message : LocalMessage) (size : Nat) (shrunk : Bool) : LocalMessage × Bool :=
  if size = message.fSize then (message, true)
  else if size ≤ message.fSize then
    if message.fLocalPtr.isSome && shrunk then
      ({ message with toMessageSHM := message.toMessageSHM.shrink size }, true)
    else (message, false)
  else (message, false)

/-- The message after the call, and what is given back.  The acknowledgement goes to the
region of `fRegionPtr`, which is looked up only if there is none. -/
def closeMessage (mapping : Mapping) (message : LocalMessage) :
    LocalMessage × MessageSHM.Release :=
  if 0 ≤ message.fHandle ∧ message.fQueued = false then
    if message.fRegionId = 0 then
      ({ message with fHandle := 0 }, .deallocate message.fHandle)
    else
      let block := ⟨message.fHandle, message.fSize, message.fHint⟩
      match message.fRegionPtr with
      | some regionId => (message, .acknowledge regionId block)
      | none =>
          match mapping.region message.fRegionId with
          | some _ =>
              ({ message with fRegionPtr := some message.fRegionId },
                .acknowledge message.fRegionId block)
          | none => (message, .nothing)
  else (message, .nothing)

def sendImpl (message : LocalMessage) (attempt : Attempt) : LocalMessage :=
  match (message.toMessageSHM.sendImpl attempt).messages with
  | [after] => { message with toMessageSHM := after }
  | _ => message

/-- `ReceiveImpl` for one message, which needs a valid `zmq_msg_t`. -/
def receiveImpl (message : LocalMessage) (leftover : MetaHeader) (packet : List MetaHeader) :
    Option LocalMessage :=
  if message.fMetaCreated then
    (message.toMessageSHM.receiveImpl leftover packet).map fun after =>
      { message with toMessageSHM := after }
  else none

end LocalMessage

namespace Mapping

def address (mapping : Mapping) (header : MetaHeader) : Option Int :=
  if header.fRegionId = 0 then some (mapping.segment + header.fHandle)
  else (mapping.region header.fRegionId).map (· + header.fHandle)

def release (mapping : Mapping) (header : MetaHeader) : MessageSHM.Release :=
  if 0 ≤ header.fHandle then
    if header.fRegionId = 0 then .deallocate header.fHandle
    else
      match mapping.region header.fRegionId with
      | some _ => .acknowledge header.fRegionId ⟨header.fHandle, header.fSize, header.fHint⟩
      | none => .nothing
  else .nothing

end Mapping

/-- The constructor throws for a range outside the region; otherwise the header lies inside
the region, and so does the data of a message that has received it, wherever its process
maps the region. -/
structure UnmanagedRegion.Guards (region : UnmanagedRegion) (extent : Extent) : Prop where
  throws : ¬ region.Contains extent → LocalMessage.ofRegion region extent = none
  header : ∀ message, LocalMessage.ofRegion region extent = some message →
    0 ≤ message.fMessage.bytes.fHandle ∧
      message.fMessage.bytes.fHandle + message.fMessage.bytes.fSize ≤ region.size
  data : ∀ message, LocalMessage.ofRegion region extent = some message →
    ∀ (received : LocalMessage) (mapping : Mapping) (base address : Int),
      received.header = message.fMessage.bytes → received.fLocalPtr = none →
      mapping.region region.fRegionId = some base →
      (received.getData mapping).2 = some address →
        base ≤ address ∧ address + received.fSize ≤ base + region.size

theorem ofRegion_eq (region : UnmanagedRegion) (extent : Extent) :
    LocalMessage.ofRegion region extent =
      some {
        fMessage := ⟨true, region.header extent⟩
        fQueued := false
        fMetaCreated := true
        fRegionId := region.fRegionId
        fHandle := extent.data - region.base
        fSize := extent.size
        fHint := extent.hint
        fRegionPtr := none
        fLocalPtr := some extent.data } := by
  -- One of the two comparisons holds for every address.
  have passes : region.base ≤ extent.data ∨ extent.data ≤ region.base + region.size := by omega
  simp [LocalMessage.ofRegion, UnmanagedRegion.newMessage, passes]

/-- The check of the constructor never throws, so it protects exactly the ranges that are
inside the region anyway. -/
theorem region_message_inside_iff (region : UnmanagedRegion) (extent : Extent) :
    region.Guards extent ↔ region.Contains extent := by
  constructor
  · intro guards
    apply Decidable.byContradiction
    intro outside
    have thrown := guards.throws outside
    rw [ofRegion_eq] at thrown
    cases thrown
  · rintro ⟨lower, upper⟩
    refine ⟨fun outside => absurd ⟨lower, upper⟩ outside, ?_, ?_⟩
    · intro message created
      rw [ofRegion_eq] at created
      cases created
      simp only [UnmanagedRegion.header]
      omega
    · intro message created received mapping base address arrived uncached mapped found
      rw [ofRegion_eq] at created
      cases created
      have regionId : received.fRegionId = region.fRegionId := congrArg MetaHeader.fRegionId arrived
      have handle : received.fHandle = extent.data - region.base :=
        congrArg MetaHeader.fHandle arrived
      have size : received.fSize = extent.size := congrArg MetaHeader.fSize arrived
      simp only [LocalMessage.getData, uncached, regionId, region.counted, if_false, mapped,
        Option.some.injEq] at found
      omega

/-- A region of 4096 bytes at address 8192, and data of 16 bytes at 8184: the message is
created, with the handle -8, and a receiver is sent in front of its mapping. -/
theorem region_message_below_base :
    ∃ message received,
      LocalMessage.ofRegion ⟨1, 8192, 4096, by decide⟩ ⟨8184, 16, 0⟩ = some message ∧
      message.fMessage.bytes.fHandle = -8 ∧
      LocalMessage.new.receiveImpl ⟨0, 0, 0, 0⟩ [message.fMessage.bytes] = some received ∧
      (received.getData ⟨0, fun _ => some 65536⟩).2 = some 65528 ∧
      ¬ (⟨1, 8192, 4096, by decide⟩ : UnmanagedRegion).Guards ⟨8184, 16, 0⟩ := by
  refine ⟨_, _, ofRegion_eq _ _, by decide, rfl, by decide, ?_⟩
  intro guards
  have thrown := guards.throws (by decide)
  rw [ofRegion_eq] at thrown
  cases thrown

inductive ObjectCall where
  | getData
  | send (attempt : Attempt)
  | receive (leftover : MetaHeader) (packet : List MetaHeader)
  | setUsedSize (size : Nat) (shrunk : Bool)
deriving DecidableEq, Repr

def LocalMessage.step (mapping : Mapping) (message : LocalMessage) : ObjectCall → Option LocalMessage
  | .getData => some (message.getData mapping).1
  | .send attempt => some (message.sendImpl attempt)
  | .receive leftover packet => message.receiveImpl leftover packet
  | .setUsedSize size shrunk => some (message.setUsedSize size shrunk).1

def objectSystem (mapping : Mapping) : TransitionSystem LocalMessage ObjectCall where
  initial message :=
    message = .new ∨ (∃ size allocated, message = .ofSize mapping size allocated) ∨
      ∃ region extent, LocalMessage.ofRegion region extent = some message
  step := LocalMessage.step mapping

/-- The message that has received the header is like a new one that has: its data is where
the header says, and its destruction gives back what the header stands for, before and
after a `GetData`.  `ReceiveImpl` itself gives nothing back, so the message may not have
owned a chunk. -/
structure BehavesFresh (mapping : Mapping) (message : LocalMessage) (header : MetaHeader)
    (received : LocalMessage) : Prop where
  data : (received.getData mapping).2 = mapping.address header
  size : received.fSize = header.fSize
  destroyed : (received.closeMessage mapping).2 = mapping.release header
  destroyedLater : ((received.getData mapping).1.closeMessage mapping).2 = mapping.release header
  chunk : ∀ handle, (message.closeMessage mapping).2 ≠ .deallocate handle

/-- No pointer is left over, apart from those to what comes, nor the flag of a send. -/
structure Receptive (mapping : Mapping) (message : LocalMessage) (header : MetaHeader) : Prop where
  pointer : message.fLocalPtr = none ∨ message.fLocalPtr = mapping.address header
  queued : message.fQueued = true → mapping.release header = .nothing
  region : message.fQueued = false → header.fRegionId ≠ 0 → 0 ≤ header.fHandle →
    message.fRegionPtr = none ∨
      (message.fRegionPtr = some header.fRegionId ∧
        (mapping.region header.fRegionId).isSome = true)
  chunk : ¬ (0 ≤ message.fHandle ∧ message.fQueued = false ∧ message.fRegionId = 0)

section Receive

variable {mapping : Mapping} {message received : LocalMessage} {leftover header : MetaHeader}

theorem receiveImpl_header (done : message.receiveImpl leftover [header] = some received) :
    received = { message with toMessageSHM :=
      { message.toMessageSHM.adopt header with fMessage := ⟨true, header⟩ } } := by
  unfold LocalMessage.receiveImpl at done
  split at done
  · cases done
    rfl
  · cases done

theorem getData_eq (mapping : Mapping) (message : LocalMessage) :
    (message.getData mapping).2 =
      if message.fLocalPtr = none then mapping.address message.header else message.fLocalPtr := by
  unfold LocalMessage.getData
  split
  next address cached => simp [cached]
  next uncached =>
    rw [if_pos uncached, Mapping.address]
    by_cases segment : message.fRegionId = 0
    · rw [if_pos segment, if_pos (show message.header.fRegionId = 0 from segment)]
      rfl
    · rw [if_neg segment, if_neg (show ¬ message.header.fRegionId = 0 from segment)]
      show _ = (mapping.region message.fRegionId).map (· + message.fHandle)
      cases mapping.region message.fRegionId with
      | none => rfl
      | some base => rfl

theorem owns_chunk_iff (mapping : Mapping) (message : LocalMessage) :
    (∃ handle, (message.closeMessage mapping).2 = .deallocate handle) ↔
      0 ≤ message.fHandle ∧ message.fQueued = false ∧ message.fRegionId = 0 := by
  unfold LocalMessage.closeMessage
  split
  next holds =>
    split
    next segment => simp [holds, segment]
    next onRegion =>
      simp only [holds, onRegion, and_false, iff_false]
      rintro ⟨handle, released⟩
      split at released
      · cases released
      · split at released
        · cases released
        · cases released
  next gone =>
    simp only [reduceCtorEq, exists_false, false_iff]
    exact fun owned => gone ⟨owned.1, owned.2.1⟩

def LocalMessage.Acknowledges (mapping : Mapping) (message : LocalMessage) : Prop :=
  message.fRegionId ≠ 0 → 0 ≤ message.fHandle →
    message.fRegionPtr = none ∨
      (message.fRegionPtr = some message.fRegionId ∧
        (mapping.region message.fRegionId).isSome = true)

theorem closeMessage_of_queued (queued : message.fQueued = true) :
    (message.closeMessage mapping).2 = .nothing := by
  simp [LocalMessage.closeMessage, queued]

theorem closeMessage_iff (unqueued : message.fQueued = false) :
    (message.closeMessage mapping).2 = mapping.release message.header ↔
      message.Acknowledges mapping := by
  unfold LocalMessage.Acknowledges LocalMessage.closeMessage Mapping.release
  by_cases holds : 0 ≤ message.fHandle
  · by_cases segment : message.fRegionId = 0
    · simp [MessageSHM.header, holds, unqueued, segment]
    · cases pointer : message.fRegionPtr with
      | none => cases mapped : mapping.region message.fRegionId <;>
          simp [MessageSHM.header, holds, unqueued, segment, mapped]
      | some regionId => cases mapped : mapping.region message.fRegionId <;>
          simp [MessageSHM.header, holds, unqueued, segment, mapped]
  · simp [MessageSHM.header, holds]

theorem getData_message (mapping : Mapping) (message : LocalMessage) :
    (message.getData mapping).1.toMessageSHM = message.toMessageSHM ∧
      (message.Acknowledges mapping → (message.getData mapping).1.Acknowledges mapping) := by
  unfold LocalMessage.getData
  split
  next => exact ⟨rfl, id⟩
  next =>
    split
    next => exact ⟨rfl, id⟩
    next =>
      split
      next base mapped => exact ⟨rfl, fun _ _ _ => .inr ⟨rfl, by simp [mapped]⟩⟩
      next => exact ⟨rfl, fun _ _ _ => .inl rfl⟩

end Receive

/-- After a `Receive` a message is like a new one exactly if nothing of its earlier use is in
the way. -/
theorem receive_behaves_fresh_iff {mapping : Mapping} {message received : LocalMessage}
    {leftover header : MetaHeader}
    (done : message.receiveImpl leftover [header] = some received) :
    BehavesFresh mapping message header received ↔ Receptive mapping message header := by
  have isReceived := receiveImpl_header done
  have isHeader : received.header = header := by rw [isReceived]; rfl
  have flag : received.fQueued = message.fQueued := by rw [isReceived]; rfl
  have pointer : received.fLocalPtr = message.fLocalPtr := by rw [isReceived]
  have regions : received.Acknowledges mapping ↔
      (header.fRegionId ≠ 0 → 0 ≤ header.fHandle → message.fRegionPtr = none ∨
        (message.fRegionPtr = some header.fRegionId ∧
          (mapping.region header.fRegionId).isSome = true)) := by
    rw [isReceived]
    rfl
  have data := getData_eq mapping received
  rw [pointer, isHeader] at data
  constructor
  · intro fresh
    refine ⟨?_, ?_, ?_, ?_⟩
    · have found := data.symm.trans fresh.data
      split at found
      next none => exact .inl none
      next => exact .inr found
    · intro queued
      rw [← fresh.destroyed]
      exact closeMessage_of_queued (flag.trans queued)
    · intro unqueued
      have released := fresh.destroyed
      rw [← isHeader, closeMessage_iff (flag.trans unqueued)] at released
      exact regions.mp released
    · intro owned
      obtain ⟨handle, released⟩ := (owns_chunk_iff mapping message).mpr owned
      exact fresh.chunk handle released
  · intro receptive
    have chunk : ∀ handle, (message.closeMessage mapping).2 ≠ .deallocate handle :=
      fun handle released => receptive.chunk ((owns_chunk_iff mapping message).mp ⟨handle, released⟩)
    have size : received.fSize = header.fSize := congrArg MetaHeader.fSize isHeader
    have found : (received.getData mapping).2 = mapping.address header := by
      rw [data]
      split
      next => rfl
      next some => exact receptive.pointer.resolve_left some
    obtain ⟨fields, keeps⟩ := getData_message mapping received
    cases queued : message.fQueued with
    | true =>
        have later : (received.getData mapping).1.fQueued = true := by
          rw [fields]
          exact flag.trans queued
        have nothing := receptive.queued queued
        exact ⟨found, size, (closeMessage_of_queued (flag.trans queued)).trans nothing.symm,
          (closeMessage_of_queued later).trans nothing.symm, chunk⟩
    | false =>
        have acknowledges := regions.mpr (receptive.region queued)
        have later : (received.getData mapping).1.fQueued = false := by
          rw [fields]
          exact flag.trans queued
        have destroyed := (closeMessage_iff (flag.trans queued)).mpr acknowledges
        have destroyedLater := (closeMessage_iff later).mpr (keeps acknowledges)
        rw [fields] at destroyedLater
        rw [isHeader] at destroyed destroyedLater
        exact ⟨found, size, destroyed, destroyedLater, chunk⟩

/-- A message that has received from a region and has been read. -/
def readMessage : LocalMessage where
  fMessage := ⟨true, ⟨4, 2, 128, 7⟩⟩
  fQueued := false
  fMetaCreated := true
  fRegionId := 2
  fHandle := 128
  fSize := 4
  fHint := 7
  fRegionPtr := some 2
  fLocalPtr := some 5128

/-- It receives the same place of the region again. -/
theorem reused_message_receives :
    (objectSystem ⟨1000, fun _ => some 5000⟩).Reaches readMessage ∧
      ∃ received, readMessage.receiveImpl ⟨0, 0, 0, 0⟩ [⟨3, 2, 128, 8⟩] = some received ∧
        BehavesFresh ⟨1000, fun _ => some 5000⟩ readMessage ⟨3, 2, 128, 8⟩ received := by
  obtain ⟨message, reached, rfl⟩ : ∃ message,
      (objectSystem ⟨1000, fun _ => some 5000⟩).Reaches message ∧ message = readMessage :=
    TransitionSystem.reaches_of_runUnder .new
      [.receive ⟨0, 0, 0, 0⟩ [⟨4, 2, 128, 7⟩], .getData] (.inl rfl) (by decide)
  have done : readMessage.receiveImpl ⟨0, 0, 0, 0⟩ [⟨3, 2, 128, 8⟩] = some _ := rfl
  refine ⟨reached, _, done, (receive_behaves_fresh_iff done).mpr ?_⟩
  exact ⟨.inr rfl, nofun, fun _ _ _ => .inr ⟨rfl, rfl⟩, by decide⟩

/-- A message created with a chunk of its own, at handle 64, receives the header of a chunk
at handle 128: `GetData` still yields the old chunk, which nobody will deallocate. -/
theorem used_message_reads_old_chunk :
    ∃ message received : LocalMessage,
      (objectSystem ⟨1000, fun _ => none⟩).Reaches message ∧
      message.receiveImpl ⟨0, 0, 0, 0⟩ [⟨4, 0, 128, 0⟩] = some received ∧
      (message.closeMessage ⟨1000, fun _ => none⟩).2 = .deallocate 64 ∧
      (received.getData ⟨1000, fun _ => none⟩).2 = some 1064 ∧
      (received.closeMessage ⟨1000, fun _ => none⟩).2 = .deallocate 128 ∧
      ¬ BehavesFresh ⟨1000, fun _ => none⟩ message ⟨4, 0, 128, 0⟩ received := by
  refine ⟨.ofSize ⟨1000, fun _ => none⟩ 10 (some 64), _, .initial (.inr (.inl ⟨_, _, rfl⟩)), rfl,
    by decide, by decide, by decide, ?_⟩
  intro fresh
  exact absurd fresh.data (by decide)

end FairMQ.Shmem
