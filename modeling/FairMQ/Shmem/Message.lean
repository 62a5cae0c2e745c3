import Mathlib.Init

namespace FairMQ.Shmem

/-! # Shared-memory messages

A `FairMQMessageSHM` describes its chunk twice: by its fields, and by a
`MetaHeader` in the bytes of the `zmq_msg_t` it owns.  The fields `fRegionPtr` and
`fLocalPtr`, which cache addresses of the process, are left out here: a message that is
constructed and received into at most once reads its data at `fHandle`.  `LocalMessage`
adds them. -/

structure MetaHeader where
  fSize : Nat
  fRegionId : Nat
  fHandle : Int
  fHint : Nat
deriving DecidableEq, Repr

structure RegionBlock where
  fHandle : Int
  fSize : Nat
  fHint : Nat
deriving DecidableEq, Repr

/-- A `zmq_msg_t` owned by a message.  It is empty or of size `sizeof(MetaHeader)`;
a header fits into its inline bytes, which `zmq_msg_data` points at in both cases. -/
structure ZmqMsg where
  filled : Bool
  bytes : MetaHeader
deriving DecidableEq, Repr

/-- `fMessage()` in the constructors. -/
def ZmqMsg.zeroed : ZmqMsg where
  filled := false
  bytes := ⟨0, 0, 0, 0⟩

/-- `zmq_msg_init`, which is also what a successful `zmq_msg_send` leaves behind:
the size becomes zero and the inline bytes stay. -/
def ZmqMsg.init (message : ZmqMsg) : ZmqMsg :=
  { message with filled := false }

structure MessageSHM where
  fMessage : ZmqMsg
  fQueued : Bool
  fMetaCreated : Bool
  fRegionId : Nat
  fHandle : Int
  fSize : Nat
  fHint : Nat
deriving DecidableEq, Repr

namespace MessageSHM

def blank : MessageSHM where
  fMessage := .zeroed
  fQueued := false
  fMetaCreated := false
  fRegionId := 0
  fHandle := -1
  fSize := 0
  fHint := 0

def newMessage : MessageSHM :=
  { blank with fMessage := blank.fMessage.init, fMetaCreated := true }

def header (message : MessageSHM) : MetaHeader where
  fSize := message.fSize
  fRegionId := message.fRegionId
  fHandle := message.fHandle
  fHint := message.fHint

/-- The part of `InitializeChunk` after its allocation loop. -/
def describe (message : MessageSHM) (size : Nat) : MessageSHM :=
  { message with
    fSize := size
    fMessage := ⟨true, { message.header with fSize := size }⟩
    fMetaCreated := true }

/-- `allocated` is the handle with which the allocation loop ends, `none` if it is
interrupted first. -/
def initializeChunk (message : MessageSHM) (size : Nat) (allocated : Option Int) : MessageSHM :=
  if message.fHandle < 0 then
    match allocated with
    | some handle => { message with fHandle := handle }.describe size
    | none => message
  else message.describe size

def ofSize (size : Nat) (allocated : Option Int) : MessageSHM :=
  blank.initializeChunk size allocated

def copy (message other : MessageSHM) (allocated : Option Int) : MessageSHM :=
  if message.fHandle < 0 then
    if other.fHandle ≠ 0 then message.initializeChunk other.fSize allocated else message
  else message

inductive Release where
  | nothing
  | deallocate (handle : Int)
  | acknowledge (regionId : Nat) (block : RegionBlock)
deriving DecidableEq, Repr

def closeMessage (message : MessageSHM) : Release :=
  if 0 ≤ message.fHandle ∧ message.fQueued = false then
    if message.fRegionId = 0 then .deallocate message.fHandle
    else .acknowledge message.fRegionId ⟨message.fHandle, message.fSize, message.fHint⟩
  else .nothing

theorem copy_allocated {message other : MessageSHM} (empty : message.fHandle < 0)
    (source : other.fHandle ≠ 0) (handle : Int) :
    message.copy other (some handle) =
      { message with fHandle := handle }.describe other.fSize := by
  simp [copy, initializeChunk, empty, source]

theorem initializeChunk_created {message : MessageSHM} (created : message.fMetaCreated = true)
    (size : Nat) (allocated : Option Int) :
    (message.initializeChunk size allocated).fMetaCreated = true := by
  unfold initializeChunk
  split
  · cases allocated with
    | some handle => rfl
    | none => exact created
  · rfl

theorem copy_created {message : MessageSHM} (created : message.fMetaCreated = true)
    (other : MessageSHM) (allocated : Option Int) :
    (message.copy other allocated).fMetaCreated = true := by
  unfold copy
  split
  · split
    · exact initializeChunk_created created _ _
    · exact created
  · exact created

end MessageSHM

end FairMQ.Shmem
