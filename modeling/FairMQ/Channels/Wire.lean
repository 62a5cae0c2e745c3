import FairMQ.Channels.Compatibility
import FairMQ.Shmem.Socket
import FairMQ.Transports.Multipart

namespace FairMQ.Channels

open FairMQ.Data.MsgPack (Unpacker)
open FairMQ.Nanomsg (MessageNN)
open FairMQ.Options (Transport)
open FairMQ.Shmem (MessageSHM MetaHeader)
open FairMQ.Zeromq (MessageZMQ)

/-- What the libraries have taken with a `Send`.  The headers of shared memory are given by
what a receiver finds at them. -/
inductive Packet where
  | frames (frames : List Zeromq.Frame)
  | payload (bytes : List UInt8)
  | chunks (chunks : List (Option (List UInt8)))
deriving DecidableEq, Repr

/-- What a receiver finds at the header taken from a message; nothing is known if the header
does not lead to the chunk of the message. -/
def readAt (message : MessageSHM) (chunk : List UInt8) (header : MetaHeader) :
    Option (List UInt8) :=
  if header.fSize = 0 then some []
  else if header.fRegionId = message.fRegionId ∧ header.fHandle = message.fHandle ∧
      header.fSize ≤ chunk.length then some (chunk.take header.fSize)
  else none

/-- A socket of the transport has taken the arguments of a `Send`, as it has if the call
returns a size.  The vectors have fewer than `2 ^ 32` parts; those of ofi throw. -/
inductive Sent : Transport → Arguments → Packet → Prop where
  | zmqMsg {message : Message} {object : MessageZMQ} {transfer : Zeromq.Transfer}
      {outcomes : List Zeromq.Outcome} {sending : Zeromq.Sending}
      (isObject : message.object = .zmq object)
      (done : object.sendImpl transfer outcomes = some sending) (success : 0 ≤ sending.result) :
      Sent .zmq (.msg message) (.frames sending.frames)
  | zmqMsgVec {messages : List Message} {objects : List MessageZMQ} {transfer : Zeromq.Transfer}
      {outcomes : List Zeromq.Outcome} {sending : Zeromq.Sending}
      (areObjects : messages.map Message.object = objects.map .zmq)
      (obeyed : Zeromq.AgainFirst outcomes)
      (done : Zeromq.sendVector transfer outcomes objects = some sending)
      (success : 0 ≤ sending.result) : Sent .zmq (.msgVec messages) (.frames sending.frames)
  | nnMsg {message : Message} {object : MessageNN} {transfer : Zeromq.Transfer}
      {outcomes : List Nanomsg.Outcome} {sending : Nanomsg.Sending} {bytes : List UInt8}
      (isObject : message.object = .nn object)
      (done : object.sendImpl transfer outcomes = some sending)
      (taken : .accepted bytes ∈ sending.events) : Sent .nn (.msg message) (.payload bytes)
  | nnMsgVec {messages : List Message} {objects : List MessageNN} {transfer : Zeromq.Transfer}
      {outcomes : List Nanomsg.Outcome} {sending : Nanomsg.Sending} {bytes : List UInt8}
      (few : messages.length < 2 ^ 32)
      (areObjects : messages.map Message.object = objects.map .nn)
      (done : Nanomsg.sendImpl transfer outcomes objects = some sending)
      (taken : .accepted bytes ∈ sending.events) : Sent .nn (.msgVec messages) (.payload bytes)
  | shmMsg {message : Message} {object : MessageSHM} {chunk : List UInt8}
      {attempt : Shmem.Attempt} {headers : List MetaHeader}
      (isObject : message.object = .shm object chunk)
      (taken : (object.sendImpl attempt).packet = some headers) :
      Sent .shm (.msg message) (.chunks (headers.map (readAt object chunk)))
  | shmMsgVec {messages : List Message} {objects : List (MessageSHM × List UInt8)}
      {attempt : Shmem.Attempt} {sending : Shmem.Sending} {headers : List MetaHeader}
      (few : messages.length < 2 ^ 32)
      (areObjects : messages.map Message.object =
        objects.map fun object => .shm object.1 object.2)
      (done : Shmem.sendImpl (objects.map Prod.fst) attempt = some sending)
      (taken : sending.packet = some headers) :
      Sent .shm (.msgVec messages)
        (.chunks (objects.zipWith (fun object => readAt object.1 object.2) headers))
  | ofiMsg {message : Message} {object : MessageOFI} (isObject : message.object = .ofi object) :
      Sent .ofi (.msg message) (.payload (object.fData.take object.fSize))

namespace Arguments

def isVector : Arguments → Bool
  | msg _ => false
  | msgVec _ => true

def contents (arguments : Arguments) : List (List UInt8) :=
  arguments.messages.map Message.contents

end Arguments

/-- A receiver gets the parts with their sizes and bytes, by the overload that they were sent
with.  Zero bytes of shared memory are an empty message, but a vector without parts. -/
def Packet.Carries (vector : Bool) (parts : List (List UInt8)) : Packet → Prop
  | .frames sent => sent = Zeromq.framesOf parts
  | .payload bytes =>
      if vector then ∀ unpacker : Unpacker, unpacker.Reads bytes parts true else parts = [bytes]
  | .chunks found => found = parts.map some ∨ (vector = false ∧ found = [] ∧ parts = [[]])

namespace MessageObject

/-- Any `Send` of the message takes the bytes that `GetData` and `GetSize` show. -/
def Intact : MessageObject → Prop
  | zmq message => message.sentBytes = message.contents
  | nn message => message.payload = message.contents ∧ message.fSize < 2 ^ 32
  | shm message _ => message.fMessage = ⟨true, message.header⟩
  | ofi _ => True

def Hollow : MessageObject → Prop
  | shm message _ => message.fMessage.filled = false ∧ message.fSize = 0
  | _ => False

/-- A part of shared memory whose `zmq_msg_t` has its header in its bytes, if only because both
have no size. -/
def Inlined : MessageObject → Prop
  | shm message _ =>
      message.fMessage.bytes.fSize = message.fSize ∧
        (message.fSize ≠ 0 → message.fMessage.bytes = message.header)
  | _ => False

end MessageObject

def MessageObject.Fits (vector : Bool) (number : Nat) (object : MessageObject) : Prop :=
  object.Intact ∨ if vector then number ≠ 1 ∧ object.Inlined else object.Hollow

structure Arguments.Sendable (arguments : Arguments) : Prop where
  few : arguments.messages.length < 2 ^ 32
  fits : ∀ message ∈ arguments.messages,
    message.object.Fits arguments.isVector arguments.messages.length

section Sent

variable {transport : Transport} {message : Message} {messages : List Message}
  {arguments : Arguments} {packet : Packet}

theorem readAt_eq {object : MessageSHM} {chunk : List UInt8} {header : MetaHeader}
    (sized : header.fSize = object.fSize) (leads : object.fSize ≠ 0 → header = object.header)
    (readable : object.fSize ≤ chunk.length) :
    readAt object chunk header = some (chunk.take object.fSize) := by
  by_cases empty : object.fSize = 0
  · rw [readAt, sized, if_pos empty, empty, List.take_zero]
  · rw [leads empty, readAt]
    exact (if_neg empty).trans (if_pos ⟨rfl, rfl, readable⟩)

theorem contents_of_object {object : MessageObject} (isObject : message.object = object) :
    message.contents = object.getData.take object.getSize := by
  subst isObject
  rfl

theorem MessageObject.Fits.intact {vector : Bool} {number : Nat} {object : MessageObject}
    (fits : object.Fits vector number) (other : object.getType ≠ .shm) : object.Intact := by
  rcases fits with intact | shared
  · exact intact
  · cases object with
    | shm message chunk => exact absurd rfl other
    | zmq | nn | ofi =>
        cases vector with
        | false => cases shared
        | true => cases shared.2

theorem map_objects {α β : Type} {make : α → MessageObject} {objects : List α}
    (areObjects : messages.map Message.object = objects.map make) (view : MessageObject → β) :
    messages.map (fun message => view message.object) =
      objects.map fun object => view (make object) := by
  have viewed := congrArg (List.map view) areObjects
  simpa only [List.map_map, Function.comp_def] using viewed

theorem forall_objects {α : Type} {make : α → MessageObject} {objects : List α}
    (areObjects : messages.map Message.object = objects.map make) (holds : MessageObject → Prop)
    (each : ∀ message ∈ messages, holds message.object) :
    ∀ object ∈ objects, holds (make object) := by
  intro object member
  have listed : make object ∈ messages.map Message.object := by
    rw [areObjects]
    exact List.mem_map_of_mem member
  obtain ⟨message, isMessage, same⟩ := List.mem_map.mp listed
  rw [← same]
  exact each message isMessage

theorem fits_objects {α : Type} {make : α → MessageObject} {objects : List α}
    (areObjects : messages.map Message.object = objects.map make)
    (sendable : (Arguments.msgVec messages).Sendable) :
    objects.length < 2 ^ 32 ∧ ∀ object ∈ objects, (make object).Fits true objects.length := by
  have lengths : messages.length = objects.length := by
    simpa only [List.length_map] using congrArg List.length areObjects
  rw [← lengths]
  exact ⟨sendable.few, forall_objects areObjects _ sendable.fits⟩

theorem readable_objects {α : Type} {make : α → MessageObject} {objects : List α}
    (areObjects : messages.map Message.object = objects.map make) :
    ∀ object ∈ objects, (make object).getSize ≤ (make object).getData.length :=
  forall_objects areObjects (fun object => object.getSize ≤ object.getData.length)
    fun message _ => message.readable

theorem sendImpl_taken {object : MessageSHM} {attempt : Shmem.Attempt} {headers : List MetaHeader}
    (taken : (object.sendImpl attempt).packet = some headers) :
    headers = if object.fMessage.filled then [object.fMessage.bytes] else [] := by
  cases attempt with
  | again => cases taken
  | failed => cases taken
  | accepted =>
      simp only [MessageSHM.sendImpl] at taken
      split at taken
      · cases taken
      · cases filled : object.fMessage.filled <;> simpa [filled, eq_comm] using taken

theorem sendImpl_intact {object : MessageSHM} {attempt : Shmem.Attempt}
    {headers : List MetaHeader} (intact : object.fMessage = ⟨true, object.header⟩)
    (taken : (object.sendImpl attempt).packet = some headers) : headers = [object.header] := by
  rw [sendImpl_taken taken, intact]
  rfl

theorem sendImpl_hollow {object : MessageSHM} {attempt : Shmem.Attempt}
    {headers : List MetaHeader} (unfilled : object.fMessage.filled = false)
    (taken : (object.sendImpl attempt).packet = some headers) : headers = [] := by
  rw [sendImpl_taken taken, unfilled]
  rfl

theorem shmMsg_carries {object : MessageSHM} {chunk : List UInt8} {attempt : Shmem.Attempt}
    {headers : List MetaHeader} (isObject : message.object = .shm object chunk)
    (taken : (object.sendImpl attempt).packet = some headers)
    (fits : message.object.Fits false 1) :
    (Packet.chunks (headers.map (readAt object chunk))).Carries false [message.contents] := by
  have contents : message.contents = chunk.take object.fSize := contents_of_object isObject
  have readable : object.fSize ≤ chunk.length := by
    have whole := message.readable
    rw [isObject] at whole
    exact whole
  rw [isObject] at fits
  rcases fits with intact | ⟨unfilled, empty⟩
  · have isHeaders := sendImpl_intact intact taken
    subst isHeaders
    apply Or.inl
    rw [contents, List.map_singleton, readAt_eq rfl (fun _ => rfl) readable]
    rfl
  · have isHeaders := sendImpl_hollow unfilled taken
    subst isHeaders
    rw [contents, empty, List.take_zero]
    exact .inr ⟨rfl, rfl, rfl⟩

theorem sendImpl_headers {objects : List MessageSHM} {attempt : Shmem.Attempt}
    {sending : Shmem.Sending} {headers : List MetaHeader} (few : objects.length < 2 ^ 32)
    (alone : ∀ object, objects = [object] → object.fMessage = ⟨true, object.header⟩)
    (done : Shmem.sendImpl objects attempt = some sending)
    (taken : sending.packet = some headers) :
    headers = objects.map fun object => object.fMessage.bytes := by
  by_cases one : objects.length = 1
  · obtain ⟨object, rfl⟩ := List.length_eq_one_iff.mp one
    cases done
    rw [sendImpl_intact (alone object rfl) taken, List.map_singleton, alone object rfl]
  · rw [Shmem.sendImpl_several one few] at done
    cases attempt <;> cases done <;> cases taken
    rfl

theorem shmMsgVec_carries {objects : List (MessageSHM × List UInt8)} {attempt : Shmem.Attempt}
    {sending : Shmem.Sending} {headers : List MetaHeader} (few : messages.length < 2 ^ 32)
    (areObjects : messages.map Message.object = objects.map fun object => .shm object.1 object.2)
    (done : Shmem.sendImpl (objects.map Prod.fst) attempt = some sending)
    (taken : sending.packet = some headers)
    (sendable : (Arguments.msgVec messages).Sendable) :
    (Packet.chunks (objects.zipWith (fun object => readAt object.1 object.2) headers)).Carries true
      (messages.map Message.contents) := by
  have contents : messages.map Message.contents =
      objects.map fun object => object.2.take object.1.fSize :=
    map_objects areObjects fun object => object.getData.take object.getSize
  have readable := readable_objects areObjects
  have ready := (fits_objects areObjects sendable).2
  have lengths := congrArg List.length areObjects
  simp only [List.length_map] at lengths
  have isHeaders := sendImpl_headers (by rwa [List.length_map, ← lengths]) ?_ done taken
  · apply Or.inl
    rw [isHeaders, contents, List.map_map, List.map_map, List.zipWith_map_right,
      List.zipWith_self]
    apply List.map_congr_left
    intro object member
    rcases ready object member with intact | ⟨_, sized, leads⟩
    · have bytes := congrArg Shmem.ZmqMsg.bytes intact
      exact readAt_eq (congrArg MetaHeader.fSize bytes) (fun _ => bytes) (readable object member)
    · exact readAt_eq sized leads (readable object member)
  · intro object one
    obtain ⟨pair, rfl, rfl⟩ := List.map_eq_singleton_iff.mp one
    rcases ready pair (List.mem_singleton_self pair) with intact | ⟨several, _⟩
    · exact intact
    · exact absurd rfl several

theorem sent_carries (sendable : arguments.Sendable) (sent : Sent transport arguments packet) :
    packet.Carries arguments.isVector arguments.contents := by
  cases sent with
  | @zmqMsg message object transfer outcomes sending isObject done success =>
      have contents : message.contents = object.contents := contents_of_object isObject
      have fits := sendable.fits message (List.mem_singleton_self message)
      rw [isObject] at fits
      have intact : object.sentBytes = object.contents := fits.intact nofun
      have taken : sending.frames = [⟨object.sentBytes, false⟩] :=
        ((Zeromq.sendLoop_ends done).success success).1
      rw [intact, ← contents] at taken
      exact taken
  | @zmqMsgVec messages objects transfer outcomes sending areObjects obeyed done success =>
      have contents : messages.map Message.contents = objects.map MessageZMQ.contents :=
        map_objects areObjects fun object => object.getData.take object.getSize
      obtain ⟨few, fits⟩ := fits_objects areObjects sendable
      have intact : ∀ object ∈ objects, object.sentBytes = object.contents := fun object member =>
        (fits object member).intact nofun
      have taken := ((Zeromq.sendVector_ends obeyed done).success success).1
      rw [Zeromq.addressed_of_lt few, List.map_congr_left intact, ← contents] at taken
      exact taken
  | @nnMsg message object transfer outcomes sending bytes isObject done taken =>
      have contents : message.contents = object.contents := contents_of_object isObject
      have fits := sendable.fits message (List.mem_singleton_self message)
      rw [isObject] at fits
      have intact : object.payload = object.contents := (fits.intact nofun).1
      have isBytes := object.sendImpl_taken done taken
      rw [intact, ← contents] at isBytes
      subst isBytes
      rfl
  | @nnMsgVec messages objects transfer outcomes sending bytes few areObjects done taken =>
      have contents : messages.map Message.contents = objects.map MessageNN.contents :=
        map_objects areObjects fun object => object.getData.take object.getSize
      have packable : ∀ object ∈ objects, object.Packable := by
        intro object member
        have intact := ((fits_objects areObjects sendable).2 object member).intact nofun
        exact ⟨readable_objects areObjects object member, intact.2⟩
      rw [(Nanomsg.sendImpl_taken done taken).1, Arguments.contents, Arguments.messages, contents]
      intro unpacker
      exact Nanomsg.reads_packed unpacker packable
  | shmMsg isObject taken =>
      exact shmMsg_carries isObject taken (sendable.fits _ (List.mem_singleton_self _))
  | shmMsgVec few areObjects done taken =>
      exact shmMsgVec_carries few areObjects done taken sendable
  | @ofiMsg message object isObject =>
      have contents : message.contents = object.fData.take object.fSize :=
        contents_of_object isObject
      rw [← contents]
      rfl

end Sent

inductive Received : Bool → MessageObject → Prop where
  | zmq (alone : Bool) (payload : List UInt8) :
      Received alone (.zmq (MessageZMQ.new.setMessage payload))
  | nnMsg {payload : List UInt8} {transfer : Zeromq.Transfer} {outcomes : List Nanomsg.Outcome}
      {message : MessageNN} {result : Int}
      (done : Nanomsg.receiveImpl transfer payload .new 0 outcomes = some (message, result))
      (success : 0 ≤ result) : Received true (.nn message)
  | nnPart (bytes : List UInt8) : Received false (.nn (.received bytes))
  | shmMsg {leftover : MetaHeader} {headers : List MetaHeader} {message : MessageSHM}
      (done : MessageSHM.newMessage.receiveImpl leftover headers = some message)
      (chunk : List UInt8) : Received true (.shm message chunk)
  | shmPart (header : MetaHeader) (chunk : List UInt8) : Received false (.shm (.ofHeader header) chunk)
  | ofi (alone : Bool) (message : MessageOFI) : Received alone (.ofi message)

def Arguments.IsReceived (arguments : Arguments) : Prop :=
  ∀ message ∈ arguments.messages, Received (!arguments.isVector) message.object

/-- What `CreateMessage()` and then `Copy` make of a message.  `Copy` takes every message for one
of its own transport, and that of ofi throws.  The memory is that of `createMessage`. -/
def copyObject (transport : Transport) (memory : Option Int) (source : MessageObject) :
    Option MessageObject :=
  match transport, source with
  | .zmq, .zmq source => (MessageZMQ.new.copy source).map .zmq
  | .nn, .nn source => some (.nn (MessageNN.new.copy source memory.isSome))
  | .shm, .shm source chunk =>
      some (.shm (MessageSHM.newMessage.copy source memory)
        (if source.fHandle ≠ 0 ∧ memory.isSome then chunk.take source.fSize else []))
  | _, _ => none

def Message.ofObject (object : MessageObject) : Option Message :=
  if readable : object.getSize ≤ object.getData.length then some ⟨object, readable⟩ else none

def copyMessage (transport : Transport) (memory : Option Int) (source : Message) :
    Option Message :=
  (copyObject transport memory source.object).bind Message.ofObject

/-- A message of shared memory at the handle 0 passes for one that is not initialised. -/
def MessageObject.AtZero : MessageObject → Prop
  | shm message _ => message.fHandle = 0
  | _ => False

instance (object : MessageObject) : Decidable object.AtZero :=
  match object with
  | .shm message _ => inferInstanceAs (Decidable (message.fHandle = 0))
  | .zmq _ | .nn _ | .ofi _ => inferInstanceAs (Decidable False)

theorem getType_of_atZero {object : MessageObject} (zero : object.AtZero) :
    object.getType = .shm := by
  cases object with
  | shm message chunk => rfl
  | zmq | nn | ofi => cases zero

/-- There is a copy with the bytes of the message, unless that passes for one that is not
initialised; then the copy stays empty. -/
def Copied (transport : Transport) (handle : Int) (source : Message) : Prop :=
  ∃ copy, copyMessage transport (some handle) source = some copy ∧ copy.getType = transport ∧
    if source.object.AtZero then copy.object = .shm .newMessage []
    else copy.object.Intact ∧ copy.contents = source.contents

section Copies

variable {transport : Transport} {memory : Option Int} {alone : Bool} {source : Message}

theorem copyMessage_eq {copy : Message}
    (copies : copyObject transport memory source.object = some copy.object) :
    copyMessage transport memory source = some copy := by
  rw [copyMessage, copies, Option.bind_some]
  exact dif_pos copy.readable

theorem copyObject_of_copyMessage {copy : Message}
    (copies : copyMessage transport memory source = some copy) :
    copyObject transport memory source.object = some copy.object := by
  obtain ⟨object, isObject, isCopy⟩ := Option.bind_eq_some_iff.mp copies
  unfold Message.ofObject at isCopy
  split at isCopy
  · cases isCopy
    exact isObject
  · cases isCopy

theorem copyMessage_type {copy : Message}
    (copies : copyMessage transport memory source = some copy) : copy.getType = transport := by
  have isObject := copyObject_of_copyMessage copies
  unfold copyObject at isObject
  unfold Message.getType
  split at isObject
  · obtain ⟨_, _, same⟩ := Option.map_eq_some_iff.mp isObject
    rw [← same]
    rfl
  · rw [← Option.some.inj isObject]
    rfl
  · rw [← Option.some.inj isObject]
    rfl
  · cases isObject

theorem copyMessage_foreign (foreign : source.getType ≠ transport) :
    copyMessage transport memory source = none := by
  obtain ⟨object, readable⟩ := source
  cases transport <;> cases object <;> first | rfl | exact absurd rfl foreign

theorem copyMessage_ofi : copyMessage .ofi memory source = none := by
  obtain ⟨object, readable⟩ := source
  cases object <;> rfl

theorem copied_zmq {payload : List UInt8} (handle : Int)
    (isObject : source.object = .zmq (.ofData payload)) : Copied .zmq handle source := by
  obtain ⟨object, readable⟩ := source
  cases isObject
  have intact : MessageObject.Intact (.zmq (.ofData payload)) := List.take_length.symm
  exact ⟨⟨_, readable⟩, copyMessage_eq rfl, rfl, intact, rfl⟩

theorem copied_nn {object : MessageNN} (handle : Int) (isObject : source.object = .nn object)
    (short : object.fSize < 2 ^ 32) : Copied .nn handle source := by
  obtain ⟨isSource, readable⟩ := source
  cases isObject
  have length : object.contents.length = object.fSize := List.length_take_of_le readable
  have whole : object.contents.take object.fSize = object.contents :=
    List.take_of_length_le length.le
  let copy : Message := ⟨.nn ⟨object.contents, object.fSize, 0, false, none⟩, length.ge⟩
  have intact : copy.object.Intact := ⟨whole.symm, short⟩
  exact ⟨copy, copyMessage_eq rfl, rfl, intact, whole⟩

theorem copied_shm {object : MessageSHM} {chunk : List UInt8} (handle : Int)
    (isObject : source.object = .shm object chunk) : Copied .shm handle source := by
  obtain ⟨isSource, readable⟩ := source
  cases isObject
  by_cases zero : object.fHandle = 0
  · let copy : Message := ⟨.shm .newMessage [], Nat.zero_le _⟩
    have copies : copyObject .shm (some handle) (.shm object chunk) = some copy.object := by
      simp [copyObject, MessageSHM.copy, zero, copy]
    exact ⟨copy, copyMessage_eq copies, rfl, (if_pos zero).mpr rfl⟩
  · have length : (chunk.take object.fSize).length = object.fSize :=
      List.length_take_of_le readable
    have whole : (chunk.take object.fSize).take object.fSize = chunk.take object.fSize :=
      List.take_of_length_le length.le
    let copy : Message :=
      ⟨.shm (MessageSHM.describe { MessageSHM.newMessage with fHandle := handle } object.fSize)
        (chunk.take object.fSize), length.ge⟩
    have copies : copyObject .shm (some handle) (.shm object chunk) = some copy.object := by
      rw [copyObject, MessageSHM.copy_allocated (by decide) zero]
      simp [zero, copy]
    have intact : copy.object.Intact := rfl
    exact ⟨copy, copyMessage_eq copies, rfl, (if_neg zero).mpr ⟨intact, whole⟩⟩

theorem copied_received (received : Received alone source.object)
    (plain : source.getType ≠ .ofi) (short : source.getType = .nn → source.getSize < 2 ^ 32)
    (handle : Int) : Copied source.getType handle source := by
  unfold Message.getType Message.getSize at *
  cases isObject : source.object with
  | zmq object =>
      rw [isObject] at received
      cases received with
      | zmq alone payload => exact copied_zmq handle isObject
  | nn object =>
      rw [isObject] at short
      exact copied_nn handle isObject (short rfl)
  | shm object chunk => exact copied_shm handle isObject
  | ofi object =>
      rw [isObject] at plain
      exact absurd rfl plain

end Copies

section Inputs

variable {transport : Transport} {alone : Bool} {object : MessageObject}

theorem received_nn {message : MessageNN} (received : Received alone (.nn message))
    (short : message.fMessage.length < 2 ^ 31) : MessageObject.Intact (.nn message) := by
  suffices sized : message.fRegionPtr = none ∧ message.fSize = message.fMessage.length by
    have whole : message.contents = message.fMessage := by
      rw [MessageNN.contents, sized.2, List.take_length]
    refine ⟨?_, by omega⟩
    rw [MessageNN.payload, sized.1, whole]
  cases received with
  | @nnMsg payload transfer outcomes message result done success =>
      have isMessage := Nanomsg.receiveImpl_success done success
      subst isMessage
      refine ⟨rfl, ?_⟩
      dsimp only at short ⊢
      rw [Nanomsg.count, Data.toInt32_of_lt short, Data.toUint64]
      omega
  | nnPart bytes => exact ⟨rfl, rfl⟩

theorem received_sendable (received : Received alone object)
    (short : object.getType = .nn → object.getData.length < 2 ^ 31) :
    object.Intact ∨ (if alone then object.Hollow else object.Inlined) := by
  cases object with
  | zmq message =>
      cases received with
      | zmq alone payload => exact .inl List.take_length.symm
  | nn message => exact .inl (received_nn received (short rfl))
  | shm message chunk =>
      cases received with
      | @shmMsg leftover headers message done chunk =>
          match headers with
          | [] =>
              cases done
              exact .inr ⟨rfl, rfl⟩
          | [header] =>
              cases done
              exact .inl rfl
      | shmPart header chunk => exact .inr ⟨rfl, fun _ => rfl⟩
  | ofi message => exact .inl trivial

end Inputs

def MessageObject.Created : MessageObject → Prop
  | shm message _ => message.fMetaCreated = true
  | _ => False

section Headers

variable {message : Message} {messages : List Message} {arguments : Arguments} {packet : Packet}

theorem copyMessage_created {memory : Option Int} {source copy : Message}
    (copies : copyMessage .shm memory source = some copy) : copy.object.Created := by
  have isObject := copyObject_of_copyMessage copies
  cases known : source.object with
  | shm object chunk =>
      rw [known] at isObject
      rw [← Option.some.inj isObject]
      exact MessageSHM.copy_created rfl object memory
  | zmq | nn | ofi =>
      rw [known] at isObject
      cases isObject

theorem received_created {alone : Bool} {object : MessageObject}
    (received : Received alone object) (shared : object.getType = .shm) : object.Created := by
  cases received with
  | @shmMsg leftover headers message done chunk =>
      match headers with
      | [] =>
          cases done
          rfl
      | [header] =>
          cases done
          rfl
  | shmPart header chunk => rfl
  | zmq | nnMsg | nnPart | ofi => cases shared

theorem sendImpl_created {object : MessageSHM} (created : object.fMetaCreated = true) :
    ∃ headers, (object.sendImpl .accepted).packet = some headers := by
  rw [MessageSHM.sendImpl, created]
  cases object.fMessage.filled with
  | false => exact ⟨[], rfl⟩
  | true => exact ⟨[object.fMessage.bytes], rfl⟩

theorem created_objects (created : ∀ message ∈ messages, message.object.Created) :
    ∃ objects : List (MessageSHM × List UInt8),
      messages.map Message.object = objects.map (fun object => .shm object.1 object.2) ∧
      ∀ object ∈ objects, object.1.fMetaCreated = true := by
  induction messages with
  | nil => exact ⟨[], rfl, nofun⟩
  | cons message messages ih =>
      obtain ⟨first, others⟩ := List.forall_mem_cons.mp created
      obtain ⟨objects, areObjects, valid⟩ := ih others
      cases isObject : message.object with
      | shm object chunk =>
          rw [isObject] at first
          refine ⟨(object, chunk) :: objects, ?_, List.forall_mem_cons.mpr ⟨first, valid⟩⟩
          rw [List.map_cons, List.map_cons, isObject, areObjects]
      | zmq | nn | ofi =>
          rw [isObject] at first
          cases first

theorem can_send (few : arguments.messages.length < 2 ^ 32)
    (created : ∀ message ∈ arguments.messages, message.object.Created) :
    ∃ packet, Sent .shm arguments packet := by
  cases arguments with
  | msg message =>
      cases isObject : message.object with
      | shm object chunk =>
          have valid := created message (List.mem_singleton_self message)
          rw [isObject] at valid
          obtain ⟨headers, taken⟩ := sendImpl_created valid
          exact ⟨_, .shmMsg isObject taken⟩
      | zmq | nn | ofi =>
          have valid := created message (List.mem_singleton_self message)
          rw [isObject] at valid
          cases valid
  | msgVec messages =>
      obtain ⟨objects, areObjects, valid⟩ := created_objects created
      have lengths := congrArg List.length areObjects
      simp only [List.length_map] at lengths
      by_cases one : objects.length = 1
      · obtain ⟨object, rfl⟩ := List.length_eq_one_iff.mp one
        obtain ⟨headers, taken⟩ := sendImpl_created (valid object (List.mem_singleton_self object))
        exact ⟨_, .shmMsgVec few areObjects (Shmem.sendImpl_one _ _) taken⟩
      · have done := @Shmem.sendImpl_several (objects.map Prod.fst) (by rwa [List.length_map])
          (by rwa [List.length_map, ← lengths]) .accepted
        exact ⟨_, .shmMsgVec few areObjects done rfl⟩

theorem objects_of_singleton {objects : List (MessageSHM × List UInt8)}
    {object : MessageSHM} {chunk : List UInt8} (isObject : message.object = .shm object chunk)
    (areObjects : [message].map Message.object =
      objects.map fun object => .shm object.1 object.2) : objects = [(object, chunk)] := by
  rw [List.map_singleton, isObject, eq_comm, List.map_eq_singleton_iff] at areObjects
  obtain ⟨pair, rfl, same⟩ := areObjects
  cases same
  rfl

theorem sent_unfilled {object : MessageSHM} {chunk : List UInt8}
    (isObject : message.object = .shm object chunk) (unfilled : object.fMessage.filled = false)
    (alone : arguments.messages = [message]) (sent : Sent .shm arguments packet) :
    packet = .chunks [] := by
  cases sent with
  | @shmMsg other object chunk attempt headers isOther taken =>
      cases List.singleton_inj.mp alone
      cases isObject.symm.trans isOther
      rw [sendImpl_hollow unfilled taken]
      rfl
  | @shmMsgVec messages objects attempt sending headers few areObjects done taken =>
      cases alone
      cases objects_of_singleton isObject areObjects
      cases done
      rw [sendImpl_hollow unfilled taken]
      rfl

theorem sent_blank {vector : Bool} {parts : List (List UInt8)} {k : Nat}
    (blank : message.object = .shm .newMessage [])
    (found : arguments.messages[k]? = some message) (sent : Sent .shm arguments packet)
    (carries : packet.Carries vector parts)
    (length : parts.length = arguments.messages.length) : parts[k]? = some [] := by
  by_cases alone : arguments.messages.length = 1
  · obtain ⟨only, isOnly⟩ := List.length_eq_one_iff.mp alone
    obtain ⟨part, isPart⟩ := List.length_eq_one_iff.mp (length.trans alone)
    have first : k = 0 := by
      have bound := (List.getElem?_eq_some_iff.mp found).1
      omega
    subst first
    rw [isOnly] at found
    cases found
    cases sent_unfilled blank rfl isOnly sent
    rw [isPart] at carries ⊢
    rcases carries with none | ⟨_, _, empty⟩
    · cases none
    · cases empty
      rfl
  · cases sent with
    | shmMsg => exact absurd rfl alone
    | @shmMsgVec messages objects attempt sending headers few areObjects done taken =>
        have lengths := congrArg List.length areObjects
        simp only [List.length_map] at lengths
        have isHeaders : headers = _ := sendImpl_headers (by rwa [List.length_map, ← lengths])
          (fun object one => by
            have single := congrArg List.length one
            rw [List.length_map, ← lengths] at single
            exact absurd single alone) done taken
        have place := congrArg (·[k]?) areObjects
        simp only [List.getElem?_map] at place
        change messages[k]? = some message at found
        rw [found, Option.map_some, blank, eq_comm, Option.map_eq_some_iff] at place
        obtain ⟨⟨object, chunk⟩, isPlace, isBlank⟩ := place
        cases isBlank
        rcases carries with all | ⟨_, _, single⟩
        · rw [isHeaders, List.map_map, List.zipWith_map_right, List.zipWith_self] at all
          have read := congrArg (·[k]?) all
          simp only [List.getElem?_map, isPlace, Option.map_some] at read
          obtain ⟨part, isPart, empty⟩ := Option.map_eq_some_iff.mp read.symm
          rw [isPart, Option.some.inj empty]
        · rw [single] at length
          exact absurd length.symm alone

end Headers

structure Forwards (input arguments : Arguments) : Prop where
  overload : arguments.isVector = input.isVector
  contents : arguments.contents = input.contents
  sendable : arguments.Sendable

def Replaces (input : Arguments) (message original : Message) : Prop :=
  message.object.Fits input.isVector input.messages.length ∧
    message.contents = original.contents

theorem Forwards.carries {transport : Transport} {input arguments : Arguments} {packet : Packet}
    (forwards : Forwards input arguments) (sent : Sent transport arguments packet) :
    packet.Carries input.isVector input.contents := by
  rw [← forwards.overload, ← forwards.contents]
  exact sent_carries forwards.sendable sent

section Checks

variable {compatible : Nat → Message → Option Message} {arguments : Arguments}

theorem check_passes (related : Message → Message → Prop)
    (each : ∀ i, ∀ message ∈ arguments.messages,
      ∃ passed, compatible i message = some passed ∧ related passed message) :
    ∃ passed, arguments.check compatible = some passed ∧ passed.isVector = arguments.isVector ∧
      List.Forall₂ related passed.messages arguments.messages := by
  cases arguments with
  | msg message =>
      obtain ⟨passed, isPassed, good⟩ := each 0 message (List.mem_singleton_self message)
      exact ⟨.msg passed, by simp [Arguments.check, isPassed], rfl, .cons good .nil⟩
  | msgVec messages =>
      suffices all : ∀ start, ∃ passed,
          (messages.zipIdx start).mapM (fun (message, i) => compatible i message) = some passed ∧
            List.Forall₂ related passed messages by
        obtain ⟨passed, arePassed, good⟩ := all 0
        exact ⟨.msgVec passed, by simp [Arguments.check, arePassed], rfl, good⟩
      simp only [Arguments.messages] at each
      induction messages with
      | nil => exact fun _ => ⟨[], rfl, .nil⟩
      | cons message messages ih =>
          intro start
          obtain ⟨first, isFirst, good⟩ := each start message List.mem_cons_self
          obtain ⟨others, areOthers, allGood⟩ :=
            ih (fun i other member => each i other (List.mem_cons_of_mem _ member)) (start + 1)
          refine ⟨first :: others, ?_, .cons good allGood⟩
          simp [List.zipIdx_cons, isFirst, areOthers]

theorem check_fails {message : Message} (member : message ∈ arguments.messages)
    (fails : ∀ i, compatible i message = none) : arguments.check compatible = none := by
  cases checked : arguments.check compatible with
  | none => rfl
  | some passed =>
      obtain ⟨i, found⟩ := List.mem_iff_getElem?.mp member
      obtain ⟨length, each⟩ := Arguments.check_each checked
      have bound := (List.getElem?_eq_some_iff.mp found).1
      rw [← length] at bound
      have missing := each i
      rw [found, Option.bind_some, fails i, List.getElem?_eq_none_iff] at missing
      omega

theorem check_mem {passed : Arguments} (checked : arguments.check compatible = some passed)
    {message : Message} (member : message ∈ passed.messages) :
    ∃ i, ∃ original ∈ arguments.messages, compatible i original = some message := by
  obtain ⟨i, found⟩ := List.mem_iff_getElem?.mp member
  rw [(Arguments.check_each checked).2 i] at found
  obtain ⟨original, place, isMessage⟩ := Option.bind_eq_some_iff.mp found
  exact ⟨i, original, List.mem_of_getElem? place, isMessage⟩

theorem check_unchanged
    (each : ∀ i, ∀ message ∈ arguments.messages, compatible i message = some message) :
    arguments.check compatible = some arguments := by
  obtain ⟨passed, checked, overload, same⟩ :=
    check_passes Eq fun i message member => ⟨message, each i message member, rfl⟩
  rw [List.forall₂_eq_eq_eq] at same
  rw [checked]
  cases passed <;> cases arguments <;> simp_all [Arguments.messages, Arguments.isVector]

theorem check_forwards (few : arguments.messages.length < 2 ^ 32)
    (each : ∀ i, ∀ message ∈ arguments.messages,
      ∃ passed, compatible i message = some passed ∧ Replaces arguments passed message) :
    ∃ passed, arguments.check compatible = some passed ∧ Forwards arguments passed := by
  obtain ⟨passed, checked, overload, replaced⟩ := check_passes (Replaces arguments) each
  have length := replaced.length_eq
  obtain ⟨fits, same⟩ := (List.forall₂_and_left _ _).mp replaced
  refine ⟨passed, checked, overload, ?_, ?_, ?_⟩
  · rw [← List.forall₂_eq_eq_eq, Arguments.contents, Arguments.contents,
      List.forall₂_map_left_iff, List.forall₂_map_right_iff]
    exact same
  · omega
  · rwa [overload, length]

end Checks

section Channels

variable {σ : Type} {channel : Channel σ} {memory : Nat → Option Int} {arguments : Arguments}

theorem createMessage_intact {transport : Transport} (plain : transport ≠ .default)
    {bytes : List UInt8} (short : transport = .nn → bytes.length < 2 ^ 32) (handle : Int) :
    ∃ message, createMessage transport (some handle) bytes = some message ∧
      message.object.Intact ∧ message.contents = bytes := by
  cases transport with
  | default => exact absurd rfl plain
  | ofi => exact ⟨_, rfl, trivial, List.take_length⟩
  | zmq =>
      have whole : bytes.take bytes.length = bytes := List.take_length
      exact ⟨_, rfl, whole.symm, whole⟩
  | nn =>
      have whole : bytes.take bytes.length = bytes := List.take_length
      exact ⟨_, rfl, ⟨whole.symm, short rfl⟩, whole⟩
  | shm => exact ⟨_, rfl, rfl, List.take_length⟩

theorem send_own (own : ∀ message ∈ arguments.messages, message.getType = channel.fTransportType) :
    channel.send memory arguments = some ⟨.send, arguments⟩ := by
  have each : ∀ i, ∀ message ∈ arguments.messages,
      channel.checkSendCompatibility memory i message = some message := by
    intro i message member
    exact if_neg (not_not.mpr (own message member).symm)
  rw [Channel.send, Channel.transfer, check_unchanged each]
  rfl

/-- A received message of shared memory that is alone in a vector would be sent without its
header. -/
def Unaccompanied (arguments : Arguments) : Prop :=
  ∃ message, arguments = .msgVec [message] ∧ message.getType = .shm

theorem getType_of_inlined {object : MessageObject} (inlined : object.Inlined) :
    object.getType = .shm := by
  cases object with
  | shm message chunk => rfl
  | zmq | nn | ofi => cases inlined

theorem length_ne_one_of_accompanied {messages : List Message} {message : Message}
    (member : message ∈ messages) (shared : message.getType = .shm)
    (accompanied : ¬ Unaccompanied (.msgVec messages)) : messages.length ≠ 1 := by
  intro one
  obtain ⟨single, rfl⟩ := List.length_eq_one_iff.mp one
  cases List.mem_singleton.mp member
  exact accompanied ⟨message, rfl, shared⟩

theorem received_fits (received : arguments.IsReceived) {message : Message}
    (member : message ∈ arguments.messages)
    (short : message.getType = .nn → message.object.getData.length < 2 ^ 31)
    (accompanied : message.getType = .shm → ¬ Unaccompanied arguments) :
    message.object.Fits arguments.isVector arguments.messages.length := by
  rcases received_sendable (received message member) short with intact | other
  · exact .inl intact
  · apply Or.inr
    cases arguments with
    | msg original => exact other
    | msgVec messages =>
        have shared := getType_of_inlined other
        exact ⟨length_ne_one_of_accompanied member shared (accompanied shared), other⟩

theorem send_received (created : channel.fTransportFactory = some channel.fTransportType)
    (plain : channel.fTransportType ≠ .default) (supplied : ∀ i, (memory i).isSome)
    (few : arguments.messages.length < 2 ^ 32) (received : arguments.IsReceived)
    (short : channel.fTransportType = .nn →
      ∀ message ∈ arguments.messages, message.object.getData.length < 2 ^ 31)
    (accompanied : channel.fTransportType = .shm → ¬ Unaccompanied arguments) :
    ∃ passed, channel.send memory arguments = some ⟨.send, passed⟩ ∧
      Forwards arguments passed := by
  have each : ∀ i, ∀ message ∈ arguments.messages, ∃ passed,
      channel.checkSendCompatibility memory i message = some passed ∧
        Replaces arguments passed message := by
    intro i message member
    by_cases own : message.getType = channel.fTransportType
    · have fits := received_fits received member
        (fun isNn => short (own ▸ isNn) message member) fun shared => accompanied (own ▸ shared)
      exact ⟨message, if_neg (not_not.mpr own.symm), fits, rfl⟩
    · obtain ⟨handle, isHandle⟩ := Option.isSome_iff_exists.mp (supplied i)
      have size : channel.fTransportType = .nn → message.contents.length < 2 ^ 32 := by
        intro isNn
        have fits := short isNn message member
        have readable := message.readable
        rw [message.contents_length, Message.getSize]
        omega
      obtain ⟨wrapper, isWrapper, intact, same⟩ := createMessage_intact plain size handle
      refine ⟨wrapper, ?_, .inl intact, same⟩
      rw [Channel.checkSendCompatibility, if_pos (Ne.symm own), created, isHandle]
      exact isWrapper
  obtain ⟨passed, checked, forwards⟩ := check_forwards few each
  refine ⟨passed, ?_, forwards⟩
  rw [Channel.send, Channel.transfer, checked]
  rfl

end Channels

end FairMQ.Channels
