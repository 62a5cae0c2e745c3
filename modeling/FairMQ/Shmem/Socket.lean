import FairMQ.Data.MachineInt
import FairMQ.Shmem.Message
import Mathlib.Algebra.Ring.Nat
import Mathlib.Data.List.Basic

namespace FairMQ.Shmem

open FairMQ.Data

/-- How the loop around `zmq_msg_send` ends. -/
inductive Attempt where
  | accepted
  | again
  | failed
deriving DecidableEq, Repr

structure Sending where
  messages : List MessageSHM
  packet : Option (List MetaHeader)
  result : Int
deriving DecidableEq, Repr

namespace MessageSHM

/-- `SendImpl` for one message.  A message whose constructor was interrupted has no
valid `zmq_msg_t`, which `zmq_msg_send` refuses; of an empty `zmq_msg_t` it sends
zero bytes, and the message is not marked as queued. -/
def sendImpl (message : MessageSHM) : Attempt → Sending
  | .again => ⟨[message], none, -2⟩
  | .failed => ⟨[message], none, -1⟩
  | .accepted =>
      if message.fMetaCreated = false then ⟨[message], none, -1⟩
      else if message.fMessage.filled = false then ⟨[message], some [], 0⟩
      else
        ⟨[{ message with fQueued := true, fMessage := message.fMessage.init }],
          some [message.fMessage.bytes], toInt32 message.fSize⟩

def adopt (message : MessageSHM) (header : MetaHeader) : MessageSHM :=
  { message with
    fHandle := header.fHandle
    fSize := header.fSize
    fRegionId := header.fRegionId
    fHint := header.fHint }

/-- `ReceiveImpl` for one message.  After zero bytes the fields stay and the inline
bytes are whatever the received `zmq_msg_t` held; a packed message runs into the
`assert`. -/
def receiveImpl (message : MessageSHM) (leftover : MetaHeader) : List MetaHeader → Option MessageSHM
  | [] => some { message with fMessage := ⟨false, leftover⟩ }
  | [header] => some { message.adopt header with fMessage := ⟨true, header⟩ }
  | _ :: _ :: _ => none

/-- A part made by the vector `ReceiveImpl`: a new message whose inline bytes are
overwritten while its `zmq_msg_t` stays empty. -/
def ofHeader (header : MetaHeader) : MessageSHM :=
  { newMessage.adopt header with fMessage := { newMessage.fMessage with bytes := header } }

end MessageSHM

/-- The loop of `SendImpl` for a vector whose headers have been packed.  `assert`, which the
default build leaves out, compares the `int` that zmq returns with the bytes of all headers;
it holds for fewer than `2 ^ 26` messages. -/
def sendPacked (messages : List MessageSHM) : Attempt → Sending
  | .again => ⟨messages, none, -2⟩
  | .failed => ⟨messages, none, -1⟩
  | .accepted =>
      ⟨messages.map fun message => { message with fQueued := true },
        some (messages.map fun message => message.fMessage.bytes),
        Int.bmod (messages.map MessageSHM.fSize).sum (2 ^ 64)⟩

/-- `SendImpl` for a vector of messages.  `vecSize` is an `unsigned int`; a `zmq_msg_t` with
room for `vecSize` headers gets one of every message, so a longer vector is written behind
its end. -/
def sendImpl (messages : List MessageSHM) (attempt : Attempt) : Option Sending :=
  let vecSize := messages.length % 2 ^ 32
  if vecSize = 1 then
    messages.getLast?.map fun message =>
      { message.sendImpl attempt with
        messages := messages.dropLast ++ (message.sendImpl attempt).messages }
  else if vecSize = messages.length then some (sendPacked messages attempt)
  else none

def receiveImpl (packet : List MetaHeader) : List MessageSHM :=
  packet.map .ofHeader

section Send

variable {messages : List MessageSHM} {attempt : Attempt} {sending : Sending}

theorem sendImpl_one (message : MessageSHM) (attempt : Attempt) :
    sendImpl [message] attempt = some (message.sendImpl attempt) := rfl

theorem sendImpl_several (several : messages.length ≠ 1) (few : messages.length < 2 ^ 32)
    (attempt : Attempt) : sendImpl messages attempt = some (sendPacked messages attempt) := by
  have vecSize : messages.length % 2 ^ 32 = messages.length := Nat.mod_eq_of_lt few
  simp only [sendImpl, vecSize, if_neg several, if_true]

theorem sendImpl_cases (done : sendImpl messages attempt = some sending) :
    (∃ before message, messages = before ++ [message] ∧ sending =
      { message.sendImpl attempt with
        messages := before ++ (message.sendImpl attempt).messages }) ∨
    (messages.length ≠ 1 ∧ sending = sendPacked messages attempt) := by
  simp only [sendImpl] at done
  split at done
  · obtain ⟨message, last, isSending⟩ := Option.map_eq_some_iff.mp done
    have split := List.dropLast_append_getLast? message last
    exact .inl ⟨messages.dropLast, message, split.symm, isSending.symm⟩
  · split at done
    · rename_i several whole
      cases done
      exact .inr ⟨by omega, rfl⟩
    · contradiction

end Send

end FairMQ.Shmem
