import FairMQ.Channels.Validation
import FairMQ.Options.Parser
import FairMQ.Shmem.Message
import FairMQ.Transports.Nanomsg
import FairMQ.Transports.UsedSize

namespace FairMQ.Channels

open FairMQ.Nanomsg (MessageNN)
open FairMQ.Options (Transport)
open FairMQ.Shmem (MessageSHM)
open FairMQ.Zeromq (MessageZMQ)

structure MessageOFI where
  fSize : Nat
  fData : List UInt8
deriving DecidableEq, Repr

/-- A message of one of the transports; one of shared memory with the bytes of its chunk. -/
inductive MessageObject where
  | zmq (message : MessageZMQ)
  | nn (message : MessageNN)
  | shm (message : MessageSHM) (chunk : List UInt8)
  | ofi (message : MessageOFI)
deriving DecidableEq, Repr

namespace MessageObject

def getType : MessageObject → Transport
  | zmq _ => .zmq
  | nn _ => .nn
  | shm _ _ => .shm
  | ofi _ => .ofi

def getSize : MessageObject → Nat
  | zmq message => message.getSize
  | nn message => message.fSize
  | shm message _ => message.fSize
  | ofi message => message.fSize

def getData : MessageObject → List UInt8
  | zmq message => message.getMessage
  | nn message => message.fMessage
  | shm _ chunk => chunk
  | ofi message => message.fData

end MessageObject

structure Message where
  object : MessageObject
  readable : object.getSize ≤ object.getData.length
deriving DecidableEq, Repr

namespace Message

def getType (message : Message) : Transport := message.object.getType

def getSize (message : Message) : Nat := message.object.getSize

def contents (message : Message) : List UInt8 := message.object.getData.take message.getSize

theorem contents_length (message : Message) : message.contents.length = message.getSize :=
  List.length_take_of_le message.readable

end Message

def newMessage : Transport → Option Message
  | .zmq => some ⟨.zmq .new, Nat.zero_le _⟩
  | .nn => some ⟨.nn .new, Nat.zero_le _⟩
  | .shm => some ⟨.shm .newMessage [], Nat.zero_le _⟩
  | .ofi => some ⟨.ofi ⟨0, []⟩, Nat.zero_le _⟩
  | .default => none

/-- `CreateMessage(data, size, ffn, hint)` for the bytes of another message.  The memory is a
handle for shared memory; it is none if the library has none or if the wait for it is
interrupted, and then the message stays empty.  Ofi takes the pointer. -/
def createMessage (transport : Transport) (memory : Option Int) (bytes : List UInt8) :
    Option Message :=
  match transport, memory with
  | .default, _ => none
  | .ofi, _ => some ⟨.ofi ⟨bytes.length, bytes⟩, Nat.le_refl _⟩
  | .zmq, some _ => some ⟨.zmq (.ofData bytes), Nat.le_refl _⟩
  | .nn, some _ => some ⟨.nn (.filled bytes), Nat.le_refl _⟩
  | .shm, some handle => some ⟨.shm (.ofSize bytes.length (some handle)) bytes, Nat.le_refl _⟩
  | .zmq, none => newMessage .zmq
  | .nn, none => newMessage .nn
  | .shm, none => some ⟨.shm (.ofSize bytes.length none) [], Nat.zero_le _⟩

inductive Arguments where
  | msg (message : Message)
  | msgVec (messages : List Message)
deriving DecidableEq, Repr

namespace Arguments

def messages : Arguments → List Message
  | msg message => [message]
  | msgVec messages => messages

def check (compatible : Nat → Message → Option Message) : Arguments → Option Arguments
  | msg message => (compatible 0 message).map msg
  | msgVec messages =>
      (messages.zipIdx.mapM fun (message, i) => compatible i message).map msgVec

end Arguments

inductive SocketFunction where
  | send | receive | trySend | tryReceive
  | sendTimeout (timeout : Int) | receiveTimeout (timeout : Int)
deriving DecidableEq, Repr

structure SocketCall where
  function : SocketFunction
  arguments : Arguments
deriving DecidableEq, Repr

namespace Channel

variable {σ : Type} (channel : Channel σ) (memory : Nat → Option Int)

/-- The wrapper comes from the factory, which is null before the channel has a transport. -/
def checkSendCompatibility (i : Nat) (msg : Message) : Option Message :=
  if channel.fTransportType ≠ msg.getType then
    channel.fTransportFactory.bind fun factory => createMessage factory (memory i) msg.contents
  else some msg

def checkReceiveCompatibility (_ : Nat) (msg : Message) : Option Message :=
  if channel.fTransportType ≠ msg.getType then channel.fTransportFactory.bind newMessage
  else some msg

def transfer (compatible : Nat → Message → Option Message) (function : SocketFunction)
    (arguments : Arguments) : Option SocketCall :=
  (arguments.check compatible).map (⟨function, ·⟩)

def send (arguments : Arguments) : Option SocketCall :=
  transfer (channel.checkSendCompatibility memory) .send arguments

def receive (arguments : Arguments) : Option SocketCall :=
  transfer channel.checkReceiveCompatibility .receive arguments

def sendAsync (arguments : Arguments) : Option SocketCall :=
  transfer (channel.checkSendCompatibility memory) .trySend arguments

def receiveAsync (arguments : Arguments) : Option SocketCall :=
  transfer channel.checkReceiveCompatibility .tryReceive arguments

/-- With a timeout there is no check. -/
def sendTimeout (arguments : Arguments) (sndTimeoutInMs : Int) : Option SocketCall :=
  some ⟨.sendTimeout sndTimeoutInMs, arguments⟩

def receiveTimeout (arguments : Arguments) (rcvTimeoutInMs : Int) : Option SocketCall :=
  some ⟨.receiveTimeout rcvTimeoutInMs, arguments⟩

end Channel

inductive ChannelFunction where
  | send | receive | sendAsync | receiveAsync
  | sendTimeout (sndTimeoutInMs : Int) | receiveTimeout (rcvTimeoutInMs : Int)
deriving DecidableEq, Repr

namespace ChannelFunction

def sends : ChannelFunction → Bool
  | send | sendAsync | sendTimeout _ => true
  | receive | receiveAsync | receiveTimeout _ => false

def timed : ChannelFunction → Bool
  | sendTimeout _ | receiveTimeout _ => true
  | send | sendAsync | receive | receiveAsync => false

def call {σ : Type} (channel : Channel σ) (memory : Nat → Option Int) (arguments : Arguments) :
    ChannelFunction → Option SocketCall
  | send => channel.send memory arguments
  | receive => channel.receive arguments
  | sendAsync => channel.sendAsync memory arguments
  | receiveAsync => channel.receiveAsync arguments
  | sendTimeout timeout => Channel.sendTimeout arguments timeout
  | receiveTimeout timeout => Channel.receiveTimeout arguments timeout

end ChannelFunction

def Serves (transport : Transport) (sends : Bool) (original message : Message) : Prop :=
  message.getType = transport ∧
    (sends = true → message.getSize = original.getSize ∧ message.contents = original.contents)

def Compatible (transport : Transport) (sends : Bool) (originals messages : List Message) : Prop :=
  messages.length = originals.length ∧
    ∀ (i : Nat) (original message : Message), originals[i]? = some original →
      messages[i]? = some message → Serves transport sends original message

def Supplied (transport : Transport) (memory : Option Int) (original : Message) : Prop :=
  transport = .ofi ∨ memory.isSome ∨ original.getSize = 0

section Wrappers

variable {transport : Transport} {memory : Option Int} {original message : Message}

theorem serves_self (sends : Bool) :
    Serves transport sends message message ↔ message.getType = transport :=
  ⟨And.left, fun same => ⟨same, fun _ => ⟨rfl, rfl⟩⟩⟩

theorem newMessage_type (created : newMessage transport = some message) :
    message.getType = transport := by
  cases transport <;> cases created <;> rfl

theorem createMessage_type {bytes : List UInt8}
    (created : createMessage transport memory bytes = some message) :
    message.getType = transport := by
  cases transport <;> cases memory <;> cases created <;> rfl

theorem createMessage_contents {bytes : List UInt8}
    (created : createMessage transport memory bytes = some message) :
    message.contents = if transport = .ofi ∨ memory.isSome then bytes else [] := by
  cases transport <;> cases memory <;> cases created
  all_goals first | rfl | exact List.take_length

theorem createMessage_serves {factory : Transport}
    (created : createMessage factory memory original.contents = some message) :
    Serves transport true original message ↔
      factory = transport ∧ Supplied factory memory original := by
  have supplied : message.contents = original.contents ↔ Supplied factory memory original := by
    have empty : [] = original.contents ↔ original.getSize = 0 := by
      rw [← original.contents_length, List.length_eq_zero_iff, eq_comm]
    rw [createMessage_contents created, Supplied, ← or_assoc]
    split
    · rename_i enough
      exact iff_of_true rfl (.inl enough)
    · rename_i short
      rw [empty]
      exact (or_iff_right short).symm
  rw [Serves, createMessage_type created, ← supplied]
  apply and_congr_right
  intro _
  constructor
  · intro same
    exact (same rfl).2
  · intro same _
    exact ⟨by rw [← message.contents_length, same, original.contents_length], same⟩

end Wrappers

def Replaceable {σ : Type} (channel : Channel σ) (memory : Option Int) (sends : Bool)
    (msg : Message) : Prop :=
  channel.fTransportFactory = some channel.fTransportType ∧
    (sends = true → Supplied channel.fTransportType memory msg)

section Checks

variable {σ : Type} {channel : Channel σ} {memory : Nat → Option Int} {i : Nat}
  {original message : Message}

theorem checkSend_serves
    (checked : channel.checkSendCompatibility memory i original = some message) :
    Serves channel.fTransportType true original message ↔
      (original.getType ≠ channel.fTransportType → Replaceable channel (memory i) true original) := by
  simp only [Channel.checkSendCompatibility] at checked
  split at checked
  · rename_i foreign
    obtain ⟨factory, isFactory, created⟩ := Option.bind_eq_some_iff.mp checked
    rw [createMessage_serves created, Replaceable, isFactory, Option.some.injEq]
    constructor
    · rintro ⟨rfl, supplied⟩ _
      exact ⟨rfl, fun _ => supplied⟩
    · intro replaceable
      obtain ⟨rfl, supplied⟩ := replaceable (Ne.symm foreign)
      exact ⟨rfl, supplied rfl⟩
  · rename_i own
    rw [not_not] at own
    cases checked
    rw [serves_self]
    exact iff_of_true own.symm fun foreign => absurd own.symm foreign

theorem checkReceive_serves
    (checked : channel.checkReceiveCompatibility i original = some message) :
    Serves channel.fTransportType false original message ↔
      (original.getType ≠ channel.fTransportType →
        Replaceable channel (memory i) false original) := by
  simp only [Channel.checkReceiveCompatibility] at checked
  split at checked
  · rename_i foreign
    obtain ⟨factory, isFactory, created⟩ := Option.bind_eq_some_iff.mp checked
    rw [Serves, newMessage_type created, Replaceable, isFactory, Option.some.injEq]
    constructor
    · rintro ⟨rfl, _⟩ _
      exact ⟨rfl, fun sends => by cases sends⟩
    · intro replaceable
      exact ⟨(replaceable (Ne.symm foreign)).1, fun sends => by cases sends⟩
  · rename_i own
    rw [not_not] at own
    cases checked
    rw [serves_self]
    exact iff_of_true own.symm fun foreign => absurd own.symm foreign

variable {compatible : Nat → Message → Option Message} {arguments passed : Arguments}

theorem Arguments.check_each (checked : arguments.check compatible = some passed) :
    passed.messages.length = arguments.messages.length ∧
      ∀ i : Nat, passed.messages[i]? = arguments.messages[i]?.bind (compatible i) := by
  cases arguments with
  | msg message =>
      obtain ⟨next, isNext, rfl⟩ := Option.map_eq_some_iff.mp checked
      refine ⟨rfl, ?_⟩
      intro i
      cases i with
      | zero => exact isNext.symm
      | succ i => rfl
  | msgVec messages =>
      obtain ⟨next, all, rfl⟩ := Option.map_eq_some_iff.mp checked
      constructor
      · exact (Options.mapM_length all).trans List.length_zipIdx
      · intro i
        rw [Arguments.messages, Options.mapM_getElem? all i, List.getElem?_zipIdx]
        cases place : messages[i]? <;> simp [Arguments.messages, place]

theorem check_compatible {transport : Transport} {sends : Bool} {served : Nat → Message → Prop}
    (checks : ∀ {i original message}, compatible i original = some message →
      (Serves transport sends original message ↔ served i original))
    (checked : arguments.check compatible = some passed) :
    Compatible transport sends arguments.messages passed.messages ↔
      ∀ (i : Nat) (original : Message), arguments.messages[i]? = some original →
        served i original := by
  obtain ⟨length, each⟩ := Arguments.check_each checked
  constructor
  · rintro ⟨_, serves⟩ i original found
    have bound := (List.getElem?_eq_some_iff.mp found).1
    rw [← length] at bound
    have isMessage := each i
    rw [found, Option.bind_some, List.getElem?_eq_getElem bound] at isMessage
    exact (checks isMessage.symm).mp
      (serves i original _ found (List.getElem?_eq_getElem bound))
  · intro all
    refine ⟨length, ?_⟩
    intro i original message found isMessage
    rw [each i, found, Option.bind_some] at isMessage
    exact (checks isMessage).mpr (all i original found)

theorem unchecked_compatible {transport : Transport} {sends : Bool} {messages : List Message} :
    Compatible transport sends messages messages ↔
      ∀ message ∈ messages, message.getType = transport := by
  constructor
  · rintro ⟨_, serves⟩ message member
    obtain ⟨i, found⟩ := List.mem_iff_getElem?.mp member
    exact (serves i message message found found).1
  · intro own
    refine ⟨rfl, ?_⟩
    intro i original message found isMessage
    cases found.symm.trans isMessage
    exact (serves_self sends).mpr (own original (List.mem_of_getElem? found))

end Checks

/-- A socket gets messages of the transport of the channel, with the bytes to be sent, exactly if
a call with a timeout has no others; any other call may have them if the factory is of that
transport and finds memory for the wrappers. -/
theorem transport_compatibility_iff {σ : Type} (channel : Channel σ) (memory : Nat → Option Int)
    (function : ChannelFunction) {arguments : Arguments} {passed : SocketCall}
    (called : function.call channel memory arguments = some passed) :
    Compatible channel.fTransportType function.sends arguments.messages
        passed.arguments.messages ↔
      if function.timed then ∀ msg ∈ arguments.messages, msg.getType = channel.fTransportType
      else ∀ (i : Nat) (msg : Message), arguments.messages[i]? = some msg →
        msg.getType ≠ channel.fTransportType →
          Replaceable channel (memory i) function.sends msg := by
  cases function with
  | send | sendAsync =>
      obtain ⟨_, checked, rfl⟩ := Option.map_eq_some_iff.mp called
      exact check_compatible checkSend_serves checked
  | receive | receiveAsync =>
      obtain ⟨_, checked, rfl⟩ := Option.map_eq_some_iff.mp called
      exact check_compatible checkReceive_serves checked
  | sendTimeout | receiveTimeout =>
      cases called
      exact unchecked_compatible

def nanomsgMessage : Message := ⟨.nn (.filled [1, 2]), by decide⟩

def zeromqChannel : Channel Unit := .ofFactory "c" "push" .zmq ()

theorem wrapped_message_compatible :
    ∃ passed, ChannelFunction.send.call zeromqChannel (fun _ => some 0) (.msg nanomsgMessage) =
        some passed ∧
      Compatible .zmq true [nanomsgMessage] passed.arguments.messages := by
  obtain ⟨passed, called⟩ : ∃ passed, ChannelFunction.send.call zeromqChannel (fun _ => some 0)
    (.msg nanomsgMessage) = some passed := ⟨_, rfl⟩
  refine ⟨passed, called, (transport_compatibility_iff zeromqChannel _ .send called).mpr ?_⟩
  intro i msg _ _
  exact ⟨rfl, fun _ => .inr (.inl rfl)⟩

/-- With a timeout the socket of zeromq gets the message of nanomsg itself, and a receiving one
does so too. -/
theorem timed_send_passes_foreign_message :
    (ChannelFunction.sendTimeout 100).call zeromqChannel (fun _ => some 0) (.msg nanomsgMessage) =
        some ⟨.sendTimeout 100, .msg nanomsgMessage⟩ ∧
      (ChannelFunction.receiveTimeout 100).call zeromqChannel (fun _ => some 0)
          (.msgVec [nanomsgMessage]) =
        some ⟨.receiveTimeout 100, .msgVec [nanomsgMessage]⟩ ∧
      zeromqChannel.fTransportType = .zmq ∧ nanomsgMessage.getType = .nn := by
  decide

end FairMQ.Channels
