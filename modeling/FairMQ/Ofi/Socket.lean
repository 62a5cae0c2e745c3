import FairMQ.Data.MachineInt
import FairMQ.Data.TransitionSystem
import FairMQ.Ofi.Address

namespace FairMQ.Ofi

open FairMQ.Data

/-! # Two sockets of the ofi transport

A socket of type `pair` has a zmq socket for control messages and an endpoint of the fabric
for the data.  The first transfer on a socket waits for its peer, announces the address of
its endpoint and reads the peer's.  After that every message is a `PostBuffer` with its size
on the control socket and, if it is not empty, one frame on the fabric.

A step is one effect of a call that the other end can see; the blocking library calls are the
states in which a socket waits.  zmq delivers the control messages of one socket in order and
holds a bounded number of them.  The fabric was asked for no order: a frame is on its way until
it arrives, and frames may overtake each other.  `flags` and `timeout` are not looked at, so
`TrySend` and `TryReceive` are `Send` and `Receive`. -/

inductive Side where
  | binding
  | connecting
deriving DecidableEq, Repr

def Side.peer : Side → Side
  | .binding => .connecting
  | .connecting => .binding

/-- The cases of `ControlMessage` that are sent; nothing sends a `PostBufferAcknowledgement`. -/
inductive ControlMessage where
  | dataAddressAnnouncement (ipv4 : InAddr) (port : UInt8 × UInt8)
  | postBuffer (size : Nat)
deriving DecidableEq, Repr

inductive Call where
  | send (msg : List UInt8)
  | receive (msg : List UInt8)
deriving DecidableEq, Repr

/-- What a call is going to do next.  `idle` has the result of the last call; `broken` is a
failed `assert`, or the use of `fRemoteDataAddr` before it has a value.  In `readTx` the
completion is in the queue or not. -/
inductive Progress where
  | idle (result : Option Int)
  | waitForControlPeer (call : Call)
  | announceDataAddress (call : Call)
  | processDataAddressAnnouncement (call : Call)
  | postBuffer (msg : List UInt8)
  | fiSend (msg : List UInt8)
  | readTx (msg : List UInt8) (completed : Bool)
  | receiveControlMessage (msg : List UInt8)
  | fiRecv (given : List UInt8) (size : Nat)
  | readRx (given : List UInt8) (size : Nat)
  | broken
deriving DecidableEq, Repr

def Call.transfer : Call → Progress
  | .send msg => .postBuffer msg
  | .receive msg => .receiveControlMessage msg

/-- A `Receive` that returned: the message it was given, the size in the `PostBuffer`, and
the message it left. -/
structure Receipt where
  given : List UInt8
  size : Nat
  left : List UInt8
deriving DecidableEq, Repr

/-- `fDataEndpoint` is the address that `fi_getname` returns for it, `buffers` are the sizes of
the receive buffers that are posted and not filled, the oldest first.  `sent` and `received`
are history: the messages that were posted, and the calls of `Receive` that returned. -/
structure Socket where
  fDataEndpoint : SockaddrIn
  fRemoteDataAddr : Option SockaddrIn
  fWaitingForControlPeer : Bool
  monitorEvent : Bool
  fBytesTx : Nat
  fBytesRx : Nat
  fMessagesTx : Nat
  fMessagesRx : Nat
  buffers : List Nat
  progress : Progress
  sent : List (List UInt8)
  received : List Receipt
deriving DecidableEq, Repr

/-- After `Bind` or `Connect`. -/
def Socket.start (fDataEndpoint : SockaddrIn) : Socket where
  fDataEndpoint
  fRemoteDataAddr := none
  fWaitingForControlPeer := true
  monitorEvent := false
  fBytesTx := 0
  fBytesRx := 0
  fMessagesTx := 0
  fMessagesRx := 0
  buffers := []
  progress := .idle none
  sent := []
  received := []

/-- What a step of a socket leaves: the control messages and the frames for it that are still
unread, and what it adds for others. -/
structure Effect where
  socket : Socket
  control : List ControlMessage
  frames : List (List UInt8)
  outgoing : List ControlMessage
  posted : List (SockaddrIn × List UInt8)
deriving DecidableEq, Repr

namespace Socket

variable (socket : Socket)

/-- `Send` and `Receive` begin with the handshake if it is still to be made. -/
def begin (call : Call) : Option Socket :=
  match socket.progress with
  | .idle _ =>
      some { socket with
        progress := if socket.fWaitingForControlPeer then .waitForControlPeer call
          else call.transfer }
  | _ => none

def finishSend (msg : List UInt8) : Socket :=
  { socket with
    progress := .idle (some (toInt32 msg.length))
    fBytesTx := (socket.fBytesTx + msg.length) % 2 ^ 64
    fMessagesTx := (socket.fMessagesTx + 1) % 2 ^ 64 }

def finishReceive (given : List UInt8) (size : Nat) (left : List UInt8) : Socket :=
  { socket with
    progress := .idle (some (toInt32 size))
    fBytesRx := (socket.fBytesRx + size) % 2 ^ 64
    fMessagesRx := (socket.fMessagesRx + 1) % 2 ^ 64
    received := socket.received ++ [⟨given, size, left⟩] }

/-- The next effect of a call whose library calls succeed, `none` while it is blocked; `room`
says that zmq takes another control message. -/
def advance (room : Bool) (control : List ControlMessage) (frames : List (List UInt8)) :
    Option Effect :=
  match socket.progress with
  | .idle _ | .broken => none
  | .waitForControlPeer call =>
      if socket.monitorEvent then
        some ⟨{ socket with
          monitorEvent := false
          fWaitingForControlPeer := false
          progress := .announceDataAddress call }, control, frames, [], []⟩
      else none
  | .announceDataAddress call =>
      if room then
        some ⟨{ socket with progress := .processDataAddressAnnouncement call }, control, frames,
          [.dataAddressAnnouncement socket.fDataEndpoint.sin_addr socket.fDataEndpoint.sin_port],
          []⟩
      else none
  | .processDataAddressAnnouncement call =>
      match control with
      | [] => none
      | .dataAddressAnnouncement ipv4 port :: control =>
          some ⟨{ socket with
            fRemoteDataAddr := some ⟨port, ipv4⟩
            progress := call.transfer }, control, frames, [], []⟩
      | .postBuffer _ :: control =>
          some ⟨{ socket with progress := .broken }, control, frames, [], []⟩
  | .postBuffer msg =>
      let posted := { socket with sent := socket.sent ++ [msg] }
      if room then
        some ⟨if msg.length = 0 then posted.finishSend msg
          else { posted with progress := .fiSend msg }, control, frames, [.postBuffer msg.length],
          []⟩
      else none
  | .fiSend msg =>
      match socket.fRemoteDataAddr with
      | some address =>
          some ⟨{ socket with progress := .readTx msg false }, control, frames, [],
            [(address, msg)]⟩
      | none => some ⟨{ socket with progress := .broken }, control, frames, [], []⟩
  | .readTx msg completed =>
      if completed then some ⟨socket.finishSend msg, control, frames, [], []⟩ else none
  | .receiveControlMessage msg =>
      match control with
      | [] => none
      | .postBuffer size :: control =>
          -- an empty message is not rebuilt
          some ⟨if size = 0 then socket.finishReceive msg size msg
            else { socket with progress := .fiRecv msg size }, control, frames, [], []⟩
      | .dataAddressAnnouncement _ _ :: control =>
          some ⟨{ socket with progress := .broken }, control, frames, [], []⟩
  | .fiRecv given size =>
      some ⟨{ socket with buffers := socket.buffers ++ [size], progress := .readRx given size },
        control, frames, [], []⟩
  | .readRx given size =>
      match frames, socket.buffers with
      | frame :: frames, buffer :: buffers =>
          let filled := { socket with buffers }
          -- a frame that is too long is an error of the queue; the buffer of this call is the
          -- last one, and both its length and its address are asserted
          some ⟨if buffer < frame.length then { filled with progress := .idle (some (-1)) }
            else if frame.length = size ∧ buffers = [] then filled.finishReceive given size frame
            else { filled with progress := .broken }, control, frames, [], []⟩
      | _, _ => none

/-- The fabric reports the completion of a frame. -/
def complete : Option Socket :=
  match socket.progress with
  | .readTx msg false => some { socket with progress := .readTx msg true }
  | _ => none

/-- The library call of a step fails: the exception ends the call with `-1`.  `consumed` says
that it came after the event or the control message was taken, from `getpeername` or from
`fi_av_insert`. -/
def fail (consumed : Bool) (control : List ControlMessage) : Option (Socket × List ControlMessage) :=
  let failed := { socket with progress := .idle (some (-1)) }
  match socket.progress with
  | .idle _ | .broken => none
  | .waitForControlPeer _ =>
      if consumed then
        if socket.monitorEvent then some ({ failed with monitorEvent := false }, control) else none
      else some (failed, control)
  | .processDataAddressAnnouncement _ =>
      if consumed then
        match control with
        | [] => none
        | _ :: control => some (failed, control)
      else some (failed, control)
  | _ => if consumed then none else some (failed, control)

end Socket

/-- Both ends.  `control` has the control messages that a side has sent and its peer has not
read, as many as `capacity` if there is a limit; `transit` the frames on their way to an
endpoint, `fabric` those that have arrived there. -/
structure Pair where
  socket : Side → Socket
  control : Side → List ControlMessage
  capacity : Side → Option Nat
  transit : SockaddrIn → List (List UInt8)
  fabric : SockaddrIn → List (List UInt8)
  connected : Bool

inductive Action where
  | connect
  | begin (side : Side) (call : Call)
  | advance (side : Side)
  | fail (side : Side) (consumed : Bool)
  | complete (side : Side)
  | arrive (side : Side) (i : Nat)
deriving DecidableEq, Repr

namespace Pair

def start (endpoint : Side → SockaddrIn) (capacity : Side → Option Nat) : Pair where
  socket side := .start (endpoint side)
  control _ := []
  capacity
  transit _ := []
  fabric _ := []
  connected := false

variable (pair : Pair)

def frames (side : Side) : List (List UInt8) :=
  pair.fabric (pair.socket side).fDataEndpoint

def coming (side : Side) : List (List UInt8) :=
  pair.transit (pair.socket side).fDataEndpoint

def room (side : Side) : Bool :=
  (pair.capacity side).all fun bound => decide ((pair.control side).length < bound)

def connect : Pair :=
  { pair with
    socket side := { pair.socket side with monitorEvent := true }
    connected := true }

def set (side : Side) (socket : Socket) : Pair :=
  { pair with socket := Function.update pair.socket side socket }

def deliver (effect : Effect) (address : SockaddrIn) : List (List UInt8) :=
  pair.transit address ++ (effect.posted.filter fun frame => frame.1 = address).map Prod.snd

def apply (side : Side) (effect : Effect) : Pair :=
  { pair with
    socket := Function.update pair.socket side effect.socket
    control := fun sender =>
      if sender = side then pair.control side ++ effect.outgoing else effect.control
    transit := pair.deliver effect
    fabric := Function.update pair.fabric (pair.socket side).fDataEndpoint effect.frames }

/-- One of the frames on their way to a side arrives. -/
def arrive (side : Side) (i : Nat) : Option Pair :=
  let endpoint := (pair.socket side).fDataEndpoint
  (pair.coming side)[i]?.map fun frame => { pair with
    transit := Function.update pair.transit endpoint ((pair.coming side).eraseIdx i)
    fabric := Function.update pair.fabric endpoint (pair.frames side ++ [frame]) }

def step : Action → Option Pair
  | .connect => if pair.connected then none else some pair.connect
  | .begin side call => ((pair.socket side).begin call).map (pair.set side)
  | .advance side =>
      ((pair.socket side).advance (pair.room side) (pair.control side.peer)
        (pair.frames side)).map (pair.apply side)
  | .fail side consumed =>
      ((pair.socket side).fail consumed (pair.control side.peer)).map fun failed =>
        { pair.set side failed.1 with
          control := Function.update pair.control side.peer failed.2 }
  | .complete side => (pair.socket side).complete.map (pair.set side)
  | .arrive side i => pair.arrive side i

end Pair

/-- Two endpoints of the fabric that have been bound and connected to each other. -/
def pairSystem : TransitionSystem Pair Action where
  initial pair := ∃ endpoint : Side → SockaddrIn, ∃ capacity : Side → Option Nat,
    endpoint .binding ≠ endpoint .connecting ∧ (∀ side, capacity side ≠ some 0) ∧
      pair = .start endpoint capacity
  step := Pair.step

/-- The failures after which a later call finds the protocol where it was: before anything was
announced, posted or taken for this transfer. -/
def Progress.failsCleanly : Progress → Bool
  | .waitForControlPeer _ | .postBuffer _ | .receiveControlMessage _ => true
  | _ => false

/-- A completion is reported when the frame has arrived, which the flags that the fabric is
opened with do not ask for. -/
def Clean (pair : Pair) : Action → Prop
  | .fail side _ => (pair.socket side).progress.failsCleanly = true
  | .complete side => pair.coming side.peer = []
  | _ => True

def Flawless (pair : Pair) : Action → Prop
  | .fail _ _ => False
  | .complete side => pair.coming side.peer = []
  | _ => True

instance (pair : Pair) (action : Action) : Decidable (Clean pair action) := by
  unfold Clean
  split <;> infer_instance

instance (pair : Pair) (action : Action) : Decidable (Flawless pair action) := by
  unfold Flawless
  split <;> infer_instance

end FairMQ.Ofi
