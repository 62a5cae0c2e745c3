import FairMQ.Ofi.Socket

namespace FairMQ.Ofi

open FairMQ.Data

/-! # What is on its way between two sockets

In each direction the messages that were posted and not yet received are described twice: by
their sizes in the `PostBuffer` messages, and by the frames of those that are not empty.  The
sender is ahead with the size, and the receiver takes the size first.  A structure `Direction`
says that both descriptions agree and where the handshake stands; it survives the steps of
either end.  A `Send` waits for the completion of its frame, so that only one frame is in
transit and none can be overtaken. -/

/-- What one step of a call does, with the case of the source that it is. -/
inductive Advances (socket : Socket) (control : List ControlMessage)
    (frames : List (List UInt8)) : Effect → Prop where
  | waitForControlPeer {call : Call} (here : socket.progress = .waitForControlPeer call)
      (event : socket.monitorEvent = true) :
      Advances socket control frames ⟨{ socket with
        monitorEvent := false
        fWaitingForControlPeer := false
        progress := .announceDataAddress call }, control, frames, [], []⟩
  | announceDataAddress {call : Call} (here : socket.progress = .announceDataAddress call) :
      Advances socket control frames
        ⟨{ socket with progress := .processDataAddressAnnouncement call }, control, frames,
          [.dataAddressAnnouncement socket.fDataEndpoint.sin_addr socket.fDataEndpoint.sin_port],
          []⟩
  | processDataAddressAnnouncement {call : Call} {ipv4 : InAddr} {port : UInt8 × UInt8}
      {rest : List ControlMessage} (here : socket.progress = .processDataAddressAnnouncement call)
      (read : control = .dataAddressAnnouncement ipv4 port :: rest) :
      Advances socket control frames ⟨{ socket with
        fRemoteDataAddr := some ⟨port, ipv4⟩
        progress := call.transfer }, rest, frames, [], []⟩
  | noAnnouncement {call : Call} {size : Nat} {rest : List ControlMessage}
      (here : socket.progress = .processDataAddressAnnouncement call)
      (read : control = .postBuffer size :: rest) :
      Advances socket control frames ⟨{ socket with progress := .broken }, rest, frames, [], []⟩
  | postEmpty (here : socket.progress = .postBuffer []) :
      Advances socket control frames
        ⟨({ socket with sent := socket.sent ++ [[]] }).finishSend [], control, frames,
          [.postBuffer 0], []⟩
  | postBuffer {msg : List UInt8} (here : socket.progress = .postBuffer msg) (full : msg ≠ []) :
      Advances socket control frames
        ⟨{ socket with sent := socket.sent ++ [msg], progress := .fiSend msg }, control, frames,
          [.postBuffer msg.length], []⟩
  | fiSend {msg : List UInt8} {address : SockaddrIn} (here : socket.progress = .fiSend msg)
      (known : socket.fRemoteDataAddr = some address) :
      Advances socket control frames
        ⟨{ socket with progress := .readTx msg false }, control, frames, [], [(address, msg)]⟩
  | noAddress {msg : List UInt8} (here : socket.progress = .fiSend msg)
      (unknown : socket.fRemoteDataAddr = none) :
      Advances socket control frames
        ⟨{ socket with progress := .broken }, control, frames, [], []⟩
  | readTx {msg : List UInt8} (here : socket.progress = .readTx msg true) :
      Advances socket control frames ⟨socket.finishSend msg, control, frames, [], []⟩
  | receiveEmpty {msg : List UInt8} {rest : List ControlMessage}
      (here : socket.progress = .receiveControlMessage msg)
      (read : control = .postBuffer 0 :: rest) :
      Advances socket control frames ⟨socket.finishReceive msg 0 msg, rest, frames, [], []⟩
  | receiveControlMessage {msg : List UInt8} {size : Nat} {rest : List ControlMessage}
      (here : socket.progress = .receiveControlMessage msg)
      (read : control = .postBuffer size :: rest) (full : size ≠ 0) :
      Advances socket control frames
        ⟨{ socket with progress := .fiRecv msg size }, rest, frames, [], []⟩
  | noPostBuffer {msg : List UInt8} {ipv4 : InAddr} {port : UInt8 × UInt8}
      {rest : List ControlMessage} (here : socket.progress = .receiveControlMessage msg)
      (read : control = .dataAddressAnnouncement ipv4 port :: rest) :
      Advances socket control frames ⟨{ socket with progress := .broken }, rest, frames, [], []⟩
  | fiRecv {given : List UInt8} {size : Nat} (here : socket.progress = .fiRecv given size) :
      Advances socket control frames
        ⟨{ socket with buffers := socket.buffers ++ [size], progress := .readRx given size },
          control, frames, [], []⟩
  | readRx {given frame : List UInt8} {rest : List (List UInt8)} {buffer : Nat}
      (here : socket.progress = .readRx given frame.length) (read : frames = frame :: rest)
      (own : socket.buffers = [buffer]) :
      Advances socket control frames
        ⟨({ socket with buffers := [] }).finishReceive given frame.length frame, control, rest, [],
          []⟩
  | wrongFrame {given frame : List UInt8} {size buffer : Nat} {rest : List (List UInt8)}
      {buffers : List Nat} (here : socket.progress = .readRx given size)
      (read : frames = frame :: rest) (filled : socket.buffers = buffer :: buffers)
      (wrong : ¬(frame.length = size ∧ buffers = [])) :
      Advances socket control frames
        ⟨{ socket with buffers, progress := .broken }, control, rest, [], []⟩
  | longFrame {given frame : List UInt8} {size buffer : Nat} {rest : List (List UInt8)}
      {buffers : List Nat} (here : socket.progress = .readRx given size)
      (read : frames = frame :: rest) (filled : socket.buffers = buffer :: buffers)
      (long : buffer < frame.length) :
      Advances socket control frames
        ⟨{ socket with buffers, progress := .idle (some (-1)) }, control, rest, [], []⟩

theorem Socket.advance_advances {socket : Socket} {room : Bool} {control : List ControlMessage}
    {frames : List (List UInt8)} {effect : Effect}
    (advanced : socket.advance room control frames = some effect) :
    Advances socket control frames effect := by
  unfold Socket.advance at advanced
  split at advanced
  case h_1 | h_2 => contradiction
  case h_3 call here =>
    split at advanced <;> cases advanced
    rename_i event
    exact .waitForControlPeer here event
  case h_4 call here =>
    split at advanced <;> cases advanced
    exact .announceDataAddress here
  case h_5 call here =>
    split at advanced <;> cases advanced
    · exact .processDataAddressAnnouncement here rfl
    · exact .noAnnouncement here rfl
  case h_6 msg here =>
    split at advanced <;> cases advanced
    by_cases empty : msg = []
    · subst empty
      exact .postEmpty here
    · simp only [List.length_eq_zero_iff, empty, ↓reduceIte]
      exact .postBuffer here empty
  case h_7 msg here =>
    split at advanced <;> cases advanced
    · rename_i known
      exact .fiSend here known
    · rename_i unknown
      exact .noAddress here unknown
  case h_8 msg completed here =>
    split at advanced <;> cases advanced
    rename_i reported
    subst reported
    exact .readTx here
  case h_9 msg here =>
    split at advanced <;> cases advanced
    · rename_i size rest
      by_cases empty : size = 0
      · subst empty
        exact .receiveEmpty here rfl
      · simp only [empty, ↓reduceIte]
        exact .receiveControlMessage here rfl empty
    · exact .noPostBuffer here rfl
  case h_10 given size here =>
    cases advanced
    exact .fiRecv here
  case h_11 given size here =>
    split at advanced <;> cases advanced
    rename_i frame rest buffer buffers filled
    split
    · rename_i long
      exact .longFrame here rfl filled long
    · split
      · rename_i own
        obtain ⟨rfl, rfl⟩ := own
        exact .readRx here rfl filled
      · rename_i wrong
        exact .wrongFrame here rfl filled wrong

namespace Progress

@[simp]
def unannounced : Progress → Bool
  | .waitForControlPeer _ | .announceDataAddress _ => true
  | _ => false

@[simp]
def unacquainted : Progress → Bool
  | .waitForControlPeer _ | .announceDataAddress _ | .processDataAddressAnnouncement _ => true
  | _ => false

/-- The message whose size is posted and whose frame is not. -/
@[simp]
def unsent : Progress → List (List UInt8)
  | .fiSend msg => [msg]
  | _ => []

/-- The message has a frame whose completion is not reported. -/
@[simp]
def outstanding : Progress → Bool
  | .readTx _ completed => !completed
  | _ => false

@[simp]
def taken : Progress → List Nat
  | .fiRecv _ size | .readRx _ size => [size]
  | _ => []

@[simp]
def buffers : Progress → List Nat
  | .readRx _ size => [size]
  | _ => []

end Progress

structure Sending where
  endpoint : SockaddrIn
  announced : Bool
  sent : List (List UInt8)
  unsent : List (List UInt8)
  outstanding : Bool

structure Receiving where
  acquainted : Bool
  remote : Option SockaddrIn
  received : List Receipt
  taken : List Nat

namespace Socket

@[simp]
def announced (socket : Socket) : Bool :=
  !socket.fWaitingForControlPeer && !socket.progress.unannounced

@[simp]
def acquainted (socket : Socket) : Bool :=
  !socket.fWaitingForControlPeer && !socket.progress.unacquainted

@[simp]
def sending (socket : Socket) : Sending :=
  ⟨socket.fDataEndpoint, socket.announced, socket.sent, socket.progress.unsent,
    socket.progress.outstanding⟩

@[simp]
def receiving (socket : Socket) : Receiving :=
  ⟨socket.acquainted, socket.fRemoteDataAddr, socket.received, socket.progress.taken⟩

end Socket

abbrev announcement (endpoint : SockaddrIn) : ControlMessage :=
  .dataAddressAnnouncement endpoint.sin_addr endpoint.sin_port

def greeting (sender : Sending) (receiver : Receiving) : List ControlMessage :=
  if sender.announced && !receiver.acquainted then [announcement sender.endpoint] else []

structure Receives (receipt : Receipt) (message : List UInt8) : Prop where
  size : receipt.size = message.length
  left : receipt.left = if message = [] then receipt.given else message

/-- `delivered` are the messages that were received and `pending` those that are still on
their way; `sizes` are the sizes of those whose `PostBuffer` is unread. -/
structure InFlight (sender : Sending) (receiver : Receiving) (control : List ControlMessage)
    (transit frames delivered pending : List (List UInt8)) (sizes : List Nat) : Prop where
  received : List.Forall₂ Receives receiver.received delivered
  sent : sender.sent = delivered ++ pending
  control : control = greeting sender receiver ++ sizes.map .postBuffer
  sizes : receiver.taken ++ sizes = pending.map List.length
  frames : frames ++ (transit ++ sender.unsent) = pending.filter (· ≠ [])

structure Direction (sender : Sending) (receiver : Receiving) (control : List ControlMessage)
    (transit frames : List (List UInt8)) : Prop where
  inFlight : ∃ delivered pending sizes,
    InFlight sender receiver control transit frames delivered pending sizes
  single : transit.length ≤ if sender.outstanding then 1 else 0
  order : receiver.acquainted = true → sender.announced = true
  known : receiver.acquainted = true → receiver.remote = some sender.endpoint
  silent : sender.announced = false → sender.sent = []

section Direction

variable {sender : Sending} {receiver : Receiving} {control rest : List ControlMessage}
  {transit frames unread : List (List UInt8)} {message : ControlMessage} {size : Nat}

theorem Direction.head_of_stranger (direction : Direction sender receiver (message :: rest) transit frames)
    (stranger : receiver.acquainted = false) :
    sender.announced = true ∧ message = announcement sender.endpoint := by
  obtain ⟨delivered, pending, sizes, inFlight⟩ := direction.inFlight
  have read := inFlight.control
  cases announced : sender.announced with
  | true =>
      simp only [greeting, announced, stranger, Bool.not_false, Bool.and_self, ↓reduceIte,
        List.cons_append, List.cons.injEq] at read
      exact ⟨rfl, read.1⟩
  | false =>
      -- nothing was sent, so nothing can be there to read
      have nothing := inFlight.sent.symm.trans (direction.silent announced)
      have lengths := inFlight.sizes
      simp only [List.append_eq_nil_iff] at nothing
      rw [nothing.2, List.map_nil, List.append_eq_nil_iff] at lengths
      simp [greeting, announced, lengths.2] at read

theorem Direction.silent_of_unannounced
    (direction : Direction sender receiver control transit frames)
    (unannounced : sender.announced = false) : receiver.acquainted = false ∧ control = [] := by
  have stranger : receiver.acquainted = false := by
    cases acquainted : receiver.acquainted with
    | false => rfl
    | true => simp [direction.order acquainted] at unannounced
  refine ⟨stranger, ?_⟩
  cases control with
  | nil => rfl
  | cons message rest => simp [(direction.head_of_stranger stranger).1] at unannounced

theorem Direction.announce (direction : Direction sender receiver control transit frames)
    (unannounced : sender.announced = false) :
    Direction { sender with announced := true } receiver
      (control ++ [announcement sender.endpoint]) transit frames := by
  obtain ⟨stranger, rfl⟩ := direction.silent_of_unannounced unannounced
  obtain ⟨delivered, pending, sizes, inFlight⟩ := direction.inFlight
  have nothing := inFlight.control
  simp only [List.nil_eq, List.append_eq_nil_iff, List.map_eq_nil_iff] at nothing
  refine { direction with
    inFlight := ⟨delivered, pending, sizes, { inFlight with control := ?_ }⟩
    order := fun _ => rfl
    silent := by simp }
  simp [greeting, stranger, nothing.2]

theorem Direction.post (direction : Direction sender receiver control transit frames)
    (announced : sender.announced = true) (none : sender.unsent = []) (msg : List UInt8) :
    Direction { sender with sent := sender.sent ++ [msg], unsent := [msg].filter (· ≠ []) }
      receiver (control ++ [.postBuffer msg.length]) transit frames := by
  obtain ⟨delivered, pending, sizes, inFlight⟩ := direction.inFlight
  have before := inFlight.frames
  rw [none, List.append_nil] at before
  refine { direction with
    inFlight := ⟨delivered, pending ++ [msg], sizes ++ [msg.length], { inFlight with
      sent := ?_, control := ?_, sizes := ?_, frames := ?_ }⟩
    silent := by simp [announced] }
  · rw [inFlight.sent, List.append_assoc]
  · rw [inFlight.control]
    simp [greeting]
  · rw [← List.append_assoc, inFlight.sizes, List.map_append]
    rfl
  · rw [← List.append_assoc, before, List.filter_append]

theorem Direction.send {msg : List UInt8}
    (direction : Direction sender receiver control transit frames)
    (unsent : sender.unsent = [msg]) (settled : sender.outstanding = false) :
    Direction { sender with unsent := [], outstanding := true } receiver control
      (transit ++ [msg]) frames := by
  obtain ⟨delivered, pending, sizes, inFlight⟩ := direction.inFlight
  have single := direction.single
  simp only [settled, Bool.false_eq_true, ↓reduceIte, Nat.le_zero, List.length_eq_zero_iff]
    at single
  exact { direction with
    inFlight := ⟨delivered, pending, sizes, { inFlight with
      frames := by simpa [unsent] using inFlight.frames }⟩
    single := by simp [single] }

theorem Direction.complete (direction : Direction sender receiver control [] frames) :
    Direction { sender with outstanding := false } receiver control [] frames :=
  { direction with
    inFlight := by
      obtain ⟨delivered, pending, sizes, inFlight⟩ := direction.inFlight
      exact ⟨delivered, pending, sizes, { inFlight with }⟩
    single := Nat.zero_le _ }

/-- The frame that arrives is the only one in transit. -/
theorem Direction.arrive {frame : List UInt8} {i : Nat}
    (direction : Direction sender receiver control transit frames)
    (arrives : transit[i]? = some frame) :
    Direction sender receiver control (transit.eraseIdx i) (frames ++ [frame]) := by
  obtain ⟨delivered, pending, sizes, inFlight⟩ := direction.inFlight
  have single : transit.length ≤ 1 := direction.single.trans (by split <;> omega)
  obtain ⟨place, found⟩ := List.getElem?_eq_some_iff.mp arrives
  obtain rfl : i = 0 := by omega
  obtain ⟨first, rfl⟩ := List.length_eq_one_iff.mp (show transit.length = 1 by omega)
  simp only [List.getElem_cons_zero] at found
  subst found
  exact { direction with
    inFlight := ⟨delivered, pending, sizes, { inFlight with
      frames := by simpa using inFlight.frames }⟩
    single := Nat.zero_le _ }

theorem Direction.greet (direction : Direction sender receiver (message :: rest) transit frames)
    (stranger : receiver.acquainted = false) :
    Direction sender { receiver with acquainted := true, remote := some sender.endpoint } rest
      transit frames := by
  have announced := (direction.head_of_stranger stranger).1
  obtain ⟨delivered, pending, sizes, inFlight⟩ := direction.inFlight
  have read := inFlight.control
  simp only [greeting, announced, stranger, Bool.not_false, Bool.and_self, ↓reduceIte,
    List.cons_append, List.nil_append, List.cons.injEq] at read
  exact { direction with
    inFlight := ⟨delivered, pending, sizes, { inFlight with
      control := by simp [greeting, read.2] }⟩
    order := fun _ => announced
    known := fun _ => rfl }

theorem Direction.takeSize (direction : Direction sender receiver (message :: rest) transit frames)
    (acquainted : receiver.acquainted = true) (none : receiver.taken = []) :
    ∃ size, message = .postBuffer size ∧
      Direction sender { receiver with taken := [size] } rest transit frames := by
  obtain ⟨delivered, pending, sizes, inFlight⟩ := direction.inFlight
  have read := inFlight.control
  have lengths := inFlight.sizes
  simp only [greeting, acquainted, Bool.not_true, Bool.and_false, Bool.false_eq_true, ↓reduceIte,
    List.nil_append] at read
  rw [none, List.nil_append] at lengths
  cases sizes with
  | nil => simp at read
  | cons size sizes =>
      simp only [List.map_cons, List.cons.injEq] at read
      refine ⟨size, read.1, { direction with
        inFlight := ⟨delivered, pending, sizes, { inFlight with
          control := ?_, sizes := lengths }⟩ }⟩
      simp [greeting, acquainted, read.2]

section InFlight

variable {delivered pending : List (List UInt8)} {sizes : List Nat}

theorem InFlight.first
    (inFlight : InFlight sender receiver control transit frames delivered pending sizes)
    (taken : receiver.taken = [size]) :
    ∃ first later, pending = first :: later ∧ first.length = size ∧
      sizes = later.map List.length := by
  have lengths := inFlight.sizes
  rw [taken] at lengths
  cases pending with
  | nil => simp at lengths
  | cons first later =>
      simp only [List.cons_append, List.nil_append, List.map_cons, List.cons.injEq] at lengths
      exact ⟨first, later, rfl, lengths.1.symm, lengths.2⟩

theorem InFlight.receive {first : List UInt8} {receipt : Receipt}
    (inFlight : InFlight sender receiver control transit frames delivered (first :: pending)
      (pending.map List.length))
    (receives : Receives receipt first)
    (contents : unread ++ (transit ++ sender.unsent) = pending.filter (· ≠ [])) :
    InFlight sender { receiver with received := receiver.received ++ [receipt], taken := [] }
      control transit unread (delivered ++ [first]) pending (pending.map List.length) where
  received := List.rel_append inFlight.received (.cons receives .nil)
  sent := by rw [inFlight.sent, List.append_assoc, List.singleton_append]
  control := inFlight.control
  sizes := rfl
  frames := contents

end InFlight

theorem Direction.takeEmpty (direction : Direction sender receiver control transit frames)
    (taken : receiver.taken = [0]) (given : List UInt8) :
    Direction sender
      { receiver with received := receiver.received ++ [⟨given, 0, given⟩], taken := [] }
      control transit frames := by
  obtain ⟨delivered, pending, sizes, inFlight⟩ := direction.inFlight
  obtain ⟨first, later, rfl, length, rfl⟩ := inFlight.first taken
  obtain rfl := List.length_eq_zero_iff.mp length
  have contents := inFlight.frames
  rw [List.filter_cons_of_neg (by simp)] at contents
  exact { direction with inFlight := ⟨_, _, _, inFlight.receive ⟨rfl, rfl⟩ contents⟩ }

theorem Direction.takeFrame {frame : List UInt8}
    (direction : Direction sender receiver control transit (frame :: unread))
    (taken : receiver.taken = [size]) (full : size ≠ 0) (given : List UInt8) :
    frame.length = size ∧ Direction sender
      { receiver with received := receiver.received ++ [⟨given, size, frame⟩], taken := [] }
      control transit unread := by
  obtain ⟨delivered, pending, sizes, inFlight⟩ := direction.inFlight
  obtain ⟨first, later, rfl, length, rfl⟩ := inFlight.first taken
  have nonempty : first ≠ [] := by
    rintro rfl
    exact full length.symm
  have contents := inFlight.frames
  rw [List.filter_cons_of_pos (by simpa using nonempty), List.cons_append,
    List.cons.injEq] at contents
  obtain ⟨rfl, contents⟩ := contents
  have receives : Receives ⟨given, size, frame⟩ frame := ⟨length.symm, by rw [if_neg nonempty]⟩
  exact ⟨length, { direction with inFlight := ⟨_, _, _, inFlight.receive receives contents⟩ }⟩

end Direction

structure Coherent (socket : Socket) : Prop where
  unbroken : socket.progress ≠ .broken
  waiting : socket.fWaitingForControlPeer = true →
    (∃ result, socket.progress = .idle result) ∨
      ∃ call, socket.progress = .waitForControlPeer call
  met : ∀ call, socket.progress = .waitForControlPeer call → socket.fWaitingForControlPeer = true
  taken : ∀ size ∈ socket.progress.taken, size ≠ 0
  unsent : ∀ msg ∈ socket.progress.unsent, msg ≠ []
  buffers : socket.buffers = socket.progress.buffers

section Socket

variable {socket after : Socket} {control incoming : List ControlMessage}
  {transit frames own : List (List UInt8)} {effect : Effect}

theorem taken_of_readRx {given : List UInt8} {size : Nat}
    (here : socket.progress = .readRx given size) : socket.progress.taken = [size] := by
  rw [here]
  rfl

theorem Coherent.full (coherent : Coherent socket) {size : Nat}
    (taken : socket.progress.taken = [size]) : size ≠ 0 := by
  refine coherent.taken size ?_
  rw [taken]
  exact List.mem_singleton_self size

theorem Coherent.past (coherent : Coherent socket)
    (past : (∀ result, socket.progress ≠ .idle result) ∧
      ∀ call, socket.progress ≠ .waitForControlPeer call) :
    socket.fWaitingForControlPeer = false := by
  cases waiting : socket.fWaitingForControlPeer with
  | false => rfl
  | true =>
      obtain ⟨result, idle⟩ | ⟨call, waits⟩ := coherent.waiting waiting
      · exact absurd idle (past.1 result)
      · exact absurd waits (past.2 call)

theorem Direction.sender_advances {receiver : Receiving} {address : SockaddrIn}
    (direction : Direction socket.sending receiver control transit frames)
    (coherent : Coherent socket)
    (known : socket.acquainted = true → socket.fRemoteDataAddr = some address)
    (advances : Advances socket incoming own effect) :
    Direction effect.socket.sending receiver (control ++ effect.outgoing)
      (transit ++ (effect.posted.filter fun frame => frame.1 = address).map Prod.snd) frames := by
  cases advances with
  | waitForControlPeer here event =>
      have waiting := coherent.met _ here
      simpa [here, waiting] using direction
  | announceDataAddress here =>
      have past := coherent.past (by simp [here])
      have announced := direction.announce (by simp [here])
      simpa [here, past] using announced
  | postEmpty here =>
      have past := coherent.past (by simp [here])
      have posted := direction.post (by simp [here, past]) (by simp [here]) []
      simpa [Socket.finishSend, here, past] using posted
  | @postBuffer msg here full =>
      have past := coherent.past (by simp [here])
      have posted := direction.post (by simp [here, past]) (by simp [here]) msg
      simpa [here, past, full] using posted
  | @fiSend msg address' here isAddress =>
      have past := coherent.past (by simp [here])
      have same := known (by simp [past, here])
      cases isAddress.symm.trans same
      have unsent : socket.sending.unsent = [msg] := by simp [here]
      simpa [here] using direction.send unsent (by simp [here])
  | noAddress here unknown =>
      have past := coherent.past (by simp [here])
      have same := known (by simp [past, here])
      simp [unknown] at same
  | @processDataAddressAnnouncement call _ _ _ here _ =>
      cases call <;> simpa [Call.transfer, here] using direction
  | noAnnouncement here _ | readTx here | receiveEmpty here _ | receiveControlMessage here _ _
  | noPostBuffer here _ | fiRecv here | readRx here _ _ | wrongFrame here _ _ _
  | longFrame here _ _ _ =>
      simpa [Socket.finishSend, Socket.finishReceive, here] using direction

theorem Direction.unbroken {sender : Sending}
    (direction : Direction sender socket.receiving control transit frames)
    (coherent : Coherent socket)
    (advances : Advances socket control frames effect) : effect.socket.progress ≠ .broken := by
  cases advances with
  | noAnnouncement here read =>
      subst read
      have address := (direction.head_of_stranger (by simp [here])).2
      contradiction
  | noPostBuffer here read =>
      subst read
      have past := coherent.past (by simp [here])
      obtain ⟨size, posted, _⟩ := direction.takeSize (by simp [past, here]) (by simp [here])
      contradiction
  | noAddress here unknown =>
      have past := coherent.past (by simp [here])
      have known := direction.known (by simp [past, here])
      simp [unknown] at known
  | wrongFrame here read filled wrong =>
      subst read
      have taken := taken_of_readRx here
      have length := (direction.takeFrame taken (coherent.full taken) []).1
      have posted := filled.symm.trans coherent.buffers
      simp [here] at posted
      exact absurd ⟨length, posted.2⟩ wrong
  | @processDataAddressAnnouncement call => cases call <;> simp [Call.transfer]
  | _ => simp [Socket.finishSend, Socket.finishReceive]

theorem Direction.receiver_advances {sender : Sending}
    (direction : Direction sender socket.receiving control transit frames)
    (coherent : Coherent socket)
    (advances : Advances socket control frames effect) :
    Direction sender effect.socket.receiving effect.control transit effect.frames := by
  have unbroken := direction.unbroken coherent advances
  cases advances with
  | waitForControlPeer here event =>
      have waiting := coherent.met _ here
      simpa [waiting, here] using direction
  | @processDataAddressAnnouncement call ipv4 port rest here read =>
      subst read
      have past := coherent.past (by simp [here])
      have stranger : socket.receiving.acquainted = false := by
        simp [here]
      have address := (direction.head_of_stranger stranger).2
      rw [ControlMessage.dataAddressAnnouncement.injEq] at address
      obtain ⟨rfl, rfl⟩ := address
      have greeted := direction.greet stranger
      cases call <;> simpa [past, Call.transfer, here] using greeted
  | @receiveEmpty msg rest here read =>
      subst read
      have past := coherent.past (by simp [here])
      obtain ⟨size, posted, taking⟩ := direction.takeSize (by simp [past, here]) (by simp [here])
      cases posted
      have received := taking.takeEmpty rfl msg
      simpa [Socket.finishReceive, here] using received
  | receiveControlMessage here read full =>
      subst read
      have past := coherent.past (by simp [here])
      obtain ⟨size, posted, taking⟩ := direction.takeSize (by simp [past, here]) (by simp [here])
      cases posted
      simpa [here] using taking
  | @readRx given frame rest _ here read _ =>
      subst read
      have taken := taken_of_readRx here
      have received := (direction.takeFrame taken (coherent.full taken) given).2
      simpa [Socket.finishReceive, here] using received
  | longFrame here read filled long =>
      subst read
      have taken := taken_of_readRx here
      have length := (direction.takeFrame taken (coherent.full taken) []).1
      have posted := filled.symm.trans coherent.buffers
      simp [here] at posted
      omega
  | noAnnouncement | noPostBuffer | wrongFrame => exact absurd rfl unbroken
  | announceDataAddress here | postEmpty here | postBuffer here _ | fiSend here _
  | noAddress here _ | readTx here | fiRecv here =>
      simpa [Socket.finishSend, here] using direction

theorem Coherent.advance {sender : Sending} (coherent : Coherent socket)
    (direction : Direction sender socket.receiving control transit frames)
    (advances : Advances socket control frames effect) : Coherent effect.socket := by
  have unbroken := direction.unbroken coherent advances
  have posted := coherent.buffers
  cases advances with
  | waitForControlPeer here =>
      simp only [here, Progress.buffers] at posted
      constructor <;> simp [posted]
  | @processDataAddressAnnouncement call _ _ _ here =>
      have past := coherent.past (by simp [here])
      simp only [here, Progress.buffers] at posted
      constructor <;> cases call <;> simp [past, posted, Call.transfer]
  | postBuffer here full | receiveControlMessage here _ full =>
      have past := coherent.past (by simp [here])
      simp only [here, Progress.buffers] at posted
      constructor <;> simp [past, posted, full]
  | @fiRecv given size here =>
      have past := coherent.past (by simp [here])
      have full : size ≠ 0 := coherent.full (by simp [here])
      simp only [here, Progress.buffers] at posted
      constructor <;> simp [past, posted, full]
  | noAnnouncement | noAddress | noPostBuffer | wrongFrame => exact absurd rfl unbroken
  | longFrame here _ filled _ =>
      have past := coherent.past (by simp [here])
      simp only [filled, here, Progress.buffers, List.cons.injEq] at posted
      constructor <;> simp [past, posted.2]
  | announceDataAddress here | fiSend here _ | postEmpty here | readTx here
  | receiveEmpty here _ | readRx here _ _ =>
      have past := coherent.past (by simp [here])
      simp only [here, Progress.buffers] at posted
      constructor <;> simp [past, posted, Socket.finishSend, Socket.finishReceive]

theorem Advances.endpoint (advances : Advances socket control frames effect) :
    effect.socket.fDataEndpoint = socket.fDataEndpoint := by
  cases advances <;> rfl

theorem Direction.posted {sender : Sending} (coherent : Coherent socket)
    (direction : Direction sender socket.receiving control transit frames)
    (advances : Advances socket control frames effect) :
    ∀ frame ∈ effect.posted, frame.1 = sender.endpoint := by
  cases advances with
  | fiSend here address =>
      have past := coherent.past (by simp [here])
      have known := direction.known (by simp [past, here])
      simpa [address] using known
  | _ => simp

structure Unseen (before after : Socket) : Prop where
  sending : after.sending = before.sending
  receiving : after.receiving = before.receiving
  coherent : Coherent after

theorem Socket.begin_unseen {call : Call} (coherent : Coherent socket) (begun : socket.begin call = some after) :
    Unseen socket after := by
  unfold Socket.begin at begun
  split at begun <;> cases begun
  rename_i result idle
  have posted := coherent.buffers
  simp only [idle, Progress.buffers] at posted
  cases waiting : socket.fWaitingForControlPeer with
  | true =>
      simp only [↓reduceIte]
      refine ⟨?_, ?_, ?_⟩
      · simp [waiting, idle]
      · simp [waiting, idle]
      · constructor <;> simp [posted]
  | false =>
      simp only [Bool.false_eq_true, ↓reduceIte]
      refine ⟨?_, ?_, ?_⟩
      · cases call <;> simp [Call.transfer, waiting, idle]
      · cases call <;> simp [Call.transfer, waiting, idle]
      · constructor <;> cases call <;> simp [posted, Call.transfer]

theorem Socket.idle_unseen (coherent : Coherent socket)
    (clean : socket.progress.failsCleanly = true) (event : Bool) (result : Option Int) :
    Unseen socket { socket with monitorEvent := event, progress := .idle result } := by
  have posted : socket.buffers = [] := by
    rw [coherent.buffers]
    cases progress : socket.progress with
    | readRx => simp [progress, Progress.failsCleanly] at clean
    | _ => rfl
  refine ⟨?_, ?_, by constructor <;> simp [posted]⟩
  all_goals
    cases progress : socket.progress with
    | waitForControlPeer call =>
        have waiting := coherent.met call progress
        simp [waiting, progress]
    | postBuffer msg | receiveControlMessage msg => simp [progress]
    | _ => simp [progress, Progress.failsCleanly] at clean

theorem Socket.fail_unseen {consumed : Bool} {rest : List ControlMessage}
    (coherent : Coherent socket) (clean : socket.progress.failsCleanly = true)
    (failed : socket.fail consumed control = some (after, rest)) :
    rest = control ∧ Unseen socket after := by
  have kept := Socket.idle_unseen coherent clean socket.monitorEvent (some (-1))
  have taken := Socket.idle_unseen coherent clean false (some (-1))
  cases progress : socket.progress with
  | waitForControlPeer call =>
      simp only [Socket.fail, progress] at failed
      split at failed
      · split at failed <;> cases failed
        exact ⟨rfl, taken⟩
      · cases failed
        exact ⟨rfl, kept⟩
  | postBuffer msg | receiveControlMessage msg =>
      simp only [Socket.fail, progress] at failed
      split at failed <;> cases failed
      exact ⟨rfl, kept⟩
  | _ => simp [progress, Progress.failsCleanly] at clean

end Socket

@[simp]
theorem peer_peer (side : Side) : side.peer.peer = side := by
  cases side <;> rfl

@[simp]
theorem peer_ne (side : Side) : side.peer ≠ side := by
  cases side <;> decide

theorem eq_or_peer (side other : Side) : other = side ∨ other = side.peer := by
  cases side <;> cases other <;> simp [Side.peer]

structure Sound (pair : Pair) : Prop where
  distinct : ∀ side, (pair.socket side).fDataEndpoint ≠ (pair.socket side.peer).fDataEndpoint
  coherent : ∀ side, Coherent (pair.socket side)
  direction : ∀ side, Direction (pair.socket side).sending (pair.socket side.peer).receiving
    (pair.control side) (pair.coming side.peer) (pair.frames side.peer)
  capacity : ∀ side, pair.capacity side ≠ some 0

theorem Sound.start {endpoint : Side → SockaddrIn} {capacity : Side → Option Nat}
    (distinct : endpoint .binding ≠ endpoint .connecting)
    (capable : ∀ side, capacity side ≠ some 0) : Sound (.start endpoint capacity) where
  distinct side := by
    cases side with
    | binding => exact distinct
    | connecting => exact distinct.symm
  coherent side := {
    unbroken := by simp [Pair.start, Socket.start]
    waiting := fun _ => .inl ⟨none, rfl⟩
    met := by simp [Pair.start, Socket.start]
    taken := by simp [Pair.start, Socket.start]
    unsent := by simp [Pair.start, Socket.start]
    buffers := rfl }
  capacity := capable
  direction side := {
    inFlight := ⟨[], [], [], .nil, rfl, rfl, rfl, rfl⟩
    single := Nat.zero_le _
    order := nofun
    known := nofun
    silent := fun _ => rfl }

section Pair

variable {pair after : Pair} {side : Side} {action : Action}

theorem Sound.reads (sound : Sound pair) (side : Side) :
    Direction (pair.socket side.peer).sending (pair.socket side).receiving
      (pair.control side.peer) (pair.coming side) (pair.frames side) := by
  simpa using sound.direction side.peer

theorem Sound.set {socket : Socket} (sound : Sound pair)
    (endpoint : socket.fDataEndpoint = (pair.socket side).fDataEndpoint)
    (receiving : socket.receiving = (pair.socket side).receiving) (coherent : Coherent socket)
    (direction : Direction socket.sending (pair.socket side.peer).receiving (pair.control side)
      (pair.coming side.peer) (pair.frames side.peer)) : Sound (pair.set side socket) := by
  have endpoints : ∀ other, ((pair.set side socket).socket other).fDataEndpoint =
      (pair.socket other).fDataEndpoint :=
    (Function.forall_update_iff _ fun other (socket : Socket) =>
      socket.fDataEndpoint = (pair.socket other).fDataEndpoint).mpr ⟨endpoint, fun _ _ => rfl⟩
  refine ⟨?_, ?_, ?_, sound.capacity⟩
  · intro other
    rw [endpoints, endpoints]
    exact sound.distinct other
  · exact (Function.forall_update_iff _ fun _ => Coherent).mpr
      ⟨coherent, fun other _ => sound.coherent other⟩
  · intro other
    have own : (pair.set side socket).socket side = socket := Function.update_self ..
    have kept : (pair.set side socket).socket side.peer = pair.socket side.peer :=
      Function.update_of_ne (peer_ne side) ..
    rw [Pair.coming, Pair.frames, endpoints]
    rcases eq_or_peer side other with rfl | rfl
    · rw [own, kept]
      exact direction
    · rw [peer_peer, own, kept, receiving]
      exact sound.reads side

theorem Sound.unseen {socket : Socket} (sound : Sound pair)
    (unseen : Unseen (pair.socket side) socket) : Sound (pair.set side socket) :=
  sound.set (congrArg Sending.endpoint unseen.sending) unseen.receiving unseen.coherent
    (unseen.sending ▸ sound.direction side)

theorem Sound.connect (sound : Sound pair) : Sound pair.connect where
  distinct := sound.distinct
  coherent side := { sound.coherent side with }
  direction := sound.direction
  capacity := sound.capacity

theorem Sound.advance {effect : Effect} (sound : Sound pair)
    (advances : Advances (pair.socket side) (pair.control side.peer) (pair.frames side) effect) :
    Sound (pair.apply side effect) := by
  have reads := sound.reads side
  have coherent := sound.coherent side
  have endpoint : ∀ other, ((pair.apply side effect).socket other).fDataEndpoint =
      (pair.socket other).fDataEndpoint :=
    (Function.forall_update_iff _ fun other (socket : Socket) =>
      socket.fDataEndpoint = (pair.socket other).fDataEndpoint).mpr
      ⟨advances.endpoint, fun _ _ => rfl⟩
  have own : (pair.apply side effect).frames side = effect.frames := by
    rw [Pair.frames, endpoint]
    simp [Pair.apply]
  have others : (pair.apply side effect).frames side.peer = pair.frames side.peer := by
    rw [Pair.frames, endpoint]
    simp [Pair.apply, Pair.frames, (sound.distinct side).symm]
  have coming : ∀ other, (pair.apply side effect).coming other = pair.coming other ++
      (effect.posted.filter
        fun frame => frame.1 = (pair.socket other).fDataEndpoint).map Prod.snd := by
    intro other
    rw [Pair.coming, endpoint]
    rfl
  have none : effect.posted.filter
      (fun frame => frame.1 = (pair.socket side).fDataEndpoint) = [] := by
    rw [List.filter_eq_nil_iff]
    intro frame member
    rw [reads.posted coherent advances frame member, decide_eq_true_eq]
    exact (sound.distinct side).symm
  refine ⟨?_, ?_, ?_, sound.capacity⟩
  · intro other
    rw [endpoint, endpoint]
    exact sound.distinct other
  · exact (Function.forall_update_iff _ fun _ => Coherent).mpr
      ⟨coherent.advance reads advances, fun other _ => sound.coherent other⟩
  · intro other
    rcases eq_or_peer side other with rfl | rfl
    · have known : (pair.socket other).acquainted = true →
          (pair.socket other).fRemoteDataAddr = some (pair.socket other.peer).fDataEndpoint :=
        reads.known
      rw [others, coming]
      simpa [Pair.apply] using (sound.direction other).sender_advances coherent known advances
    · rw [peer_peer, own, coming, none]
      simpa [Pair.apply] using reads.receiver_advances coherent advances

theorem Sound.complete {socket : Socket} (sound : Sound pair)
    (arrived : pair.coming side.peer = [])
    (completed : (pair.socket side).complete = some socket) : Sound (pair.set side socket) := by
  have coherent := sound.coherent side
  have direction := sound.direction side
  rw [arrived] at direction
  unfold Socket.complete at completed
  split at completed <;> cases completed
  rename_i msg here
  refine sound.set rfl (by simp [here]) ?_ ?_
  · have past := coherent.past (by simp [here])
    have buffers := coherent.buffers
    constructor <;> simp_all
  · rw [arrived]
    simpa [here] using direction.complete

theorem Sound.arrive {i : Nat} (sound : Sound pair) (arrived : pair.arrive side i = some after) :
    Sound after := by
  obtain ⟨frame, found, rfl⟩ := Option.map_eq_some_iff.mp arrived
  refine ⟨sound.distinct, sound.coherent, ?_, sound.capacity⟩
  intro other
  rcases eq_or_peer side other with rfl | rfl
  · simpa [Pair.coming, Pair.frames, (sound.distinct other).symm] using sound.direction other
  · simpa [Pair.coming, Pair.frames] using (sound.reads side).arrive found

theorem Sound.step (sound : Sound pair) (clean : Clean pair action)
    (stepped : pair.step action = some after) : Sound after := by
  cases action with
  | connect =>
      simp only [Pair.step] at stepped
      split at stepped <;> cases stepped
      exact sound.connect
  | begin side call =>
      simp only [Pair.step, Option.map_eq_some_iff] at stepped
      obtain ⟨socket, begun, rfl⟩ := stepped
      exact sound.unseen (Socket.begin_unseen (sound.coherent side) begun)
  | advance side =>
      simp only [Pair.step, Option.map_eq_some_iff] at stepped
      obtain ⟨effect, advanced, rfl⟩ := stepped
      exact sound.advance (Socket.advance_advances advanced)
  | fail side consumed =>
      simp only [Pair.step, Option.map_eq_some_iff] at stepped
      obtain ⟨⟨socket, rest⟩, failed, rfl⟩ := stepped
      obtain ⟨rfl, unseen⟩ := Socket.fail_unseen (sound.coherent side) clean failed
      simpa [Pair.set] using sound.unseen unseen
  | complete side =>
      simp only [Pair.step, Option.map_eq_some_iff] at stepped
      obtain ⟨socket, completed, rfl⟩ := stepped
      exact sound.complete clean completed
  | arrive side i => exact sound.arrive stepped

end Pair

theorem sound_of_reaches {pair : Pair} (reached : pairSystem.ReachesUnder Clean pair) :
    Sound pair :=
  reached.invariant
    (fun _ initially => by
      obtain ⟨endpoint, capacity, distinct, capable, rfl⟩ := initially
      exact .start distinct capable)
    fun _ _ _ sound clean stepped => sound.step clean stepped

/-- In every run whose failures are clean, what a socket has received is what its peer has
sent, in its order and without gaps: the sizes that `Receive` returns, and the bytes, except
that an empty message leaves the message it is received into as it was.  No `assert` of
either end fails, and an end that has made the handshake knows the address of the other. -/
theorem transfers_in_order {pair : Pair} (reached : pairSystem.ReachesUnder Clean pair)
    (side : Side) :
    (pair.socket side).progress ≠ .broken ∧
      ((pair.socket side).acquainted = true →
        (pair.socket side).fRemoteDataAddr = some (pair.socket side.peer).fDataEndpoint) ∧
      ∃ delivered pending, (pair.socket side.peer).sent = delivered ++ pending ∧
        List.Forall₂ Receives (pair.socket side).received delivered := by
  have sound := sound_of_reaches reached
  have reads := sound.reads side
  obtain ⟨delivered, pending, sizes, inFlight⟩ := reads.inFlight
  exact ⟨(sound.coherent side).unbroken, reads.known, delivered, pending, inFlight.sent,
    inFlight.received⟩

def localEndpoint : Side → SockaddrIn
  | .binding => ⟨(0, 1), ⟨127, 0, 0, 1⟩⟩
  | .connecting => ⟨(0, 2), ⟨127, 0, 0, 1⟩⟩

def localPair : Pair := .start localEndpoint fun _ => some 2000

def transferTrace : List Action :=
  [.connect, .begin .binding (.send [1, 2, 3]), .begin .connecting (.receive []),
    .advance .binding, .advance .connecting, .advance .binding, .advance .connecting,
    .advance .binding, .advance .connecting, .advance .binding, .advance .binding,
    .advance .connecting, .advance .connecting, .arrive .connecting 0, .advance .connecting]

theorem three_bytes_transferred :
    ∃ pair, pairSystem.ReachesUnder Clean pair ∧
      (pair.socket .connecting).received = [⟨[], 3, [1, 2, 3]⟩] ∧
      ∃ delivered pending, (pair.socket .binding).sent = delivered ++ pending ∧
        List.Forall₂ Receives (pair.socket .connecting).received delivered := by
  obtain ⟨pair, reached, received⟩ : ∃ pair, pairSystem.ReachesUnder Clean pair ∧
      (pair.socket .connecting).received = [⟨[], 3, [1, 2, 3]⟩] :=
    TransitionSystem.reaches_of_runUnder localPair transferTrace
      ⟨localEndpoint, _, by decide, by simp, rfl⟩ (by decide +kernel)
  exact ⟨pair, reached, received, (transfers_in_order reached .connecting).2.2⟩

/-- After a `fi_send` that fails, the peer waits for a frame that belongs to the next message
and finds that it is too short. -/
example : ((pairSystem.run localPair
    (transferTrace.take 10 ++ [.fail .binding false, .begin .binding (.send [4]),
      .advance .binding, .advance .binding, .arrive .connecting 0, .advance .connecting,
      .advance .connecting, .advance .connecting])).map
        fun pair => (pair.socket .connecting).progress) = some .broken := by decide +kernel

/-- When a completion is reported before its frame has arrived, the next frame may overtake. -/
example : ((pairSystem.run localPair
    (transferTrace.take 13 ++ [.complete .binding, .advance .binding,
      .begin .binding (.send [4]), .advance .binding, .advance .binding, .arrive .connecting 1,
      .advance .connecting])).map
        fun pair => (pair.socket .connecting).progress) = some .broken := by decide +kernel

end FairMQ.Ofi
