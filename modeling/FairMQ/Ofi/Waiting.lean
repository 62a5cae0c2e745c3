import FairMQ.Ofi.Pair
import Mathlib.Algebra.Ring.Nat

namespace FairMQ.Ofi

open FairMQ.Data

theorem Clean.of_flawless (pair : Pair) (action : Action) (flawless : Flawless pair action) :
    Clean pair action := by
  cases action with
  | fail side consumed => exact flawless.elim
  | complete side => exact flawless
  | connect | begin | advance | arrive => trivial

theorem sound_of_flawless {pair : Pair} (reached : pairSystem.ReachesUnder Flawless pair) :
    Sound pair :=
  sound_of_reaches (reached.weaken Clean.of_flawless)

inductive Blocked (socket : Socket) (room : Bool) (control : List ControlMessage)
    (frames : List (List UInt8)) : Prop where
  | waitForControlPeer {call : Call} (here : socket.progress = .waitForControlPeer call)
      (silent : socket.monitorEvent = false)
  | announceDataAddress {call : Call} (here : socket.progress = .announceDataAddress call)
      (full : room = false)
  | processDataAddressAnnouncement {call : Call}
      (here : socket.progress = .processDataAddressAnnouncement call) (empty : control = [])
  | postBuffer {msg : List UInt8} (here : socket.progress = .postBuffer msg) (full : room = false)
  | readTx {msg : List UInt8} (here : socket.progress = .readTx msg false)
  | receiveControlMessage {msg : List UInt8}
      (here : socket.progress = .receiveControlMessage msg) (empty : control = [])
  | readRx {given : List UInt8} {size : Nat} (here : socket.progress = .readRx given size)
      (empty : frames = [] ∨ socket.buffers = [])

theorem Socket.advance_blocked {socket : Socket} {room : Bool} {control : List ControlMessage}
    {frames : List (List UInt8)} (blocked : socket.advance room control frames = none)
    (calls : ∀ result, socket.progress ≠ .idle result) (unbroken : socket.progress ≠ .broken) :
    Blocked socket room control frames := by
  cases here : socket.progress with
  | idle result => exact absurd here (calls result)
  | broken => exact absurd here unbroken
  | waitForControlPeer call =>
      refine .waitForControlPeer here ?_
      simpa [Socket.advance, here] using blocked
  | announceDataAddress call =>
      refine .announceDataAddress here ?_
      simpa [Socket.advance, here] using blocked
  | postBuffer msg =>
      refine .postBuffer here ?_
      simpa [Socket.advance, here] using blocked
  | readTx msg completed =>
      obtain rfl : completed = false := by simpa [Socket.advance, here] using blocked
      exact .readTx here
  | processDataAddressAnnouncement | receiveControlMessage =>
      simp only [Socket.advance, here] at blocked
      split at blocked <;> cases blocked
      first
        | exact .processDataAddressAnnouncement here rfl
        | exact .receiveControlMessage here rfl
  | readRx given size =>
      refine .readRx here ?_
      cases unread : frames with
      | nil => exact .inl rfl
      | cons frame rest =>
          cases posted : socket.buffers with
          | nil => exact .inr rfl
          | cons buffer buffers => simp [Socket.advance, here, unread, posted] at blocked
  | fiSend msg =>
      simp only [Socket.advance, here] at blocked
      split at blocked <;> contradiction
  | fiRecv => simp [Socket.advance, here] at blocked

def Socket.Alert (socket : Socket) : Prop :=
  socket.fWaitingForControlPeer = true → socket.monitorEvent = true

def Alert (pair : Pair) : Prop :=
  pair.connected = true → ∀ side, (pair.socket side).Alert

theorem Socket.Alert.advance {socket : Socket} {control : List ControlMessage}
    {frames : List (List UInt8)} {effect : Effect} (alert : socket.Alert)
    (advances : Advances socket control frames effect) : effect.socket.Alert := by
  cases advances with
  | waitForControlPeer => simp [Socket.Alert]
  | _ => exact alert

theorem Socket.Alert.begin {socket after : Socket} {call : Call} (alert : socket.Alert)
    (begun : socket.begin call = some after) : after.Alert := by
  unfold Socket.begin at begun
  split at begun <;> cases begun
  exact alert

theorem Socket.Alert.complete {socket after : Socket} (alert : socket.Alert)
    (completed : socket.complete = some after) : after.Alert := by
  unfold Socket.complete at completed
  split at completed <;> cases completed
  exact alert

theorem Alert.step {pair after : Pair} {action : Action} (alert : Alert pair)
    (flawless : Flawless pair action) (stepped : pair.step action = some after) :
    Alert after := by
  cases action with
  | connect =>
      simp only [Pair.step] at stepped
      split at stepped <;> cases stepped
      exact fun _ _ _ => rfl
  | begin side call =>
      simp only [Pair.step, Option.map_eq_some_iff] at stepped
      obtain ⟨socket, begun, rfl⟩ := stepped
      exact fun connected => (Function.forall_update_iff _ fun _ => Socket.Alert).mpr
        ⟨(alert connected side).begin begun, fun other _ => alert connected other⟩
  | advance side =>
      simp only [Pair.step, Option.map_eq_some_iff] at stepped
      obtain ⟨effect, advanced, rfl⟩ := stepped
      have advances := Socket.advance_advances advanced
      exact fun connected => (Function.forall_update_iff _ fun _ => Socket.Alert).mpr
        ⟨(alert connected side).advance advances, fun other _ => alert connected other⟩
  | fail side consumed => exact flawless.elim
  | complete side =>
      simp only [Pair.step, Option.map_eq_some_iff] at stepped
      obtain ⟨socket, completed, rfl⟩ := stepped
      exact fun connected => (Function.forall_update_iff _ fun _ => Socket.Alert).mpr
        ⟨(alert connected side).complete completed, fun other _ => alert connected other⟩
  | arrive side i =>
      obtain ⟨frame, _, rfl⟩ := Option.map_eq_some_iff.mp stepped
      exact alert

theorem alert_of_reaches {pair : Pair} (reached : pairSystem.ReachesUnder Flawless pair) :
    Alert pair :=
  reached.invariant
    (fun _ initially => by
      obtain ⟨endpoint, capacity, distinct, capable, rfl⟩ := initially
      intro connected
      simp [Pair.start] at connected)
    fun _ _ _ alert flawless stepped => alert.step flawless stepped

section Direction

variable {sender : Sending} {receiver : Receiving} {control : List ControlMessage}
  {transit frames : List (List UInt8)}

theorem Direction.all_received (direction : Direction sender receiver [] transit frames)
    (none : receiver.taken = []) : List.Forall₂ Receives receiver.received sender.sent := by
  obtain ⟨delivered, pending, sizes, inFlight⟩ := direction.inFlight
  have unread := inFlight.control
  have lengths := inFlight.sizes
  simp only [List.nil_eq, List.append_eq_nil_iff, List.map_eq_nil_iff] at unread
  rw [none, unread.2, List.nil_append, List.nil_eq, List.map_eq_nil_iff] at lengths
  rw [inFlight.sent, lengths, List.append_nil]
  exact inFlight.received

theorem Direction.unannounced_of_stranger
    (direction : Direction sender receiver [] transit frames)
    (stranger : receiver.acquainted = false) : sender.announced = false := by
  obtain ⟨delivered, pending, sizes, inFlight⟩ := direction.inFlight
  have unread := inFlight.control
  cases announced : sender.announced with
  | false => rfl
  | true => simp [greeting, announced, stranger] at unread

theorem Direction.coming_of_taken {size : Nat}
    (direction : Direction sender receiver control transit [])
    (taken : receiver.taken = [size]) (full : size ≠ 0) : transit ≠ [] ∨ sender.unsent ≠ [] := by
  obtain ⟨delivered, pending, sizes, inFlight⟩ := direction.inFlight
  obtain ⟨first, later, rfl, length, _⟩ := inFlight.first taken
  have nonempty : first ≠ [] := by
    rintro rfl
    exact full length.symm
  have contents := inFlight.frames
  rw [List.nil_append, List.filter_cons_of_pos (by simpa using nonempty)] at contents
  by_contra nothing
  simp only [ne_eq, not_or, not_not] at nothing
  simp [nothing] at contents

end Direction

theorem Sound.room_of_unannounced {pair : Pair} (sound : Sound pair) {side : Side}
    (unannounced : (pair.socket side).announced = false) : pair.room side = true := by
  have silent := ((sound.direction side).silent_of_unannounced unannounced).2
  have capable := sound.capacity side
  cases bound : pair.capacity side with
  | none => simp [Pair.room, bound]
  | some bound' =>
      rw [bound] at capable
      simpa [Pair.room, bound, silent, Nat.pos_iff_ne_zero] using capable

theorem Coherent.unannounced_advances {socket : Socket} (coherent : Coherent socket)
    (unannounced : socket.announced = false)
    (event : socket.fWaitingForControlPeer = true → socket.monitorEvent = true)
    (control : List ControlMessage) (frames : List (List UInt8)) :
    (socket.advance true control frames).isSome = true ∨
      (socket.fWaitingForControlPeer = true ∧ ∃ result, socket.progress = .idle result) := by
  cases progress : socket.progress with
  | idle result =>
      refine .inr ⟨?_, result, rfl⟩
      simpa [progress] using unannounced
  | waitForControlPeer call =>
      have alert := event (coherent.met call progress)
      exact .inl (by simp [Socket.advance, progress, alert])
  | announceDataAddress call => exact .inl (by simp [Socket.advance, progress])
  | _ =>
      have past := coherent.past (by simp [progress])
      simp [past, progress] at unannounced

def Action.ofFabric : Action → Bool
  | .complete _ | .arrive _ _ => true
  | _ => false

/-- A frame is on its way, or a completion is to be reported. -/
def Pair.Carrying (pair : Pair) : Prop :=
  ∃ action : Action, action.ofFabric = true ∧ Flawless pair action ∧
    (pair.step action).isSome = true

theorem Pair.carrying_of_coming {pair : Pair} {side : Side} (coming : pair.coming side ≠ []) :
    pair.Carrying := by
  obtain ⟨frame, rest, isComing⟩ := List.exists_cons_of_ne_nil coming
  exact ⟨.arrive side 0, rfl, trivial, by simp [Pair.step, Pair.arrive, isComing]⟩

theorem Pair.carrying_of_readTx {pair : Pair} {side : Side} {msg : List UInt8}
    (here : (pair.socket side).progress = .readTx msg false) : pair.Carrying := by
  by_cases arrived : pair.coming side.peer = []
  · exact ⟨.complete side, rfl, arrived, by simp [Pair.step, Socket.complete, here]⟩
  · exact Pair.carrying_of_coming arrived

/-- In a run without failures, a call on a connected socket that cannot go on leaves five
possibilities: the other end can go on, or the fabric can, or the other end has not begun its
first call, or the call is a `Receive` that has received everything the other end has sent, or
it is a `Send` whose `PostBuffer` zmq does not take before the other end reads. -/
theorem blocked_calls_wait_for_peer {pair : Pair}
    (reached : pairSystem.ReachesUnder Flawless pair) (connected : pair.connected = true)
    (side : Side) (calls : ∀ result, (pair.socket side).progress ≠ .idle result)
    (blocked : pair.step (.advance side) = none) :
    (pair.step (.advance side.peer)).isSome = true ∨ pair.Carrying ∨
      ((pair.socket side.peer).fWaitingForControlPeer = true ∧
        ∃ result, (pair.socket side.peer).progress = .idle result) ∨
      ((∃ msg, (pair.socket side).progress = .receiveControlMessage msg) ∧
        List.Forall₂ Receives (pair.socket side).received (pair.socket side.peer).sent) ∨
      ((∃ msg, (pair.socket side).progress = .postBuffer msg) ∧ pair.room side = false) := by
  have sound := sound_of_flawless reached
  have alert := alert_of_reaches reached connected
  have reads := sound.reads side
  have coherent := sound.coherent side
  have peer := sound.coherent side.peer
  simp only [Pair.step, Option.map_eq_none_iff] at blocked
  simp only [Pair.step, Option.isSome_map]
  cases Socket.advance_blocked blocked calls coherent.unbroken with
  | waitForControlPeer here silent =>
      have event := alert side (coherent.met _ here)
      simp [silent] at event
  | announceDataAddress here full =>
      have room := sound.room_of_unannounced (show (pair.socket side).announced = false by
        simp [here])
      simp [full] at room
  | processDataAddressAnnouncement here empty =>
      rw [empty] at reads
      have unannounced : (pair.socket side.peer).announced = false :=
        reads.unannounced_of_stranger (by simp [here])
      rw [sound.room_of_unannounced unannounced]
      rcases peer.unannounced_advances unannounced (alert side.peer)
        (pair.control side.peer.peer) (pair.frames side.peer) with advances | waits
      · exact .inl advances
      · exact .inr (.inr (.inl waits))
  | @postBuffer msg here full => exact .inr (.inr (.inr (.inr ⟨⟨msg, here⟩, full⟩)))
  | readTx here => exact .inr (.inl (Pair.carrying_of_readTx here))
  | @receiveControlMessage msg here empty =>
      rw [empty] at reads
      exact .inr (.inr (.inr (.inl ⟨⟨msg, here⟩, reads.all_received (by simp [here])⟩)))
  | readRx here empty =>
      have taken := taken_of_readRx here
      have posted := coherent.buffers
      simp only [here, Progress.buffers] at posted
      simp only [posted, List.cons_ne_self, or_false] at empty
      rw [empty] at reads
      rcases reads.coming_of_taken taken (coherent.full taken) with coming | unsent
      · exact .inr (.inl (Pair.carrying_of_coming coming))
      · cases sending : (pair.socket side.peer).progress with
        | fiSend msg =>
            refine .inl ?_
            simp only [Socket.advance, sending]
            split <;> rfl
        | _ => simp [sending] at unsent

/-- The connecting side receives before the binding side has begun its first call. -/
def aloneTrace : List Action :=
  [.connect, .begin .connecting (.receive []), .advance .connecting, .advance .connecting]

theorem alone_waits :
    ∃ pair, pairSystem.ReachesUnder Flawless pair ∧
      pair.step (.advance .connecting) = none ∧
      ((pair.step (.advance .binding)).isSome = true ∨ pair.Carrying ∨
        ((pair.socket .binding).fWaitingForControlPeer = true ∧
          ∃ result, (pair.socket .binding).progress = .idle result) ∨
        ((∃ msg, (pair.socket .connecting).progress = .receiveControlMessage msg) ∧
          List.Forall₂ Receives (pair.socket .connecting).received
            (pair.socket .binding).sent) ∨
        ((∃ msg, (pair.socket .connecting).progress = .postBuffer msg) ∧
          pair.room .connecting = false)) := by
  obtain ⟨pair, reached, connected, here, blocked⟩ : ∃ pair,
      pairSystem.ReachesUnder Flawless pair ∧ pair.connected = true ∧
        (pair.socket .connecting).progress = .processDataAddressAnnouncement (.receive []) ∧
        (pair.step (.advance .connecting)).isNone = true :=
    TransitionSystem.reaches_of_runUnder localPair aloneTrace
      ⟨localEndpoint, _, by decide, by simp, rfl⟩ (by decide)
  rw [Option.isNone_iff_eq_none] at blocked
  exact ⟨pair, reached, blocked, blocked_calls_wait_for_peer reached connected .connecting
    (by simp [here]) blocked⟩

@[simp] def Progress.unconfirmed : Progress → List (List UInt8)
  | .fiSend msg | .readTx msg _ => [msg]
  | _ => []

structure Counted (socket : Socket) : Prop where
  messagesRx : socket.fMessagesRx = socket.received.length % 2 ^ 64
  bytesRx : socket.fBytesRx = (socket.received.map Receipt.size).sum % 2 ^ 64
  tx : ∃ confirmed, socket.sent = confirmed ++ socket.progress.unconfirmed ∧
    socket.fMessagesTx = confirmed.length % 2 ^ 64 ∧
    socket.fBytesTx = (confirmed.map List.length).sum % 2 ^ 64

section Counted

variable {socket after : Socket} {control : List ControlMessage} {frames : List (List UInt8)}
  {effect : Effect}

theorem Counted.finishSend (counted : Counted socket) {msg : List UInt8}
    (unconfirmed : socket.progress.unconfirmed = [msg]) : Counted (socket.finishSend msg) := by
  obtain ⟨confirmed, split, messages, bytes⟩ := counted.tx
  rw [unconfirmed] at split
  refine { counted with tx := ⟨confirmed ++ [msg], ?_, ?_, ?_⟩ }
  · simp [Socket.finishSend, split]
  · simp [Socket.finishSend, messages, Nat.mod_add_mod]
  · simp [Socket.finishSend, bytes, Nat.mod_add_mod]

theorem Counted.finishReceive (counted : Counted socket)
    (none : socket.progress.unconfirmed = []) (given : List UInt8) (size : Nat)
    (left : List UInt8) : Counted (socket.finishReceive given size left) where
  messagesRx := by simp [Socket.finishReceive, counted.messagesRx, Nat.mod_add_mod]
  bytesRx := by simp [Socket.finishReceive, counted.bytesRx, Nat.mod_add_mod]
  tx := by
    obtain ⟨confirmed, split, counts⟩ := counted.tx
    rw [none] at split
    exact ⟨confirmed, split, counts⟩

theorem Counted.advance (counted : Counted socket)
    (advances : Advances socket control frames effect)
    (unbroken : effect.socket.progress ≠ .broken) : Counted effect.socket := by
  obtain ⟨confirmed, split, counts⟩ := counted.tx
  cases advances with
  | postEmpty here =>
      have posted : Counted { socket with sent := socket.sent ++ [[]], progress := .readTx [] true } :=
        { counted with tx := ⟨confirmed, by simp [split, here], counts⟩ }
      exact posted.finishSend rfl
  | readTx here => exact counted.finishSend (by simp [here])
  | receiveEmpty here _ => exact counted.finishReceive (by simp [here]) _ _ _
  | readRx here _ _ =>
      have filled : Counted { socket with buffers := [] } := { counted with }
      exact filled.finishReceive (by simp [here]) _ _ _
  | @processDataAddressAnnouncement call _ _ _ here _ =>
      refine { counted with tx := ⟨confirmed, ?_, counts⟩ }
      cases call <;> simp [split, Call.transfer, here]
  | noAddress => exact absurd rfl unbroken
  | waitForControlPeer here _ | announceDataAddress here | noAnnouncement here _
  | postBuffer here _ | fiSend here _ | receiveControlMessage here _ _ | noPostBuffer here _
  | fiRecv here | wrongFrame here _ _ _ | longFrame here _ _ _ =>
      exact { counted with tx := ⟨confirmed, by simp [split, here], counts⟩ }

theorem Counted.begin {call : Call} (counted : Counted socket)
    (begun : socket.begin call = some after) : Counted after := by
  obtain ⟨confirmed, split, counts⟩ := counted.tx
  unfold Socket.begin at begun
  split at begun <;> cases begun
  rename_i result idle
  refine { counted with tx := ⟨confirmed, ?_, counts⟩ }
  cases socket.fWaitingForControlPeer <;> cases call <;> simp [split, Call.transfer, idle]

theorem Counted.complete (counted : Counted socket) (completed : socket.complete = some after) :
    Counted after := by
  obtain ⟨confirmed, split, counts⟩ := counted.tx
  unfold Socket.complete at completed
  split at completed <;> cases completed
  rename_i msg here
  exact { counted with tx := ⟨confirmed, by simp [split, here], counts⟩ }

end Counted

def AllCounted (pair : Pair) : Prop :=
  ∀ side, Counted (pair.socket side)

theorem AllCounted.step {pair after : Pair} {action : Action} (sound : Sound pair)
    (counted : AllCounted pair) (flawless : Flawless pair action)
    (stepped : pair.step action = some after) : AllCounted after := by
  cases action with
  | connect =>
      simp only [Pair.step] at stepped
      split at stepped <;> cases stepped
      exact fun other => { counted other with }
  | begin side call =>
      simp only [Pair.step, Option.map_eq_some_iff] at stepped
      obtain ⟨socket, begun, rfl⟩ := stepped
      exact (Function.forall_update_iff _ fun _ => Counted).mpr
        ⟨(counted side).begin begun, fun other _ => counted other⟩
  | advance side =>
      simp only [Pair.step, Option.map_eq_some_iff] at stepped
      obtain ⟨effect, advanced, rfl⟩ := stepped
      have advances := Socket.advance_advances advanced
      have unbroken := (sound.reads side).unbroken (sound.coherent side) advances
      exact (Function.forall_update_iff _ fun _ => Counted).mpr
        ⟨(counted side).advance advances unbroken, fun other _ => counted other⟩
  | fail side consumed => exact flawless.elim
  | complete side =>
      simp only [Pair.step, Option.map_eq_some_iff] at stepped
      obtain ⟨socket, completed, rfl⟩ := stepped
      exact (Function.forall_update_iff _ fun _ => Counted).mpr
        ⟨(counted side).complete completed, fun other _ => counted other⟩
  | arrive side i =>
      obtain ⟨frame, _, rfl⟩ := Option.map_eq_some_iff.mp stepped
      exact counted

theorem counted_of_reaches {pair : Pair} (reached : pairSystem.ReachesUnder Flawless pair) :
    AllCounted pair :=
  reached.relative (fun _ => sound_of_flawless)
    (fun _ initially => by
      obtain ⟨endpoint, capacity, distinct, capable, rfl⟩ := initially
      exact fun side => ⟨rfl, rfl, [], rfl, rfl, rfl⟩)
    fun _ _ _ sound counted flawless stepped => counted.step sound flawless stepped

theorem sizes_of_receives {receipts : List Receipt} {messages : List (List UInt8)}
    (receives : List.Forall₂ Receives receipts messages) :
    receipts.map Receipt.size = messages.map List.length := by
  induction receives with
  | nil => rfl
  | cons first _ ih => rw [List.map_cons, List.map_cons, first.size, ih]

/-- In a run without failures, when no call is under way and everything that a side has sent
is read, the numbers of messages and bytes that it counts as sent are those that its peer
counts as received. -/
theorem counters_agree {pair : Pair} (reached : pairSystem.ReachesUnder Flawless pair)
    (side : Side) (quiet : ∀ other, ∃ result, (pair.socket other).progress = .idle result)
    (read : pair.control side = []) :
    (pair.socket side).fMessagesTx = (pair.socket side.peer).fMessagesRx ∧
      (pair.socket side).fBytesTx = (pair.socket side.peer).fBytesRx := by
  have direction := (sound_of_flawless reached).direction side
  rw [read] at direction
  have sender := counted_of_reaches reached side
  have receiver := counted_of_reaches reached side.peer
  obtain ⟨result, idle⟩ := quiet side
  obtain ⟨result', idle'⟩ := quiet side.peer
  obtain ⟨confirmed, split, messages, bytes⟩ := sender.tx
  simp only [idle, Progress.unconfirmed, List.append_nil] at split
  have received : List.Forall₂ Receives (pair.socket side.peer).received
      (pair.socket side).sent :=
    direction.all_received (by simp [idle'])
  rw [split] at received
  constructor
  · rw [messages, receiver.messagesRx, received.length_eq]
  · rw [bytes, receiver.bytesRx, sizes_of_receives received]

theorem three_bytes_counted :
    ∃ pair, pairSystem.ReachesUnder Flawless pair ∧
      (pair.socket .binding).fBytesTx = 3 ∧
      (pair.socket .binding).fMessagesTx = (pair.socket .connecting).fMessagesRx ∧
      (pair.socket .binding).fBytesTx = (pair.socket .connecting).fBytesRx := by
  obtain ⟨pair, reached, bytes, idle, idle', read⟩ : ∃ pair,
      pairSystem.ReachesUnder Flawless pair ∧ (pair.socket .binding).fBytesTx = 3 ∧
        (pair.socket .binding).progress = .idle (some 3) ∧
        (pair.socket .connecting).progress = .idle (some 3) ∧ pair.control .binding = [] :=
    TransitionSystem.reaches_of_runUnder localPair
      (transferTrace ++ [.complete .binding, .advance .binding])
      ⟨localEndpoint, _, by decide, by simp, rfl⟩ (by decide +kernel)
  refine ⟨pair, reached, bytes, counters_agree reached .binding ?_ read⟩
  intro other
  cases other with
  | binding => exact ⟨some 3, idle⟩
  | connecting => exact ⟨some 3, idle'⟩

end FairMQ.Ofi
