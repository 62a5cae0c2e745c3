import FairMQ.Shmem.RoundTrip
import FairMQ.Transports.Multipart
import FairMQ.Transports.Nanomsg

namespace FairMQ.Transports

open FairMQ.Data

inductive SocketKind where
  | zeromq
  | shmem
  | nanomsg
deriving DecidableEq, Repr

abbrev Payload := List UInt8

/-- What is under way after a send; the chunks of a shmem message stay in the segment. -/
def Packet : SocketKind → Type
  | .zeromq => List Zeromq.Frame
  | .shmem => (Int → Payload) × List Shmem.MetaHeader
  | .nanomsg => Payload

def Holds (memory : Int → Payload) : List Payload → List Shmem.MessageSHM → Prop :=
  List.Forall₂ fun part message =>
    ∃ handle, message = .ofSize part.length (some handle) ∧ message.contents memory = part

def Sends : (kind : SocketKind) → List Payload → Int → Packet kind → Prop
  | .zeromq, parts, result, frames =>
      ∃ transfer outcomes messages, Zeromq.AgainFirst outcomes ∧
        Zeromq.sendVector transfer outcomes (parts.map .filled) =
          some ⟨messages, frames, result⟩ ∧
        0 ≤ result
  | .shmem, parts, result, (memory, headers) =>
      ∃ messages attempt after, Holds memory parts messages ∧
        Shmem.sendImpl messages attempt = some ⟨after, some headers, result⟩
  | .nanomsg, parts, result, payload =>
      ∃ transfer outcomes messages events,
        Nanomsg.sendImpl transfer outcomes (parts.map .filled) = some ⟨messages, events, result⟩ ∧
        .accepted payload ∈ events

def Receives : (kind : SocketKind) → Packet kind → Int → Payload → Prop
  | .zeromq, frames, result, bytes =>
      ∃ frame transfer outcomes message, frames.head? = some frame ∧
        Zeromq.receiveImpl transfer frame .new 0 outcomes = some (message, result) ∧
        0 ≤ result ∧ message.contents = bytes
  | .shmem, (memory, headers), result, bytes =>
      ∃ leftover message, Shmem.MessageSHM.newMessage.receiveImpl leftover headers = some message ∧
        toInt32 message.fSize = result ∧ message.contents memory = bytes
  | .nanomsg, payload, result, bytes =>
      ∃ transfer outcomes message,
        Nanomsg.receiveImpl transfer payload .new 0 outcomes = some (message, result) ∧
        0 ≤ result ∧ message.contents = bytes

def totalSize (parts : List Payload) : Nat :=
  (parts.map List.length).sum

def Framed (kind : SocketKind) (parts : List Payload) : Prop :=
  ∀ result packet, Sends kind parts result packet →
    result = totalSize parts ∧
    ∀ part, parts = [part] →
      (∃ received bytes, Receives kind packet received bytes) ∧
      ∀ received bytes, Receives kind packet received bytes →
        received = part.length ∧ bytes = part

/-- The number of parts has to fit into `vecSize`, and on shmem the number of bytes of their
headers into the `int` that `zmq_msg_send` returns. -/
def SocketKind.maxParts : SocketKind → Nat
  | .shmem => 2 ^ 26
  | _ => 2 ^ 32

/-- Sizes have to fit into the integers that report them.  The headers of nanomsg are
counted as well, so they would have to add up to a multiple of `2 ^ 32`. -/
def SizesReported : SocketKind → List Payload → Prop
  | .zeromq, parts => ∀ part ∈ parts, part.length < 2 ^ 31
  | .shmem, [part] => part.length < 2 ^ 31
  | .shmem, parts => totalSize parts < 2 ^ 63
  | .nanomsg, parts => 2 ^ 32 ∣ Nanomsg.headerBytes parts ∧ totalSize parts < 2 ^ 31

variable {parts : List Payload}

theorem Framed.reports {kind : SocketKind} {value : Int} (framed : Framed kind parts)
    (canSend : ∃ result packet, Sends kind parts result packet)
    (returns : ∀ result packet, Sends kind parts result packet → result = value) :
    value = totalSize parts := by
  obtain ⟨result, packet, sent⟩ := canSend
  rw [← returns result packet sent]
  exact (framed result packet sent).1

section Zeromq

theorem sentBytes_filled (parts : List Payload) :
    (parts.map Zeromq.MessageZMQ.filled).map Zeromq.MessageZMQ.sentBytes = parts := by
  rw [List.map_map]
  exact List.map_id parts

theorem zeromq_sends {result : Int} {frames : List Zeromq.Frame} (few : parts.length < 2 ^ 32)
    (sent : Sends .zeromq parts result frames) :
    frames = Zeromq.framesOf parts ∧ result = (parts.map Zeromq.count).sum := by
  obtain ⟨transfer, outcomes, messages, obeyed, done, success⟩ := sent
  have ends := Zeromq.sendVector_ends obeyed done
  rw [Zeromq.addressed_of_lt (by rwa [List.length_map]), sentBytes_filled] at ends
  exact ends.success success

theorem zeromq_can_send (nonempty : parts ≠ []) (few : parts.length < 2 ^ 32) :
    ∃ result frames, Sends .zeromq parts result frames := by
  have some : (parts.map Zeromq.MessageZMQ.filled).length % 2 ^ 32 ≠ 0 := by
    rw [List.length_map, Nat.mod_eq_of_lt few]
    exact mt List.length_eq_zero_iff.mp nonempty
  obtain ⟨sending, done, success⟩ := Zeromq.sendVector_accepted ⟨false, 0, 0⟩ some
  exact ⟨sending.result, sending.frames, _, _, _, Zeromq.againFirst_accepted _, done, success⟩

theorem zeromq_framed_iff (nonempty : parts ≠ []) (few : parts.length < 2 ^ 32) :
    Framed .zeromq parts ↔ SizesReported .zeromq parts := by
  constructor
  · intro framed
    have total := framed.reports (zeromq_can_send nonempty few) fun _ _ sent =>
      (zeromq_sends few sent).2
    exact (Zeromq.count_sum_eq_iff parts).mp total
  · intro fits result frames sent
    obtain ⟨isFrames, isResult⟩ := zeromq_sends few sent
    refine ⟨isResult.trans ((Zeromq.count_sum_eq_iff parts).mpr fits), ?_⟩
    intro part one
    subst one isFrames
    have size : Zeromq.count part = part.length := by
      have short := fits part List.mem_cons_self
      unfold Zeromq.count Zeromq.intMax
      omega
    refine ⟨⟨_, _, ⟨part, false⟩, ⟨false, 0, 0⟩, [.accepted], _, rfl, rfl,
      Zeromq.count_nonneg part, rfl⟩, ?_⟩
    intro received bytes arrived
    obtain ⟨frame, transfer, outcomes, message, isFrame, done, success, isBytes⟩ := arrived
    cases isFrame
    obtain ⟨isMessage, isReceived⟩ := Zeromq.receiveImpl_success done success
    subst isMessage isBytes
    exact ⟨isReceived.trans size, List.take_length⟩

end Zeromq

section Shmem

theorem holds_sizes {memory : Int → Payload} {messages : List Shmem.MessageSHM}
    (holds : Holds memory parts messages) :
    messages.map Shmem.MessageSHM.fSize = parts.map List.length := by
  induction holds with
  | nil => rfl
  | cons created _ ih =>
      obtain ⟨handle, isMessage, _⟩ := created
      subst isMessage
      rw [List.map_cons, List.map_cons, ih]
      rfl

theorem contents_ofSize (memory : Int → Payload) (size : Nat) (handle : Int) :
    (Shmem.MessageSHM.ofSize size (some handle)).contents memory = (memory handle).take size := rfl

theorem can_hold (parts : List Payload) : ∃ memory messages, Holds memory parts messages := by
  refine ⟨fun handle => parts.getD handle.toNat [],
    parts.mapIdx fun i part => .ofSize part.length (some i), ?_⟩
  apply List.forall₂_iff_get.mpr
  refine ⟨List.length_mapIdx.symm, ?_⟩
  intro i inParts inMessages
  refine ⟨i, by simp, ?_⟩
  simp [contents_ofSize, inParts]

theorem shmem_sendImpl_one (size : Nat) (handle : Int) :
    ∃ after, Shmem.sendImpl [.ofSize size (some handle)] .accepted =
      some ⟨after, some [⟨size, 0, handle, 0⟩], toInt32 size⟩ := by
  rw [Shmem.sendImpl_one]
  exact ⟨_, rfl⟩

theorem shmem_sends_one {part : Payload} {result : Int} {memory : Int → Payload}
    {headers : List Shmem.MetaHeader} (sent : Sends .shmem [part] result (memory, headers)) :
    result = toInt32 part.length ∧
      ∃ handle, headers = [⟨part.length, 0, handle, 0⟩] ∧
        (memory handle).take part.length = part := by
  obtain ⟨messages, attempt, after, holds, done⟩ := sent
  obtain ⟨message, rest, ⟨handle, isMessage, contents⟩, none, isMessages⟩ :=
    List.forall₂_cons_left_iff.mp holds
  cases List.forall₂_nil_left_iff.mp none
  subst isMessages isMessage
  cases attempt with
  | accepted =>
      obtain ⟨_, returned⟩ := shmem_sendImpl_one part.length handle
      cases returned.symm.trans done
      exact ⟨rfl, handle, rfl, contents⟩
  | again => cases done
  | failed => cases done

theorem shmem_sends_several {result : Int} {memory : Int → Payload}
    {headers : List Shmem.MetaHeader} (several : parts.length ≠ 1) (few : parts.length < 2 ^ 32)
    (sent : Sends .shmem parts result (memory, headers)) :
    result = Int.bmod (totalSize parts) (2 ^ 64) := by
  obtain ⟨messages, attempt, after, holds, done⟩ := sent
  rw [holds.length_eq] at several few
  rw [totalSize, ← holds_sizes holds]
  rw [Shmem.sendImpl_several several few] at done
  cases attempt <;> cases done
  rfl

theorem shmem_can_send (few : parts.length < 2 ^ 32) :
    ∃ result packet, Sends .shmem parts result packet := by
  obtain ⟨memory, messages, holds⟩ := can_hold parts
  rw [holds.length_eq] at few
  by_cases one : messages.length = 1
  · obtain ⟨message, rfl⟩ := List.length_eq_one_iff.mp one
    obtain ⟨part, rest, ⟨handle, rfl, _⟩, _, _⟩ := List.forall₂_cons_right_iff.mp holds
    obtain ⟨after, done⟩ := shmem_sendImpl_one part.length handle
    exact ⟨_, (memory, _), _, _, after, holds, done⟩
  · exact ⟨_, (memory, _), messages, .accepted, _, holds, Shmem.sendImpl_several one few _⟩

theorem shmem_framed_one_iff (part : Payload) :
    Framed .shmem [part] ↔ part.length < 2 ^ 31 := by
  have reported : toInt32 part.length = (totalSize [part] : Int) ↔ part.length < 2 ^ 31 := by
    rw [toInt32_eq_natCast_iff]
    simp only [totalSize, List.map_cons, List.map_nil, List.sum_cons, List.sum_nil]
    omega
  constructor
  · intro framed
    have total := framed.reports (shmem_can_send (by simp)) fun _ _ sent =>
      (shmem_sends_one sent).1
    exact reported.mp total
  · intro fits result (memory, headers) sent
    obtain ⟨isResult, handle, isHeaders, contents⟩ := shmem_sends_one sent
    refine ⟨isResult.trans (reported.mpr fits), ?_⟩
    intro part' one
    cases one
    subst isHeaders
    refine ⟨⟨_, _, ⟨0, 0, 0, 0⟩, _, rfl, rfl, rfl⟩, ?_⟩
    intro received bytes arrived
    obtain ⟨leftover, message, isMessage, isReceived, isBytes⟩ := arrived
    cases isMessage
    subst isReceived isBytes
    exact ⟨toInt32_of_lt fits, contents⟩

theorem shmem_framed_iff (nonempty : parts ≠ []) (few : parts.length < 2 ^ 32) :
    Framed .shmem parts ↔ SizesReported .shmem parts := by
  match parts with
  | [] => contradiction
  | [part] => exact shmem_framed_one_iff part
  | first :: second :: rest =>
      have several : (first :: second :: rest).length ≠ 1 := by simp
      have reported : Int.bmod (totalSize (first :: second :: rest)) (2 ^ 64) =
          (totalSize (first :: second :: rest) : Int) ↔
          totalSize (first :: second :: rest) < 2 ^ 63 := by
        rw [Int.bmod_def]
        omega
      constructor
      · intro framed
        have total := framed.reports (shmem_can_send few) fun _ _ sent =>
          shmem_sends_several several few sent
        exact reported.mp total
      · intro fits result (memory, headers) sent
        refine ⟨(shmem_sends_several several few sent).trans (reported.mpr fits), ?_⟩
        intro part one
        cases one

end Shmem

section Nanomsg

theorem nanomsg_sends {result : Int} {payload : Payload}
    (sent : Sends .nanomsg parts result payload) :
    result = toInt32 (Nanomsg.packed (parts.map .filled)).length := by
  obtain ⟨transfer, outcomes, messages, events, done, taken⟩ := sent
  exact (Nanomsg.sendImpl_taken done taken).2

theorem nanomsg_can_send (parts : List Payload) :
    ∃ result payload, Sends .nanomsg parts result payload :=
  ⟨_, Nanomsg.packed (parts.map .filled), ⟨false, 0, 0⟩, [.accepted], _, _, rfl, by simp⟩

theorem nanomsg_reported_iff (parts : List Payload) :
    toInt32 (Nanomsg.packed (parts.map .filled)).length = (totalSize parts : Int) ↔
      SizesReported .nanomsg parts := by
  have length := Nanomsg.length_packed_mod parts
  rw [toInt32_eq_natCast_iff, length, SizesReported, ← totalSize]
  omega

theorem nanomsg_framed_iff (parts : List Payload) :
    Framed .nanomsg parts ↔ SizesReported .nanomsg parts := by
  constructor
  · intro framed
    have total := framed.reports (nanomsg_can_send parts) fun _ _ sent => nanomsg_sends sent
    exact (nanomsg_reported_iff parts).mp total
  · intro reported result payload sent
    refine ⟨(nanomsg_sends sent).trans ((nanomsg_reported_iff parts).mpr reported), ?_⟩
    intro part one
    -- The header of one part is too short to wrap the counter.
    subst one
    have added := reported.1
    have lower := MsgPack.binHeader_length_pos (part.length % 2 ^ 32)
    have upper := MsgPack.binHeader_length_le (part.length % 2 ^ 32)
    simp only [Nanomsg.headerBytes, List.map_cons, List.map_nil, List.sum_cons,
      List.sum_nil] at added
    omega

end Nanomsg

/-- The transports agree on the framing of a vector with a number of parts that they can
count exactly as far as the integers that report its size hold it; nanomsg reports the msgpack
headers as well. -/
theorem vector_framing_iff (kind : SocketKind) (parts : List Payload) (nonempty : parts ≠ [])
    (few : parts.length < kind.maxParts) :
    Framed kind parts ↔ SizesReported kind parts := by
  cases kind with
  | zeromq => exact zeromq_framed_iff nonempty few
  | shmem => exact shmem_framed_iff nonempty (Nat.lt_trans few (by decide))
  | nanomsg => exact nanomsg_framed_iff parts

theorem two_parts_framed :
    [[1, 2, 3], [4]] ≠ ([] : List Payload) ∧ Framed .zeromq [[1, 2, 3], [4]] ∧
      Framed .shmem [[1, 2, 3], [4]] :=
  ⟨by decide, (vector_framing_iff .zeromq [[1, 2, 3], [4]] (by decide) (by decide)).mpr
      (by simp [SizesReported]),
    (vector_framing_iff .shmem [[1, 2, 3], [4]] (by decide) (by decide)).mpr
      (by simp [SizesReported, totalSize])⟩

/-- One part of three bytes on nanomsg: the send returns five, and so does the single
receive, which yields the msgpack header in front of the part. -/
theorem packed_part_misframed :
    Sends .nanomsg [[1, 2, 3]] 5 [0xc4, 3, 1, 2, 3] ∧
      Receives .nanomsg [0xc4, 3, 1, 2, 3] 5 [0xc4, 3, 1, 2, 3] ∧
      ¬ Framed .nanomsg [[1, 2, 3]] := by
  have sent : Sends .nanomsg [[1, 2, 3]] 5 [0xc4, 3, 1, 2, 3] :=
    ⟨⟨false, 0, 0⟩, [.accepted], [.filled [1, 2, 3]], [.accepted [0xc4, 3, 1, 2, 3]], by decide,
      by decide⟩
  have received : Receives .nanomsg [0xc4, 3, 1, 2, 3] 5 [0xc4, 3, 1, 2, 3] :=
    ⟨⟨false, 0, 0⟩, [.accepted], ⟨[0xc4, 3, 1, 2, 3], 5, 0, true, none⟩, by decide, by decide,
      by decide⟩
  refine ⟨sent, received, ?_⟩
  intro framed
  exact absurd (framed _ _ sent).1 (by decide)

end FairMQ.Transports
