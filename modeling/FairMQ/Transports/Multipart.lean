import FairMQ.Data.MachineInt
import FairMQ.Transports.Zeromq

namespace FairMQ.Zeromq

open FairMQ.Data

def sendVector (transfer : Transfer) (outcomes : List Outcome) (msgVec : List MessageZMQ) :
    Option Sending :=
  let vecSize := msgVec.length % 2 ^ 32
  if 1 < vecSize then
    (sendParts transfer [] (msgVec.take vecSize) [] 0 0 outcomes).map fun sending =>
      { sending with messages := sending.messages ++ msgVec.drop vecSize }
  else if vecSize = 1 then
    match msgVec.getLast? with
    | some message =>
        (message.sendImpl transfer outcomes).map fun sending =>
          { sending with messages := msgVec.dropLast ++ sending.messages }
    | none => none
  else some ⟨msgVec, [], -1⟩

/-- What a socket has to receive, the vector of the caller, and the counters. -/
structure Inbox where
  incoming : List Frame
  msgVec : List MessageZMQ
  fBytesRx : Nat
  fMessagesRx : Nat
deriving DecidableEq, Repr

namespace Inbox

def push (inbox : Inbox) (payload : List UInt8) (incoming : List Frame) : Inbox :=
  { inbox with
    incoming := incoming
    msgVec := inbox.msgVec ++ [MessageZMQ.new.setMessage payload] }

def counted (inbox : Inbox) (totalSize : Int) : Inbox :=
  { inbox with
    fBytesRx := toUint64 (inbox.fBytesRx + totalSize)
    fMessagesRx := toUint64 (inbox.fMessagesRx + 1) }

/-- The loops of `ReceiveImpl`; zmq accepts a call only if a frame has come. -/
def receiveParts (transfer : Transfer) : Inbox → Int → Int → List Outcome → Option (Inbox × Int)
  | _, _, _, [] => none
  | inbox, totalSize, elapsed, .accepted :: outcomes =>
      match inbox.incoming with
      | [] => none
      | frame :: incoming =>
          let arrived := inbox.push frame.payload incoming
          let totalSize := totalSize + count frame.payload
          if frame.more then receiveParts transfer arrived totalSize elapsed outcomes
          else some (arrived.counted totalSize, totalSize)
  | inbox, _, elapsed, .again interrupted :: outcomes =>
      match transfer.retry elapsed interrupted with
      | .again elapsed => receiveParts transfer inbox 0 elapsed outcomes
      | .giveUp => some (inbox, -2)
      | .overflow => none
  | inbox, _, _, .term :: _ => some (inbox, -1)
  | inbox, _, _, .failed :: _ => some (inbox, -1)

def receiveImpl (inbox : Inbox) (transfer : Transfer) (outcomes : List Outcome) :
    Option (Inbox × Int) :=
  inbox.receiveParts transfer 0 0 outcomes

end Inbox

/-- A send takes the parts as one message and reports their size, or nothing of them. -/
def Sending.AllOrNothing (sending : Sending) (parts : List (List UInt8)) : Prop :=
  (0 ≤ sending.result →
    sending.frames = framesOf parts ∧ sending.result = (parts.map List.length).sum) ∧
  (sending.result = -2 → sending.frames = [])

def Inbox.AllOrNothing (inbox : Inbox) (parts : List (List UInt8)) (after : Inbox) (result : Int) :
    Prop :=
  (0 ≤ result →
    after.msgVec = inbox.msgVec ++ parts.map MessageZMQ.new.setMessage ∧
      inbox.incoming = framesOf parts ++ after.incoming) ∧
  (result = -2 → after.msgVec = inbox.msgVec ∧ after.incoming = inbox.incoming)

/-- The parts that the counter of `SendImpl` and its result can express. -/
def Representable (msgVec : List MessageZMQ) : Prop :=
  2 ^ 32 ∣ msgVec.length ∨
    (msgVec.length < 2 ^ 32 ∧ ∀ message ∈ msgVec, message.sentBytes.length < 2 ^ 31)

section Send

variable {transfer : Transfer} {outcomes : List Outcome} {msgVec : List MessageZMQ}
  {sending : Sending}

@[simp]
theorem length_framesOf (payloads : List (List UInt8)) :
    (framesOf payloads).length = payloads.length := by
  induction payloads with
  | nil => rfl
  | cons payload payloads ih => rw [framesOf, List.length_cons, ih, List.length_cons]

def addressed (msgVec : List MessageZMQ) : List MessageZMQ :=
  if msgVec.length % 2 ^ 32 = 1 then msgVec.getLast?.toList
  else msgVec.take (msgVec.length % 2 ^ 32)

theorem length_addressed (msgVec : List MessageZMQ) :
    (addressed msgVec).length = msgVec.length % 2 ^ 32 := by
  unfold addressed
  split
  · cases msgVec with
    | nil => contradiction
    | cons message messages =>
        rw [List.getLast?_cons, Option.toList_some, List.length_singleton]
        omega
  · rw [List.length_take, Nat.min_eq_left (Nat.mod_le _ _)]

theorem addressed_of_lt (short : msgVec.length < 2 ^ 32) : addressed msgVec = msgVec := by
  unfold addressed
  rw [Nat.mod_eq_of_lt short]
  split
  · obtain ⟨message, isVector⟩ := List.length_eq_one_iff.mp ‹_›
    rw [isVector]
    rfl
  · exact List.take_length

theorem Sending.Ends.withMessages {frames : List Frame} {totalSize : Int}
    (ends : sending.Ends frames totalSize) (messages : List MessageZMQ) :
    Sending.Ends { sending with messages := messages } frames totalSize := by
  cases ends with
  | failed result => exact .failed result
  | gaveUp result untaken => exact .gaveUp result untaken
  | complete taken result => exact .complete taken result

theorem sendVector_ends (obeyed : AgainFirst outcomes)
    (done : sendVector transfer outcomes msgVec = some sending) :
    sending.Ends (framesOf ((addressed msgVec).map MessageZMQ.sentBytes))
      (((addressed msgVec).map MessageZMQ.sentBytes).map count).sum := by
  simp only [sendVector] at done
  split at done
  · obtain ⟨parts, sent, isSending⟩ := Option.map_eq_some_iff.mp done
    subst isSending
    rw [addressed, if_neg (by omega)]
    exact (sendParts_ends obeyed sent).withMessages _
  · split at done
    next one =>
      cases last : msgVec.getLast? with
      | none =>
          rw [last] at done
          cases done
      | some message =>
          rw [last] at done
          obtain ⟨single, sent, isSending⟩ := Option.map_eq_some_iff.mp done
          subst isSending
          rw [addressed, if_pos one, last]
          exact (message.sendImpl_ends sent).withMessages _
    next =>
      cases done
      exact .failed rfl

theorem sendVector_accepted (transfer : Transfer) (sends : msgVec.length % 2 ^ 32 ≠ 0) :
    ∃ sending, sendVector transfer ((addressed msgVec).map fun _ => .accepted) msgVec =
      some sending ∧ 0 ≤ sending.result := by
  simp only [sendVector]
  split
  · rw [addressed, if_neg (by omega)]
    obtain ⟨sending, sent, success⟩ := sendParts_accepted transfer
      (msgVec.take (msgVec.length % 2 ^ 32)) (Int.le_refl 0)
    exact ⟨_, Option.map_eq_some_iff.mpr ⟨sending, sent, rfl⟩, success⟩
  · have one : msgVec.length % 2 ^ 32 = 1 := by omega
    have counted := length_addressed msgVec
    rw [one, addressed, if_pos one] at counted
    rw [if_pos one, addressed, if_pos one]
    cases last : msgVec.getLast? with
    | none =>
        rw [last] at counted
        cases counted
    | some message => exact ⟨_, rfl, count_nonneg _⟩

theorem sendVector_last {message : MessageZMQ} (one : msgVec.length % 2 ^ 32 = 1)
    (last : msgVec.getLast? = some message) :
    sendVector transfer [.accepted] msgVec =
      some ⟨msgVec.dropLast ++ [message.applyUsedSize.setMessage []],
        [⟨message.sentBytes, false⟩], count message.sentBytes⟩ := by
  simp only [sendVector, one, last]
  rfl

theorem allOrNothing_of_representable (representable : Representable msgVec)
    (obeyed : AgainFirst outcomes) (done : sendVector transfer outcomes msgVec = some sending) :
    sending.AllOrNothing (msgVec.map MessageZMQ.sentBytes) := by
  rcases representable with none | ⟨short, sizes⟩
  · have vecSize : msgVec.length % 2 ^ 32 = 0 := Nat.mod_eq_zero_of_dvd none
    simp only [sendVector, vecSize] at done
    cases done
    exact ⟨fun success => absurd success (by simp), fun _ => rfl⟩
  · have ends := sendVector_ends obeyed done
    rw [addressed_of_lt short] at ends
    have reported := (count_sum_eq_iff (msgVec.map MessageZMQ.sentBytes)).mpr (by simpa using sizes)
    rw [reported] at ends
    refine ⟨ends.success, ?_⟩
    intro gaveUp
    cases ends with
    | failed result => omega
    | gaveUp _ untaken => exact untaken
    | complete _ result => omega

theorem representable_of_allOrNothing
    (whole : ∀ sending, sendVector ⟨false, 0, 0⟩ ((addressed msgVec).map fun _ => .accepted) msgVec =
      some sending → sending.AllOrNothing (msgVec.map MessageZMQ.sentBytes)) :
    Representable msgVec := by
  by_cases none : msgVec.length % 2 ^ 32 = 0
  · exact .inl (Nat.dvd_of_mod_eq_zero none)
  · obtain ⟨sending, done, success⟩ := sendVector_accepted ⟨false, 0, 0⟩ none
    obtain ⟨frames, result⟩ := (whole sending done).1 success
    obtain ⟨taken, reported⟩ := (sendVector_ends (againFirst_accepted _) done).success success
    have lengths := congrArg List.length (taken.symm.trans frames)
    simp only [length_framesOf, List.length_map, length_addressed] at lengths
    have short : msgVec.length < 2 ^ 32 := by omega
    rw [addressed_of_lt short, result] at reported
    exact .inr ⟨short, by simpa using (count_sum_eq_iff _).mp reported.symm⟩

end Send

section Receive

variable {transfer : Transfer} {outcomes : List Outcome} {inbox after : Inbox} {result : Int}

theorem receiveParts_rest {parts : List (List UInt8)} {others : List Frame}
    {totalSize elapsed : Int} (nonneg : 0 ≤ totalSize) (nonempty : parts ≠ [])
    (never : ∀ outcome ∈ outcomes, outcome.isAgain = false)
    (queued : inbox.incoming = framesOf parts ++ others)
    (done : inbox.receiveParts transfer totalSize elapsed outcomes = some (after, result)) :
    result = -1 ∨
      (0 ≤ result ∧ after.msgVec = inbox.msgVec ++ parts.map MessageZMQ.new.setMessage ∧
        after.incoming = others) := by
  induction parts generalizing inbox totalSize outcomes with
  | nil => contradiction
  | cons part parts ih =>
      cases outcomes with
      | nil => cases done
      | cons outcome outcomes =>
          obtain ⟨first, later⟩ := List.forall_mem_cons.mp never
          cases outcome with
          | accepted =>
              have total := Int.add_nonneg nonneg (count_nonneg part)
              simp only [Inbox.receiveParts, queued, framesOf, List.cons_append] at done
              cases parts with
              | nil =>
                  simp only [List.isEmpty_nil, Bool.not_true, Bool.false_eq_true, if_false] at done
                  cases done
                  exact .inr ⟨total, rfl, rfl⟩
              | cons next parts =>
                  simp only [List.isEmpty_cons, Bool.not_false, if_true] at done
                  rcases ih total (List.cons_ne_nil next parts) later rfl done with
                    failed | ⟨success, appended, isIncoming⟩
                  · exact .inl failed
                  · refine .inr ⟨success, ?_, isIncoming⟩
                    rw [appended, Inbox.push, List.append_assoc]
                    rfl
          | again interrupted => cases first
          | term =>
              cases done
              exact .inl rfl
          | failed =>
              cases done
              exact .inl rfl

theorem receiveParts_allOrNothing {parts : List (List UInt8)} {others : List Frame} {elapsed : Int}
    (nonempty : parts ≠ []) (obeyed : AgainFirst outcomes)
    (queued : inbox.incoming = framesOf parts ++ others)
    (done : inbox.receiveParts transfer 0 elapsed outcomes = some (after, result)) :
    inbox.AllOrNothing parts after result := by
  induction outcomes generalizing elapsed with
  | nil => cases done
  | cons outcome outcomes ih =>
      obtain ⟨following, later⟩ := List.pairwise_cons.mp obeyed
      cases outcome with
      | accepted =>
          have never := fun outcome member => following outcome member rfl
          have all : ∀ outcome ∈ Outcome.accepted :: outcomes, outcome.isAgain = false :=
            List.forall_mem_cons.mpr ⟨rfl, never⟩
          rcases receiveParts_rest (Int.le_refl 0) nonempty all queued done with
            failed | ⟨success, appended, isIncoming⟩
          · exact ⟨fun _ => by omega, fun _ => by omega⟩
          · exact ⟨fun _ => ⟨appended, by rw [isIncoming, queued]⟩, fun _ => by omega⟩
      | again interrupted =>
          simp only [Inbox.receiveParts] at done
          split at done
          · exact ih later done
          · cases done
            exact ⟨fun success => absurd success (by decide), fun _ => ⟨rfl, rfl⟩⟩
          · cases done
      | term =>
          cases done
          exact ⟨fun success => absurd success (by decide), fun _ => ⟨rfl, rfl⟩⟩
      | failed =>
          cases done
          exact ⟨fun success => absurd success (by decide), fun _ => ⟨rfl, rfl⟩⟩

end Receive

/-- A multi-part message is received as a whole or not at all, and sent so exactly if the
counter of its parts and the result can express it: fewer than `2 ^ 32` parts, each
shorter than `2 ^ 31` bytes.  A multiple of `2 ^ 32` parts is refused. -/
theorem multipart_all_or_nothing_iff (msgVec : List MessageZMQ) :
    ((∀ transfer outcomes sending, AgainFirst outcomes →
        sendVector transfer outcomes msgVec = some sending →
        sending.AllOrNothing (msgVec.map MessageZMQ.sentBytes)) ↔ Representable msgVec) ∧
    ∀ (inbox : Inbox) transfer outcomes parts others after result, AgainFirst outcomes →
      parts ≠ [] → inbox.incoming = framesOf parts ++ others →
      inbox.receiveImpl transfer outcomes = some (after, result) →
      inbox.AllOrNothing parts after result := by
  refine ⟨⟨?_, ?_⟩, ?_⟩
  · intro whole
    exact representable_of_allOrNothing fun sending done =>
      whole _ _ sending (againFirst_accepted _) done
  · intro representable transfer outcomes sending obeyed done
    exact allOrNothing_of_representable representable obeyed done
  · intro inbox transfer outcomes parts others after result obeyed nonempty queued done
    exact receiveParts_allOrNothing nonempty obeyed queued done

theorem two_parts_whole :
    Representable [.filled [1], .filled [2, 3]] ∧
      ∃ sending, sendVector ⟨false, 0, 1000⟩ [.again false, .accepted, .accepted]
          [.filled [1], .filled [2, 3]] = some sending ∧
        AgainFirst [.again false, .accepted, .accepted] ∧ sending.result = 3 ∧
        sending.AllOrNothing [[1], [2, 3]] := by
  have representable : Representable [.filled [1], .filled [2, 3]] := .inr (by decide)
  have obeyed : AgainFirst [.again false, .accepted, .accepted] := by
    simp [AgainFirst, Outcome.isAgain]
  exact ⟨representable, _, rfl, obeyed, rfl,
    (multipart_all_or_nothing_iff [.filled [1], .filled [2, 3]]).1.mpr representable
      ⟨false, 0, 1000⟩ _ _ obeyed rfl⟩

/-- `2 ^ 32 + 1` parts of one byte: zmq gets the last one, and `Send` returns 1. -/
theorem vector_size_wraps :
    ∃ sending, sendVector ⟨false, 0, 1000⟩ [.accepted]
        (List.replicate (2 ^ 32 + 1) (MessageZMQ.filled [7])) = some sending ∧
      AgainFirst [.accepted] ∧ sending.frames = [⟨[7], false⟩] ∧ sending.result = 1 ∧
      ¬ sending.AllOrNothing
        ((List.replicate (2 ^ 32 + 1) (MessageZMQ.filled [7])).map MessageZMQ.sentBytes) := by
  have one : (List.replicate (2 ^ 32 + 1) (MessageZMQ.filled [7])).length % 2 ^ 32 = 1 := by
    rw [List.length_replicate]
    decide
  have last : (List.replicate (2 ^ 32 + 1) (MessageZMQ.filled [7])).getLast? =
      some (.filled [7]) := by
    rw [List.getLast?_replicate, if_neg (Nat.succ_ne_zero _)]
  refine ⟨_, sendVector_last one last, List.pairwise_singleton _ _, rfl, rfl, ?_⟩
  intro whole
  have lengths := congrArg List.length (whole.1 (count_nonneg _)).1
  rw [length_framesOf, List.length_map, List.length_replicate] at lengths
  exact absurd lengths (by decide)

end FairMQ.Zeromq
