import FairMQ.Shmem.Socket
import FairMQ.Transports.Multipart

namespace FairMQ.Transports

open FairMQ.Data
open FairMQ.Zeromq (Transfer Outcome FitsInt intMax)

/-! # Transfers with a timeout

The loops of `FairMQSocketZMQ` and `FairMQSocketSHM` do not look at a clock: after each
`EAGAIN` they add `fSndTimeout` or `fRcvTimeout`, the time that zmq is supposed to have
waited, and give up when the sum reaches the timeout of the call. -/

structure Timeouts where
  fSndTimeout : Int
  fRcvTimeout : Int
deriving DecidableEq, Repr

inductive Method where
  | bind
  | connect
  | unknown
deriving DecidableEq, Repr

/-- Whether `zmq_unbind` or `zmq_disconnect`, `zmq_setsockopt`, and `zmq_bind` or
`zmq_connect` succeed. -/
structure Answers where
  detached : Bool
  optionSet : Bool
  attached : Bool
deriving DecidableEq, Repr

def reattach (answers : Answers) : Method → Bool
  | .bind => answers.detached && answers.optionSet && answers.attached
  | .connect => answers.detached && answers.optionSet && answers.attached
  | .unknown => false

namespace Timeouts

def setSendTimeout (timeouts : Timeouts) (timeout : Int) (method : Method) (answers : Answers) :
    Timeouts × Bool :=
  ({ timeouts with fSndTimeout := timeout }, reattach answers method)

def setReceiveTimeout (timeouts : Timeouts) (timeout : Int) (method : Method)
    (answers : Answers) : Timeouts × Bool :=
  ({ timeouts with fRcvTimeout := timeout }, reattach answers method)

end Timeouts

section Shmem

open Shmem

/-- One round of a loop of `FairMQSocketSHM`: `fInterrupted` at its head, and zmq's answer. -/
structure Round where
  interrupted : Bool
  outcome : Outcome
deriving DecidableEq, Repr

/-- The loops around `zmq_msg_send` and `zmq_msg_recv`; that of the single receive is a
`while (true)`. -/
def attempts (atHead : Bool) (transfer : Transfer) : Int → List Round → Option Attempt
  | _, [] => none
  | elapsed, round :: rounds =>
      if atHead && round.interrupted then some .failed
      else
        match round.outcome with
        | .accepted => some .accepted
        | .again interrupted =>
            match transfer.retry elapsed interrupted with
            | .again elapsed => attempts atHead transfer elapsed rounds
            | .giveUp => some .again
            | .overflow => none
        | .term => some .failed
        | .failed => some .failed

def sendMessage (transfer : Transfer) (rounds : List Round) (message : MessageSHM) :
    Option Shmem.Sending :=
  (attempts true transfer 0 rounds).map message.sendImpl

def sendMessages (transfer : Transfer) (rounds : List Round) (msgVec : List MessageSHM) :
    Option Shmem.Sending :=
  (attempts true transfer 0 rounds).bind (Shmem.sendImpl msgVec)

def receiveMessage (transfer : Transfer) (rounds : List Round) (leftover : MetaHeader)
    (packet : List MetaHeader) (message : MessageSHM) : Option (MessageSHM × Int) :=
  match attempts false transfer 0 rounds with
  | some .accepted =>
      (message.receiveImpl leftover packet).map fun after =>
        (after, if packet.isEmpty then 0 else toInt32 after.fSize)
  | some .again => some (message, -2)
  | some .failed => some (message, -1)
  | none => none

def receiveMessages (transfer : Transfer) (rounds : List Round) (packet : List MetaHeader) :
    Option (List MessageSHM × Int) :=
  match attempts true transfer 0 rounds with
  | some .accepted =>
      some (Shmem.receiveImpl packet, Int.bmod (packet.map MetaHeader.fSize).sum (2 ^ 64))
  | some .again => some ([], -2)
  | some .failed => some ([], -1)
  | none => none

end Shmem

inductive Direction where
  | send
  | receive
deriving DecidableEq, Repr

inductive TimedCall where
  | sendZMQ (message : Zeromq.MessageZMQ)
  | sendVectorZMQ (msgVec : List Zeromq.MessageZMQ)
  | receiveZMQ (frame : Zeromq.Frame) (message : Zeromq.MessageZMQ)
  | receiveVectorZMQ (inbox : Zeromq.Inbox)
  | sendSHM (message : Shmem.MessageSHM)
  | sendVectorSHM (msgVec : List Shmem.MessageSHM)
  | receiveSHM (leftover : Shmem.MetaHeader) (packet : List Shmem.MetaHeader)
      (message : Shmem.MessageSHM)
  | receiveVectorSHM (packet : List Shmem.MetaHeader)
deriving DecidableEq, Repr

namespace TimedCall

def direction : TimedCall → Direction
  | .sendZMQ _ | .sendVectorZMQ _ | .sendSHM _ | .sendVectorSHM _ => .send
  | .receiveZMQ _ _ | .receiveVectorZMQ _ | .receiveSHM _ _ _ | .receiveVectorSHM _ => .receive

/-- What a call has returned when zmq has answered `EAGAIN` to it so many times, on a
socket that is not interrupted. -/
def resultAfter (transfer : Transfer) (waits : Nat) : TimedCall → Option Int
  | .sendZMQ message =>
      (message.sendImpl transfer (.replicate waits (.again false))).map Zeromq.Sending.result
  | .sendVectorZMQ msgVec =>
      (Zeromq.sendVector transfer (.replicate waits (.again false)) msgVec).map
        Zeromq.Sending.result
  | .receiveZMQ frame message =>
      (Zeromq.receiveImpl transfer frame message 0 (.replicate waits (.again false))).map Prod.snd
  | .receiveVectorZMQ inbox =>
      (inbox.receiveImpl transfer (.replicate waits (.again false))).map Prod.snd
  | .sendSHM message =>
      (sendMessage transfer (.replicate waits ⟨false, .again false⟩) message).map
        Shmem.Sending.result
  | .sendVectorSHM msgVec =>
      (sendMessages transfer (.replicate waits ⟨false, .again false⟩) msgVec).map
        Shmem.Sending.result
  | .receiveSHM leftover packet message =>
      (receiveMessage transfer (.replicate waits ⟨false, .again false⟩) leftover packet
        message).map Prod.snd
  | .receiveVectorSHM packet =>
      (receiveMessages transfer (.replicate waits ⟨false, .again false⟩) packet).map Prod.snd

/-- The call reaches its loop: zeromq refuses an empty vector, and the headers of a
vector fit into one zmq message. -/
def Polls : TimedCall → Prop
  | .sendVectorZMQ msgVec => msgVec.length % 2 ^ 32 ≠ 0
  | .sendVectorSHM msgVec => msgVec.length % 2 ^ 32 = 1 ∨ msgVec.length < 2 ^ 32
  | _ => True

end TimedCall

def Timeouts.interval (timeouts : Timeouts) : Direction → Int
  | .send => timeouts.fSndTimeout
  | .receive => timeouts.fRcvTimeout

def Timeouts.setTimeout (timeouts : Timeouts) (direction : Direction) :
    Int → Method → Answers → Timeouts × Bool :=
  match direction with
  | .send => timeouts.setSendTimeout
  | .receive => timeouts.setReceiveTimeout

def EndsInTime (result : Nat → Option Int) (timeout interval : Int) : Prop :=
  ∃ n : Nat, timeout ≤ n * interval ∧ (∀ k : Nat, k < n → k * interval < timeout) ∧
    result n = some (-2) ∧ ∀ k < n, result k = none

/-- What all the loops do while zmq answers `EAGAIN`. -/
def poll (transfer : Transfer) : Int → Nat → Option Int
  | _, 0 => none
  | elapsed, waits + 1 =>
      match transfer.retry elapsed false with
      | .again elapsed => poll transfer elapsed waits
      | .giveUp => some (-2)
      | .overflow => none

def Punctual (timeout interval : Int) : Prop :=
  0 < interval ∧ (timeout + interval - 1) / interval * interval ≤ intMax

instance (timeout interval : Int) : Decidable (Punctual timeout interval) :=
  inferInstanceAs (Decidable (_ ∧ _))

section Poll

variable {timeout interval elapsed : Int}

theorem retry_waits (fits : FitsInt timeout) (nonneg : 0 ≤ elapsed) (forward : 0 < interval)
    (early : elapsed + interval < timeout) :
    Transfer.retry ⟨false, timeout, interval⟩ elapsed false = .again (elapsed + interval) := by
  have timed : timeout ≠ 0 := by omega
  have held : FitsInt (elapsed + interval) := by
    unfold FitsInt at fits ⊢
    omega
  simp [Transfer.retry, timed, held, early]

theorem retry_ends (timed : timeout ≠ 0) (late : timeout ≤ elapsed + interval) :
    Transfer.retry ⟨false, timeout, interval⟩ elapsed false =
      if FitsInt (elapsed + interval) then .giveUp else .overflow := by
  simp [Transfer.retry, timed, late]

theorem poll_add (fits : FitsInt timeout) (forward : 0 < interval) (rounds waits : Nat)
    (early : rounds * interval < timeout) :
    poll ⟨false, timeout, interval⟩ 0 (rounds + waits) =
      poll ⟨false, timeout, interval⟩ (rounds * interval) waits := by
  induction rounds generalizing waits with
  | zero => simp
  | succ rounds ih =>
      have next : ((rounds + 1 : Nat) : Int) * interval = rounds * interval + interval := by
        rw [Int.natCast_succ, Int.add_mul, Int.one_mul]
      have nonneg : 0 ≤ rounds * interval :=
        Int.mul_nonneg (Int.natCast_nonneg rounds) (Int.le_of_lt forward)
      rw [next] at early ⊢
      have turn := ih (waits + 1) (by omega)
      rw [poll, retry_waits fits nonneg forward early] at turn
      rw [Nat.add_right_comm]
      exact turn

theorem poll_last (positive : 0 < timeout) (fits : FitsInt timeout) (forward : 0 < interval)
    (rounds : Nat) (early : rounds * interval < timeout)
    (late : timeout ≤ (rounds + 1 : Nat) * interval) :
    poll ⟨false, timeout, interval⟩ 0 (rounds + 1) =
      if ((rounds + 1 : Nat) * interval ≤ intMax) then some (-2) else none := by
  rw [Int.natCast_succ, Int.add_mul, Int.one_mul] at late ⊢
  have held : FitsInt (rounds * interval + interval) ↔ rounds * interval + interval ≤ intMax := by
    unfold FitsInt
    omega
  rw [poll_add fits forward rounds 1 early, poll, retry_ends (by omega) late]
  by_cases fitting : rounds * interval + interval ≤ intMax
  · rw [if_pos (held.mpr fitting), if_pos fitting]
  · rw [if_neg (mt held.mp fitting), if_neg fitting]

theorem least_attempts_iff (positive : 0 < timeout) (forward : 0 < interval) (n : Nat) :
    (timeout ≤ n * interval ∧ ∀ k : Nat, k < n → k * interval < timeout) ↔
      (timeout + interval - 1) / interval = n := by
  rw [Int.ediv_eq_iff_of_pos forward]
  constructor
  · rintro ⟨late, early⟩
    cases n with
    | zero =>
        simp only [Int.natCast_zero, Int.zero_mul] at late
        omega
    | succ n =>
        have before := early n (Nat.lt_succ_self n)
        rw [Int.natCast_succ, Int.add_mul, Int.one_mul] at late ⊢
        omega
  · rintro ⟨reached, next⟩
    refine ⟨by omega, ?_⟩
    intro k earlier
    have step : ((k : Int) + 1) * interval ≤ n * interval :=
      Int.mul_le_mul_of_nonneg_right (by omega) (Int.le_of_lt forward)
    rw [Int.add_mul, Int.one_mul] at step
    omega

theorem poll_ends_iff (positive : 0 < timeout) (fits : FitsInt timeout) :
    EndsInTime (poll ⟨false, timeout, interval⟩ 0) timeout interval ↔
      Punctual timeout interval := by
  constructor
  · rintro ⟨n, late, early, ends, _⟩
    have forward : 0 < interval := by
      apply Int.not_le.mp
      intro backward
      have sum := Int.mul_nonpos_of_nonneg_of_nonpos (Int.natCast_nonneg n) backward
      omega
    refine ⟨forward, ?_⟩
    rw [(least_attempts_iff positive forward n).mp ⟨late, early⟩]
    cases n with
    | zero => cases ends
    | succ n =>
        rw [poll_last positive fits forward n (early n (Nat.lt_succ_self n)) late] at ends
        split at ends
        · assumption
        · cases ends
  · rintro ⟨forward, representable⟩
    have quotient : 0 ≤ (timeout + interval - 1) / interval :=
      Int.ediv_nonneg (by omega) (Int.le_of_lt forward)
    obtain ⟨n, isQuotient⟩ := Int.eq_ofNat_of_zero_le quotient
    obtain ⟨late, early⟩ := (least_attempts_iff positive forward n).mpr isQuotient
    rw [isQuotient] at representable
    refine ⟨n, late, early, ?_, ?_⟩
    · cases n with
      | zero =>
          simp only [Int.natCast_zero, Int.zero_mul] at late
          omega
      | succ n =>
          rw [poll_last positive fits forward n (early n (Nat.lt_succ_self n)) late]
          exact if_pos representable
    · intro k earlier
      have waiting := poll_add fits forward k 0 (early k earlier)
      rwa [Nat.add_zero] at waiting

end Poll

section Loops

variable (transfer : Transfer)

theorem sendLoop_poll (message : Zeromq.MessageZMQ) (elapsed : Int) (waits : Nat) :
    (Zeromq.sendLoop transfer message elapsed (.replicate waits (.again false))).map
      Zeromq.Sending.result = poll transfer elapsed waits := by
  induction waits generalizing elapsed with
  | zero => rfl
  | succ waits ih =>
      rw [List.replicate_succ, Zeromq.sendLoop, poll]
      cases transfer.retry elapsed false with
      | again elapsed => exact ih elapsed
      | giveUp => rfl
      | overflow => rfl

theorem sendParts_poll (message : Zeromq.MessageZMQ) (rest : List Zeromq.MessageZMQ)
    (elapsed : Int) (waits : Nat) :
    (Zeromq.sendParts transfer [] (message :: rest) [] 0 elapsed
      (.replicate waits (.again false))).map Zeromq.Sending.result =
        poll transfer elapsed waits := by
  induction waits generalizing message elapsed with
  | zero => rfl
  | succ waits ih =>
      simp only [List.replicate_succ, Zeromq.sendParts, poll]
      cases transfer.retry elapsed false with
      | again elapsed => exact ih message.applyUsedSize elapsed
      | giveUp => rfl
      | overflow => rfl

theorem receiveImpl_poll (frame : Zeromq.Frame) (message : Zeromq.MessageZMQ) (elapsed : Int)
    (waits : Nat) :
    (Zeromq.receiveImpl transfer frame message elapsed (.replicate waits (.again false))).map
      Prod.snd = poll transfer elapsed waits := by
  induction waits generalizing elapsed with
  | zero => rfl
  | succ waits ih =>
      rw [List.replicate_succ, Zeromq.receiveImpl, poll]
      cases transfer.retry elapsed false with
      | again elapsed => exact ih elapsed
      | giveUp => rfl
      | overflow => rfl

theorem receiveParts_poll (inbox : Zeromq.Inbox) (elapsed : Int) (waits : Nat) :
    (inbox.receiveParts transfer 0 elapsed (.replicate waits (.again false))).map Prod.snd =
      poll transfer elapsed waits := by
  induction waits generalizing elapsed with
  | zero => rfl
  | succ waits ih =>
      rw [List.replicate_succ, Zeromq.Inbox.receiveParts, poll]
      cases transfer.retry elapsed false with
      | again elapsed => exact ih elapsed
      | giveUp => rfl
      | overflow => rfl

theorem attempts_poll (atHead : Bool) (elapsed : Int) (waits : Nat) :
    attempts atHead transfer elapsed (.replicate waits ⟨false, .again false⟩) =
      (poll transfer elapsed waits).map fun _ => .again := by
  induction waits generalizing elapsed with
  | zero => rfl
  | succ waits ih =>
      simp only [List.replicate_succ, attempts, poll, Bool.and_false, Bool.false_eq_true, if_false]
      cases transfer.retry elapsed false with
      | again elapsed => exact ih elapsed
      | giveUp => rfl
      | overflow => rfl

theorem poll_result {elapsed result : Int} {waits : Nat}
    (done : poll transfer elapsed waits = some result) : result = -2 := by
  induction waits generalizing elapsed with
  | zero => cases done
  | succ waits ih =>
      rw [poll] at done
      split at done
      · exact ih done
      · cases done
        rfl
      · cases done

theorem attempts_result {α : Type} (atHead : Bool) (waits : Nat) (conclude : Shmem.Attempt → α)
    (result : α → Int) (gaveUp : result (conclude .again) = -2) :
    ((attempts atHead transfer 0 (.replicate waits ⟨false, .again false⟩)).map conclude).map
      result = poll transfer 0 waits := by
  rw [attempts_poll]
  cases done : poll transfer 0 waits with
  | none => rfl
  | some value =>
      rw [poll_result transfer done]
      simp [gaveUp]

theorem sendVector_poll {msgVec : List Zeromq.MessageZMQ} (polls : msgVec.length % 2 ^ 32 ≠ 0)
    (waits : Nat) :
    (Zeromq.sendVector transfer (.replicate waits (.again false)) msgVec).map
      Zeromq.Sending.result = poll transfer 0 waits := by
  simp only [Zeromq.sendVector]
  split
  next several =>
    rw [Option.map_map]
    cases taken : msgVec.take (msgVec.length % 2 ^ 32) with
    | nil =>
        have length := congrArg List.length taken
        simp only [List.length_take, List.length_nil] at length
        omega
    | cons message rest => exact sendParts_poll transfer message rest 0 waits
  next =>
    rw [if_pos (by omega)]
    cases last : msgVec.getLast? with
    | none =>
        rw [List.getLast?_eq_none_iff.mp last] at polls
        contradiction
    | some message =>
        rw [Option.map_map]
        exact sendLoop_poll transfer _ 0 waits

theorem sendImpl_again {msgVec : List Shmem.MessageSHM}
    (polls : msgVec.length % 2 ^ 32 = 1 ∨ msgVec.length < 2 ^ 32) :
    ∃ sending, Shmem.sendImpl msgVec .again = some sending ∧ sending.result = -2 := by
  by_cases one : msgVec.length % 2 ^ 32 = 1
  · cases last : msgVec.getLast? with
    | none =>
        rw [List.getLast?_eq_none_iff.mp last] at one
        contradiction
    | some message =>
        simp only [Shmem.sendImpl, if_pos one, last, Option.map_some]
        exact ⟨_, rfl, rfl⟩
  · have few := polls.resolve_left one
    rw [Nat.mod_eq_of_lt few] at one
    exact ⟨_, Shmem.sendImpl_several one few _, rfl⟩

theorem sendMessages_poll {msgVec : List Shmem.MessageSHM}
    (polls : msgVec.length % 2 ^ 32 = 1 ∨ msgVec.length < 2 ^ 32) (waits : Nat) :
    (sendMessages transfer (.replicate waits ⟨false, .again false⟩) msgVec).map
      Shmem.Sending.result = poll transfer 0 waits := by
  obtain ⟨sending, gaveUp, result⟩ := sendImpl_again polls
  rw [sendMessages, attempts_poll]
  cases done : poll transfer 0 waits with
  | none => rfl
  | some value =>
      rw [poll_result transfer done]
      simp [gaveUp, result]

theorem resultAfter_eq_poll {call : TimedCall} (polls : call.Polls) (waits : Nat) :
    call.resultAfter transfer waits = poll transfer 0 waits := by
  cases call with
  | sendZMQ message => exact sendLoop_poll transfer _ 0 waits
  | sendVectorZMQ msgVec => exact sendVector_poll transfer polls waits
  | receiveZMQ frame message => exact receiveImpl_poll transfer frame message 0 waits
  | receiveVectorZMQ inbox => exact receiveParts_poll transfer inbox 0 waits
  | sendSHM message => exact attempts_result transfer true waits _ _ rfl
  | sendVectorSHM msgVec => exact sendMessages_poll transfer polls waits
  | receiveSHM leftover packet message =>
      simp only [TimedCall.resultAfter, receiveMessage, attempts_poll]
      cases done : poll transfer 0 waits with
      | none => rfl
      | some value => rw [poll_result transfer done]; rfl
  | receiveVectorSHM packet =>
      simp only [TimedCall.resultAfter, receiveMessages, attempts_poll]
      cases done : poll transfer 0 waits with
      | none => rfl
      | some value => rw [poll_result transfer done]; rfl

theorem resultAfter_of_not_polls {call : TimedCall} (refused : ¬ call.Polls) (waits : Nat) :
    call.resultAfter transfer waits ≠ some (-2) := by
  cases call with
  | sendVectorZMQ msgVec =>
      have vecSize : msgVec.length % 2 ^ 32 = 0 := Decidable.not_not.mp refused
      simp only [TimedCall.resultAfter, Zeromq.sendVector, vecSize]
      simp
  | sendVectorSHM msgVec =>
      obtain ⟨several, long⟩ := not_or.mp refused
      have refusing : ∀ attempt, Shmem.sendImpl msgVec attempt = none := by
        intro attempt
        simp only [Shmem.sendImpl, if_neg several]
        exact if_neg (by omega)
      intro gaveUp
      obtain ⟨sending, done, _⟩ := Option.map_eq_some_iff.mp gaveUp
      obtain ⟨attempt, _, sent⟩ := Option.bind_eq_some_iff.mp done
      cases (refusing attempt).symm.trans sent
  | _ => exact absurd trivial refused

end Loops

/-- A timed transfer to which zmq always answers `EAGAIN` ends as promised exactly if the
interval that was set is positive, a multiple of it between the timeout and `INT_MAX`
stops the sum, and the call gets as far as asking zmq. -/
theorem timed_transfer_ends_iff (call : TimedCall) (timeouts : Timeouts) (value : Int)
    (method : Method) (answers : Answers) {timeout : Int} (fits : FitsInt timeout)
    (positive : 0 < timeout) :
    let socket := (timeouts.setTimeout call.direction value method answers).1
    EndsInTime
        (fun waits => call.resultAfter ⟨false, timeout, socket.interval call.direction⟩ waits)
        timeout (socket.interval call.direction) ↔
      Punctual timeout value ∧ call.Polls := by
  have interval : (timeouts.setTimeout call.direction value method answers).1.interval
      call.direction = value := by
    cases call.direction with
    | send => rfl
    | receive => rfl
  simp only [interval]
  by_cases polls : call.Polls
  · simp only [resultAfter_eq_poll _ polls, poll_ends_iff positive fits, polls, and_true]
  · refine ⟨?_, fun ⟨_, reaches⟩ => absurd reaches polls⟩
    rintro ⟨n, _, _, ends, _⟩
    exact absurd ends (resultAfter_of_not_polls _ polls n)

/-- The default interval of 100 ms and a timeout of 250 ms: three attempts. -/
theorem third_attempt_gives_up :
    FitsInt 250 ∧ (0 : Int) < 250 ∧
      EndsInTime
        (fun waits => (TimedCall.sendZMQ .new).resultAfter ⟨false, 250, 100⟩ waits) 250 100 ∧
      (TimedCall.sendZMQ .new).resultAfter ⟨false, 250, 100⟩ 3 = some (-2) :=
  ⟨by decide, by decide,
    (timed_transfer_ends_iff (.sendZMQ .new) ⟨100, 100⟩ 100 .bind ⟨true, true, true⟩
      (by decide) (by decide)).mpr ⟨by decide, trivial⟩, by decide⟩

/-- An interval of 0 ms is accepted; a send with a timeout then never returns. -/
theorem zero_interval_never_ends :
    ((Timeouts.mk 100 100).setSendTimeout 0 .bind ⟨true, true, true⟩) = (⟨0, 100⟩, true) ∧
      ∀ waits, (TimedCall.sendZMQ .new).resultAfter ⟨false, 100, 0⟩ waits = none := by
  refine ⟨rfl, ?_⟩
  intro waits
  have polls : (TimedCall.sendZMQ .new).Polls := trivial
  rw [resultAfter_eq_poll _ polls]
  induction waits with
  | zero => rfl
  | succ waits ih => exact ih

end FairMQ.Transports
