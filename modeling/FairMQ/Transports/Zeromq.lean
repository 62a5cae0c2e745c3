import Mathlib.Algebra.BigOperators.Group.List.Basic
import Mathlib.Algebra.Ring.Int.Defs
import Mathlib.Algebra.Ring.Nat

namespace FairMQ.Zeromq

/-! # `FairMQSocketZMQ`

The answers of zmq to the calls of one transfer are a list; a transfer that has used
up its answers is still waiting, and one whose `elapsed` overflows has no defined result.
A multi-part message travels as a list of frames. -/

/-- What a `zmq_msg_send` or `zmq_msg_recv` comes back with.  After `EAGAIN` the
socket reads `fInterrupted`. -/
inductive Outcome where
  | accepted
  | again (interrupted : Bool)
  | term
  | failed
deriving DecidableEq, Repr

def Outcome.isAgain : Outcome → Bool
  | .again _ => true
  | _ => false

/-- Flags and timeout of a call, and `fSndTimeout` or `fRcvTimeout` of the socket. -/
structure Transfer where
  dontWait : Bool
  timeout : Int
  interval : Int
deriving DecidableEq, Repr

def intMax : Nat := 2 ^ 31 - 1

def FitsInt (value : Int) : Prop :=
  -(intMax : Int) - 1 ≤ value ∧ value ≤ intMax

instance (value : Int) : Decidable (FitsInt value) :=
  inferInstanceAs (Decidable (_ ∧ _))

/-- What a call does after `EAGAIN`: it tries again with the time elapsed so far, or it
returns. -/
inductive Retry where
  | again (elapsed : Int)
  | giveUp
  | overflow
deriving DecidableEq, Repr

def Transfer.retry (transfer : Transfer) (elapsed : Int) (interrupted : Bool) : Retry :=
  if interrupted = false ∧ transfer.dontWait = false then
    if transfer.timeout ≠ 0 then
      if FitsInt (elapsed + transfer.interval) then
        if elapsed + transfer.interval ≥ transfer.timeout then .giveUp
        else .again (elapsed + transfer.interval)
      else .overflow
    else .again elapsed
  else .giveUp

def count (bytes : List UInt8) : Int :=
  min bytes.length intMax

structure Frame where
  payload : List UInt8
  more : Bool
deriving DecidableEq, Repr

/-- The messages are given by the bytes of their `zmq_msg_t`. -/
structure MessageZMQ where
  fUsedSizeModified : Bool
  fUsedSize : Nat
  fMsg : List UInt8
  fViewMsg : Option (List UInt8)
deriving DecidableEq, Repr

namespace MessageZMQ

def new : MessageZMQ := ⟨false, 0, [], none⟩

def filled (bytes : List UInt8) : MessageZMQ := ⟨false, bytes.length, bytes, none⟩

def getMessage (message : MessageZMQ) : List UInt8 :=
  message.fViewMsg.getD message.fMsg

def getSize (message : MessageZMQ) : Nat :=
  if message.fUsedSizeModified then message.fUsedSize else message.fMsg.length

def contents (message : MessageZMQ) : List UInt8 :=
  message.getMessage.take message.getSize

def applyUsedSize (message : MessageZMQ) : MessageZMQ :=
  if message.fUsedSizeModified ∧ message.fViewMsg = none then
    { message with fMsg := [], fViewMsg := some (message.fMsg.take message.fUsedSize) }
  else message

def sentBytes (message : MessageZMQ) : List UInt8 :=
  message.applyUsedSize.getMessage

/-- Overwrite the `zmq_msg_t` that the socket works on. -/
def setMessage (message : MessageZMQ) (bytes : List UInt8) : MessageZMQ :=
  match message.fViewMsg with
  | none => { message with fMsg := bytes }
  | some _ => { message with fViewMsg := some bytes }

end MessageZMQ

structure Sending where
  messages : List MessageZMQ
  frames : List Frame
  result : Int
deriving DecidableEq, Repr

def sendLoop (transfer : Transfer) (message : MessageZMQ) : Int → List Outcome → Option Sending
  | _, [] => none
  | _, .accepted :: _ =>
      some ⟨[message.setMessage []], [⟨message.getMessage, false⟩], count message.getMessage⟩
  | elapsed, .again interrupted :: outcomes =>
      match transfer.retry elapsed interrupted with
      | .again elapsed => sendLoop transfer message elapsed outcomes
      | .giveUp => some ⟨[message], [], -2⟩
      | .overflow => none
  | _, .term :: _ => some ⟨[message], [], -1⟩
  | _, .failed :: _ => some ⟨[message], [], -1⟩

def MessageZMQ.sendImpl (message : MessageZMQ) (transfer : Transfer) (outcomes : List Outcome) :
    Option Sending :=
  sendLoop transfer message.applyUsedSize 0 outcomes

/-- The loops of `SendImpl` for several parts: `sent` are the parts before index `i`,
and `EAGAIN` starts again at the first part. -/
def sendParts (transfer : Transfer) : List MessageZMQ → List MessageZMQ → List Frame → Int → Int →
    List Outcome → Option Sending
  | sent, [], frames, totalSize, _, _ => some ⟨sent, frames, totalSize⟩
  | _, _ :: _, _, _, _, [] => none
  | sent, part :: rest, frames, totalSize, elapsed, outcome :: outcomes =>
      let applied := part.applyUsedSize
      match outcome with
      | .accepted =>
          sendParts transfer (sent ++ [applied.setMessage []]) rest
            (frames ++ [⟨applied.getMessage, !rest.isEmpty⟩])
            (totalSize + count applied.getMessage) elapsed outcomes
      | .again interrupted =>
          match transfer.retry elapsed interrupted with
          | .again elapsed =>
              sendParts transfer [] (sent ++ applied :: rest) frames 0 elapsed outcomes
          | .giveUp => some ⟨sent ++ applied :: rest, frames, -2⟩
          | .overflow => none
      | .term => some ⟨sent ++ applied :: rest, frames, -1⟩
      | .failed => some ⟨sent ++ applied :: rest, frames, -1⟩

/-- `ReceiveImpl` for one message: the message and the result; `frame` is what zmq
delivers. -/
def receiveImpl (transfer : Transfer) (frame : Frame) (message : MessageZMQ) :
    Int → List Outcome → Option (MessageZMQ × Int)
  | _, [] => none
  | _, .accepted :: _ => some (message.setMessage frame.payload, count frame.payload)
  | elapsed, .again interrupted :: outcomes =>
      match transfer.retry elapsed interrupted with
      | .again elapsed => receiveImpl transfer frame message elapsed outcomes
      | .giveUp => some (message, -2)
      | .overflow => none
  | _, .term :: _ => some (message, -1)
  | _, .failed :: _ => some (message, -1)

/-- zmq reports `EAGAIN` for the first part of a message only. -/
def AgainFirst (outcomes : List Outcome) : Prop :=
  outcomes.Pairwise fun earlier later => earlier = .accepted → later.isAgain = false

def framesOf : List (List UInt8) → List Frame
  | [] => []
  | payload :: payloads => ⟨payload, !payloads.isEmpty⟩ :: framesOf payloads

section Send

variable {transfer : Transfer} {outcomes : List Outcome} {sending : Sending}

@[simp]
theorem applyUsedSize_applyUsedSize (message : MessageZMQ) :
    message.applyUsedSize.applyUsedSize = message.applyUsedSize := by
  by_cases applied : message.fUsedSizeModified ∧ message.fViewMsg = none
  · simp [MessageZMQ.applyUsedSize, applied]
  · have unchanged : message.applyUsedSize = message := if_neg applied
    rw [unchanged, unchanged]

@[simp]
theorem sentBytes_applyUsedSize (message : MessageZMQ) :
    message.applyUsedSize.sentBytes = message.sentBytes := by
  rw [MessageZMQ.sentBytes, applyUsedSize_applyUsedSize, MessageZMQ.sentBytes]

theorem count_nonneg (bytes : List UInt8) : 0 ≤ count bytes := by
  unfold count
  omega

theorem count_sum_le (payloads : List (List UInt8)) :
    (payloads.map count).sum ≤ ((payloads.map List.length).sum : Int) := by
  induction payloads with
  | nil => exact Int.le_refl 0
  | cons payload payloads ih =>
      simp only [List.map_cons, List.sum_cons, count] at ih ⊢
      omega

theorem count_sum_eq_iff (payloads : List (List UInt8)) :
    (payloads.map count).sum = ((payloads.map List.length).sum : Int) ↔
      ∀ payload ∈ payloads, payload.length < 2 ^ 31 := by
  induction payloads with
  | nil => simp
  | cons payload payloads ih =>
      have below := count_sum_le payloads
      rw [List.forall_mem_cons, ← ih]
      simp only [List.map_cons, List.sum_cons, count, intMax] at below ⊢
      omega

inductive Sending.Ends (sending : Sending) (frames : List Frame) (totalSize : Int) : Prop where
  | failed : sending.result = -1 → sending.Ends frames totalSize
  | gaveUp : sending.result = -2 → sending.frames = [] → sending.Ends frames totalSize
  | complete : sending.frames = frames → sending.result = totalSize → sending.Ends frames totalSize

theorem Sending.Ends.success {frames : List Frame} {totalSize : Int}
    (ends : sending.Ends frames totalSize) (success : 0 ≤ sending.result) :
    sending.frames = frames ∧ sending.result = totalSize := by
  cases ends with
  | failed result => omega
  | gaveUp result _ => omega
  | complete isFrames isResult => exact ⟨isFrames, isResult⟩

theorem sendLoop_cases {message : MessageZMQ} {elapsed : Int}
    (done : sendLoop transfer message elapsed outcomes = some sending) :
    sending = ⟨[message.setMessage []], [⟨message.getMessage, false⟩], count message.getMessage⟩ ∨
      sending = ⟨[message], [], -2⟩ ∨ sending = ⟨[message], [], -1⟩ := by
  induction outcomes generalizing elapsed with
  | nil => cases done
  | cons outcome outcomes ih =>
      cases outcome with
      | accepted =>
          cases done
          exact .inl rfl
      | again interrupted =>
          simp only [sendLoop] at done
          split at done
          · exact ih done
          · cases done
            exact .inr (.inl rfl)
          · cases done
      | term =>
          cases done
          exact .inr (.inr rfl)
      | failed =>
          cases done
          exact .inr (.inr rfl)

theorem sendLoop_ends {message : MessageZMQ} {elapsed : Int}
    (done : sendLoop transfer message elapsed outcomes = some sending) :
    sending.Ends [⟨message.getMessage, false⟩] (count message.getMessage) := by
  rcases sendLoop_cases done with rfl | rfl | rfl
  · exact .complete rfl rfl
  · exact .gaveUp rfl rfl
  · exact .failed rfl

theorem sendParts_rest {sent messages : List MessageZMQ} {frames : List Frame}
    {totalSize elapsed : Int} (never : ∀ outcome ∈ outcomes, outcome.isAgain = false)
    (done : sendParts transfer sent messages frames totalSize elapsed outcomes = some sending) :
    sending.Ends (frames ++ framesOf (messages.map MessageZMQ.sentBytes))
      (totalSize + ((messages.map MessageZMQ.sentBytes).map count).sum) := by
  induction messages generalizing sent frames totalSize outcomes with
  | nil =>
      simp only [sendParts, Option.some.injEq] at done
      subst done
      exact .complete (by simp [framesOf]) (by simp)
  | cons message messages ih =>
      cases outcomes with
      | nil => cases done
      | cons outcome outcomes =>
          obtain ⟨first, later⟩ := List.forall_mem_cons.mp never
          cases outcome with
          | accepted =>
              have rest := ih later done
              rw [List.append_assoc, List.singleton_append, Int.add_assoc] at rest
              simp only [List.map_cons, List.sum_cons, framesOf, List.isEmpty_map]
              exact rest
          | again interrupted => cases first
          | term =>
              cases done
              exact .failed rfl
          | failed =>
              cases done
              exact .failed rfl

theorem sendParts_ends {messages : List MessageZMQ} {elapsed : Int} (obeyed : AgainFirst outcomes)
    (done : sendParts transfer [] messages [] 0 elapsed outcomes = some sending) :
    sending.Ends (framesOf (messages.map MessageZMQ.sentBytes))
      ((messages.map MessageZMQ.sentBytes).map count).sum := by
  induction outcomes generalizing messages elapsed with
  | nil =>
      cases messages with
      | nil =>
          cases done
          exact .complete rfl rfl
      | cons message messages => cases done
  | cons outcome outcomes ih =>
      obtain ⟨following, later⟩ := List.pairwise_cons.mp obeyed
      cases messages with
      | nil =>
          cases done
          exact .complete rfl rfl
      | cons message messages =>
          cases outcome with
          | accepted =>
              have never := fun outcome member => following outcome member rfl
              have all : ∀ outcome ∈ Outcome.accepted :: outcomes, outcome.isAgain = false :=
                List.forall_mem_cons.mpr ⟨rfl, never⟩
              simpa using sendParts_rest all done
          | again interrupted =>
              simp only [sendParts, List.nil_append] at done
              split at done
              · simpa using ih later done
              · cases done
                exact .gaveUp rfl rfl
              · cases done
          | term =>
              cases done
              exact .failed rfl
          | failed =>
              cases done
              exact .failed rfl

theorem MessageZMQ.sendImpl_ends {message : MessageZMQ}
    (done : message.sendImpl transfer outcomes = some sending) :
    sending.Ends (framesOf ([message].map sentBytes)) (([message].map sentBytes).map count).sum := by
  have ends := sendLoop_ends done
  rw [← Int.add_zero (count _)] at ends
  exact ends

theorem sendParts_accepted (transfer : Transfer) (messages : List MessageZMQ)
    {sent : List MessageZMQ} {frames : List Frame} {totalSize elapsed : Int}
    (nonneg : 0 ≤ totalSize) :
    ∃ sending, sendParts transfer sent messages frames totalSize elapsed
      (messages.map fun _ => .accepted) = some sending ∧ 0 ≤ sending.result := by
  induction messages generalizing sent frames totalSize with
  | nil => exact ⟨_, by simp only [List.map_nil, sendParts]; rfl, nonneg⟩
  | cons message messages ih =>
      exact ih (Int.add_nonneg nonneg (count_nonneg _))

theorem againFirst_accepted {α : Type} (parts : List α) :
    AgainFirst (parts.map fun _ => .accepted) := by
  apply List.pairwise_of_forall_mem_list
  intro earlier _ later member _
  obtain ⟨_, _, isAccepted⟩ := List.mem_map.mp member
  rw [← isAccepted]
  rfl

theorem receiveImpl_success {frame : Frame} {message after : MessageZMQ} {elapsed result : Int}
    (done : receiveImpl transfer frame message elapsed outcomes = some (after, result))
    (success : 0 ≤ result) :
    after = message.setMessage frame.payload ∧ result = count frame.payload := by
  induction outcomes generalizing elapsed with
  | nil => cases done
  | cons outcome outcomes ih =>
      cases outcome with
      | accepted =>
          cases done
          exact ⟨rfl, rfl⟩
      | again interrupted =>
          simp only [receiveImpl] at done
          split at done
          · exact ih done
          · cases done
            simp at success
          · cases done
      | term =>
          cases done
          simp at success
      | failed =>
          cases done
          simp at success

end Send

end FairMQ.Zeromq
