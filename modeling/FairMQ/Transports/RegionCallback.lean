import FairMQ.Transports.Nanomsg

namespace FairMQ.Nanomsg

open FairMQ.Zeromq (Transfer)

def Event.isCallback : Event → Bool
  | .callback .. => true
  | .accepted _ => false

/-- A `Send` of a message, alone or as the part between two lists of others, fewer than
`2 ^ 32` in all. -/
inductive SendCall where
  | single (transfer : Transfer) (outcomes : List Outcome)
  | vector (before after : List MessageNN) (transfer : Transfer) (outcomes : List Outcome)
deriving DecidableEq, Repr

structure Treatment where
  message : MessageNN
  events : List Event
  result : Int
deriving DecidableEq, Repr

def ownEvents (before after : List MessageNN) (message : MessageNN) (events : List Event) :
    List Event :=
  (events.drop (before.flatMap MessageNN.callback).length).take message.callback.length ++
    events.drop ((before ++ message :: after).flatMap MessageNN.callback).length

def SendCall.perform (message : MessageNN) : SendCall → Option Treatment
  | .single transfer outcomes =>
      (message.sendImpl transfer outcomes).map fun sending =>
        ⟨sending.messages.headD message, sending.events, sending.result⟩
  | .vector before after transfer outcomes =>
      (sendImpl transfer outcomes (before ++ message :: after)).map fun sending =>
        ⟨sending.messages.getD before.length message,
          ownEvents before after message sending.events, sending.result⟩

def performAll : MessageNN → List SendCall → Option (List Event)
  | _, [] => some []
  | message, call :: calls =>
      match call.perform message with
      | none => none
      | some treatment =>
          (performAll treatment.message calls).map fun events => treatment.events ++ events

structure CalledBackOnce (events : List Event) : Prop where
  once : events.countP Event.isCallback = 1
  afterwards : ∀ front event back, events = front ++ event :: back →
    event.isCallback = true → ∃ payload, .accepted payload ∈ front

section Events

variable {message : MessageNN} {event : Event} {transfer : Transfer} {outcomes : List Outcome}
  {sending : Sending}

theorem callback_not_receiving (message : MessageNN) :
    ({ message with fReceiving := false } : MessageNN).callback = message.callback := rfl

theorem sendLoop_spec {events : List Event} {elapsed : Int}
    (done : sendLoop transfer message events elapsed outcomes = some sending) :
    (∃ more, sending.events = events ++ more) ∧
      (sending.messages.headD message).callback = message.callback := by
  induction outcomes generalizing events elapsed with
  | nil => cases done
  | cons outcome outcomes ih =>
      cases outcome with
      | accepted =>
          cases done
          exact ⟨⟨_, rfl⟩, callback_not_receiving message⟩
      | timedOut interrupted =>
          simp only [sendLoop] at done
          split at done
          · obtain ⟨⟨more, extended⟩, same⟩ := ih done
            exact ⟨⟨message.callback ++ more, by rw [extended, List.append_assoc]⟩, same⟩
          · cases done
            exact ⟨⟨_, rfl⟩, rfl⟩
          · cases done
      | again | term | failed =>
          cases done
          exact ⟨⟨_, rfl⟩, rfl⟩

theorem sendImpl_events (own : message.callback = [event])
    (done : message.sendImpl transfer outcomes = some sending) :
    (outcomes.head? = some .accepted ∧ sending.events = [.accepted message.payload, event]) ∨
      ∃ rest, sending.events = event :: rest := by
  cases outcomes with
  | nil => cases done
  | cons outcome outcomes =>
      cases outcome with
      | accepted =>
          cases done
          exact .inl ⟨rfl, by rw [own]; rfl⟩
      | timedOut interrupted =>
          simp only [MessageNN.sendImpl, sendLoop, own] at done
          split at done
          · exact .inr (sendLoop_spec done).1
          · cases done
            exact .inr ⟨[], rfl⟩
          · cases done
      | again | term | failed =>
          cases done
          exact .inr ⟨[], own⟩

theorem sendPacked_spec {messages : List MessageNN} {events : List Event}
    {buffer : List UInt8} {elapsed : Int}
    (done : sendPacked transfer messages events buffer elapsed outcomes = some sending) :
    (∃ more, sending.events = events ++ more) ∧ sending.messages = messages := by
  induction outcomes generalizing elapsed with
  | nil => cases done
  | cons outcome outcomes ih =>
      cases outcome with
      | accepted =>
          cases done
          exact ⟨⟨_, rfl⟩, rfl⟩
      | timedOut interrupted =>
          simp only [sendPacked] at done
          split at done
          · exact ih done
          · cases done
            exact ⟨⟨[], (List.append_nil _).symm⟩, rfl⟩
          · cases done
      | again | term | failed =>
          cases done
          exact ⟨⟨[], (List.append_nil _).symm⟩, rfl⟩

theorem ownEvents_append (before after : List MessageNN) (message : MessageNN)
    (more : List Event) :
    ownEvents before after message
      ((before ++ message :: after).flatMap MessageNN.callback ++ more) =
        message.callback ++ more := by
  unfold ownEvents
  rw [List.drop_left]
  simp only [List.flatMap_append, List.flatMap_cons, List.append_assoc, List.drop_left,
    List.take_left]

end Events

def SendCall.Immediate : SendCall → Prop
  | .single _ outcomes => outcomes.head? = some .accepted
  | .vector .. => False

section Calls

variable {message : MessageNN} {event : Event}

theorem perform_events (own : message.callback = [event]) {call : SendCall}
    {treatment : Treatment} (done : call.perform message = some treatment) :
    (call.Immediate ∧ treatment.events = [.accepted message.payload, event]) ∨
      ∃ rest, treatment.events = event :: rest := by
  cases call with
  | single transfer outcomes =>
      obtain ⟨sending, sent, rfl⟩ := Option.map_eq_some_iff.mp done
      exact sendImpl_events own sent
  | vector before after transfer outcomes =>
      obtain ⟨sending, sent, rfl⟩ := Option.map_eq_some_iff.mp done
      obtain ⟨more, extended⟩ := (sendPacked_spec sent).1
      refine .inr ⟨more, ?_⟩
      rw [extended, ownEvents_append, own]
      rfl

theorem perform_callback {call : SendCall} {treatment : Treatment}
    (done : call.perform message = some treatment) :
    treatment.message.callback = message.callback := by
  cases call with
  | single transfer outcomes =>
      obtain ⟨sending, sent, rfl⟩ := Option.map_eq_some_iff.mp done
      exact (sendLoop_spec sent).2
  | vector before after transfer outcomes =>
      obtain ⟨sending, sent, rfl⟩ := Option.map_eq_some_iff.mp done
      have place : sending.messages.getD before.length message =
          { message with fReceiving := false } := by
        rw [(sendPacked_spec sent).2]
        simp
      exact (congrArg MessageNN.callback place).trans (callback_not_receiving message)

theorem performAll_cons {call : SendCall} {calls : List SendCall} {events : List Event}
    (done : performAll message (call :: calls) = some events) :
    ∃ treatment later, call.perform message = some treatment ∧
      performAll treatment.message calls = some later ∧ events = treatment.events ++ later := by
  simp only [performAll] at done
  split at done
  · cases done
  · rename_i treatment performed
    obtain ⟨later, others, rfl⟩ := Option.map_eq_some_iff.mp done
    exact ⟨treatment, later, performed, others, rfl⟩

theorem length_le_callbacks (isCallback : event.isCallback = true)
    (own : message.callback = [event]) {calls : List SendCall} {events : List Event}
    (done : performAll message calls = some events) :
    calls.length ≤ events.countP Event.isCallback := by
  induction calls generalizing message events with
  | nil => exact Nat.zero_le _
  | cons call calls ih =>
      obtain ⟨treatment, later, performed, others, rfl⟩ := performAll_cons done
      have rest := ih ((perform_callback performed).trans own) others
      have called : 1 ≤ treatment.events.countP Event.isCallback := by
        rcases perform_events own performed with ⟨_, known⟩ | ⟨more, known⟩
        · simp [known, isCallback]
        · simp [known, isCallback]
      rw [List.length_cons, List.countP_append]
      omega

end Calls

end FairMQ.Nanomsg
