import FairMQ.Data.TransitionSystem
import FairMQ.Transports.Zeromq

namespace FairMQ.Zeromq

open FairMQ.Data

namespace MessageZMQ

def ofData (bytes : List UInt8) : MessageZMQ := ⟨false, 0, bytes, none⟩

def setUsedSize (message : MessageZMQ) (size : Nat) : Option (MessageZMQ × Bool) :=
  match message.fViewMsg with
  | some _ => none
  | none =>
      if size ≤ message.fMsg.length then
        some ({ message with fUsedSize := size, fUsedSizeModified := true }, true)
      else some (message, false)

def copy (message source : MessageZMQ) : Option MessageZMQ :=
  match message.fViewMsg with
  | some _ => none
  | none =>
      if source.fUsedSizeModified then
        some { message with
          fMsg := source.getMessage, fUsedSizeModified := true, fUsedSize := source.fUsedSize }
      else some { message with fMsg := source.getMessage }

def closeMessage (message : MessageZMQ) : MessageZMQ :=
  match message.fViewMsg with
  | none => { message with fMsg := [], fUsedSizeModified := false, fUsedSize := 0 }
  | some _ => { message with fViewMsg := none, fUsedSizeModified := false, fUsedSize := 0 }

def rebuild (message : MessageZMQ) (bytes : List UInt8) : MessageZMQ :=
  { message.closeMessage with fMsg := bytes }

end MessageZMQ

inductive MessageCall where
  | newMessage
  | newSized (bytes : List UInt8)
  | newData (bytes : List UInt8)
  | setUsedSize (id size : Nat)
  | copy (target source : Nat)
  | rebuild (id : Nat) (bytes : List UInt8)
  | receive (id : Nat) (payload : List UInt8)
  | send (id : Nat) (transfer : Transfer) (outcomes : List Outcome)
deriving DecidableEq, Repr

/-- The message objects of a process; one that has been sent is gone. -/
abbrev Objects := List (Option MessageZMQ)

namespace Objects

def find (objects : Objects) (id : Nat) : Option MessageZMQ :=
  objects[id]?.join

def update (objects : Objects) (id : Nat) (message : Option MessageZMQ) : Objects :=
  objects.set id message

def afterSend (objects : Objects) (id : Nat) (sending : Sending) : Objects :=
  objects.update id (if 0 ≤ sending.result then none else sending.messages.head?)

def step (objects : Objects) : MessageCall → Option Objects
  | .newMessage => some (objects ++ [some .new])
  | .newSized bytes => some (objects ++ [some (.filled bytes)])
  | .newData bytes => some (objects ++ [some (.ofData bytes)])
  | .setUsedSize id size =>
      match objects.find id with
      | some message =>
          (message.setUsedSize size).map fun result => objects.update id (some result.1)
      | none => none
  | .copy target source =>
      match objects.find target, objects.find source with
      | some message, some other =>
          if target = source then none
          else (message.copy other).map fun after => objects.update target (some after)
      | _, _ => none
  | .rebuild id bytes =>
      match objects.find id with
      | some message => some (objects.update id (some (message.rebuild bytes)))
      | none => none
  | .receive id payload =>
      match objects.find id with
      | some message => some (objects.update id (some (message.setMessage payload)))
      | none => none
  | .send id transfer outcomes =>
      match objects.find id with
      | some message => (message.sendImpl transfer outcomes).map (objects.afterSend id)
      | none => none

end Objects

def messageSystem : TransitionSystem Objects MessageCall where
  initial objects := objects = []
  step := Objects.step

/-- The used size stays inside the message, and a socket sends the first `GetSize`
bytes at `GetData`. -/
structure MessageZMQ.SizeLaw (message : MessageZMQ) : Prop where
  bounded : message.fUsedSizeModified = true → message.fUsedSize ≤ message.getMessage.length
  sends : message.sentBytes = message.contents
  size : message.contents.length = message.getSize

def Lawful (objects : Objects) : MessageCall → Prop
  | .newMessage => MessageZMQ.new.SizeLaw
  | .newSized bytes => (MessageZMQ.filled bytes).SizeLaw
  | .newData bytes => (MessageZMQ.ofData bytes).SizeLaw
  | .setUsedSize id size =>
      ∀ message, objects.find id = some message →
        ∃ after accepted, message.setUsedSize size = some (after, accepted) ∧ after.SizeLaw
  | .copy target source =>
      ∀ message other, objects.find target = some message → objects.find source = some other →
        ∃ after, message.copy other = some after ∧ after.SizeLaw ∧ after.getSize = other.getSize
  | .rebuild id bytes =>
      ∀ message, objects.find id = some message → (message.rebuild bytes).SizeLaw
  | .receive id payload =>
      ∀ message, objects.find id = some message →
        (message.setMessage payload).SizeLaw ∧
          (message.setMessage payload).getSize = count payload
  | .send id transfer outcomes =>
      ∀ message sending, objects.find id = some message →
        message.sendImpl transfer outcomes = some sending →
          (0 ≤ sending.result → sending.frames = [⟨message.contents, false⟩]) ∧
          (sending.result < 0 → ∀ after ∈ sending.messages, after.SizeLaw)

/-- `Receive` leaves a used size in place, so it has to be the one that comes, and zmq
reports sizes up to `INT_MAX`. -/
def MessageZMQ.Accepts (message : MessageZMQ) (payload : List UInt8) : Prop :=
  (message.fUsedSizeModified = true → message.fUsedSize = min payload.length intMax) ∧
    (message.fUsedSizeModified = false ∨ message.fViewMsg ≠ none → payload.length ≤ intMax)

/-- `Copy` leaves a used size in place if the source has none; a message that has been
cut cannot be copied to. -/
def MessageZMQ.AcceptsCopy (message other : MessageZMQ) : Prop :=
  message.fViewMsg = none ∧
    (message.fUsedSizeModified = true →
      other.fUsedSizeModified = true ∨ message.fUsedSize = other.getSize)

def Agrees (objects : Objects) : MessageCall → Prop
  | .setUsedSize id _ => ∀ message, objects.find id = some message → message.fViewMsg = none
  | .copy target source =>
      ∀ message other, objects.find target = some message → objects.find source = some other →
        message.AcceptsCopy other
  | .receive id payload =>
      ∀ message, objects.find id = some message → message.Accepts payload
  | _ => True

structure MessageZMQ.Sized (message : MessageZMQ) : Prop where
  bounded : message.fUsedSizeModified = true → message.fUsedSize ≤ message.getMessage.length
  viewed : ∀ view, message.fViewMsg = some view →
    message.fUsedSizeModified = true ∧ view.length = message.fUsedSize

section Sized

variable {message other after : MessageZMQ} {payload : List UInt8}

theorem getMessage_of_uncut (uncut : message.fViewMsg = none) :
    message.getMessage = message.fMsg := by
  rw [MessageZMQ.getMessage, uncut, Option.getD_none]

theorem getSize_of_modified (modified : message.fUsedSizeModified = true) :
    message.getSize = message.fUsedSize := if_pos modified

theorem getSize_of_unmodified (unmodified : message.fUsedSizeModified = false) :
    message.getSize = message.fMsg.length := by
  rw [MessageZMQ.getSize, unmodified]
  rfl

namespace MessageZMQ

theorem Sized.uncut (uncut : message.fViewMsg = none)
    (fits : message.fUsedSizeModified = true → message.fUsedSize ≤ message.fMsg.length) :
    message.Sized where
  bounded modified := by
    rw [getMessage_of_uncut uncut]
    exact fits modified
  viewed view cut := by
    rw [uncut] at cut
    cases cut

theorem sized_unmodified (used : Nat) (bytes : List UInt8) : Sized ⟨false, used, bytes, none⟩ :=
  .uncut rfl nofun

theorem Sized.view_none (sized : message.Sized) (unmodified : message.fUsedSizeModified = false) :
    message.fViewMsg = none := by
  cases cut : message.fViewMsg with
  | none => rfl
  | some view =>
      rw [(sized.viewed view cut).1] at unmodified
      cases unmodified

theorem Sized.sizeLaw (sized : message.Sized) : message.SizeLaw := by
  obtain ⟨modified, used, bytes, view⟩ := message
  have bounded := sized.bounded
  have viewed := sized.viewed
  cases view with
  | none =>
      cases modified with
      | false => exact ⟨bounded, List.take_length.symm, by simp [contents, getMessage, getSize]⟩
      | true => exact ⟨bounded, rfl, List.length_take_of_le (bounded rfl)⟩
  | some view =>
      obtain ⟨isModified, length⟩ := viewed view rfl
      cases isModified
      have whole : view.take used = view := List.take_of_length_le length.le
      refine ⟨bounded, ?_, ?_⟩
      · simp [sentBytes, applyUsedSize, contents, getMessage, getSize, whole]
      · exact List.length_take_of_le length.ge

theorem Sized.applyUsedSize (sized : message.Sized) : message.applyUsedSize.Sized := by
  by_cases cuts : message.fUsedSizeModified = true ∧ message.fViewMsg = none
  · have fits := sized.bounded cuts.1
    rw [getMessage_of_uncut cuts.2] at fits
    have length := List.length_take_of_le fits
    rw [MessageZMQ.applyUsedSize, if_pos cuts]
    refine ⟨fun _ => length.ge, ?_⟩
    intro view cut
    cases cut
    exact ⟨cuts.1, length⟩
  · have unchanged : message.applyUsedSize = message := if_neg cuts
    rwa [unchanged]

theorem Sized.setUsedSize {size : Nat} {accepted : Bool} (sized : message.Sized)
    (done : message.setUsedSize size = some (after, accepted)) : after.Sized := by
  unfold MessageZMQ.setUsedSize at done
  split at done
  next => cases done
  next isNone =>
    split at done
    next fits =>
      cases done
      exact .uncut isNone fun _ => fits
    next =>
      cases done
      exact sized

theorem setUsedSize_defined_iff (message : MessageZMQ) (size : Nat) :
    (∃ after accepted, message.setUsedSize size = some (after, accepted)) ↔
      message.fViewMsg = none := by
  unfold setUsedSize
  split
  next view cut => simp [cut]
  next uncut =>
    refine ⟨fun _ => uncut, fun _ => ?_⟩
    split
    · exact ⟨_, _, rfl⟩
    · exact ⟨_, _, rfl⟩

theorem Sized.copy (sized : other.Sized) (accepts : message.AcceptsCopy other) :
    ∃ after, message.copy other = some after ∧ after.Sized ∧ after.getSize = other.getSize := by
  obtain ⟨modified, used, bytes, view⟩ := message
  obtain ⟨uncut, agreed⟩ := accepts
  cases uncut
  cases changed : other.fUsedSizeModified with
  | true =>
      refine ⟨⟨true, other.fUsedSize, other.getMessage, none⟩, if_pos changed, ?_, ?_⟩
      · exact .uncut rfl fun _ => sized.bounded changed
      · exact (getSize_of_modified changed).symm
  | false =>
      have whole := getMessage_of_uncut (sized.view_none changed)
      have size := getSize_of_unmodified changed
      have same : modified = true → used = other.fMsg.length := fun isModified =>
        ((agreed isModified).resolve_left (by simp [changed])).trans size
      refine ⟨⟨modified, used, other.fMsg, none⟩, by simp [MessageZMQ.copy, changed, whole],
        .uncut rfl fun isModified => (same isModified).le, ?_⟩
      cases modified with
      | false => exact size.symm
      | true => exact (same rfl).trans size.symm

theorem acceptsCopy_of_copy (done : message.copy other = some after)
    (same : after.getSize = other.getSize) : message.AcceptsCopy other := by
  obtain ⟨modified, used, bytes, view⟩ := message
  cases view with
  | some view => cases done
  | none =>
      refine ⟨rfl, ?_⟩
      rintro (rfl : modified = true)
      cases changed : other.fUsedSizeModified with
      | true => exact .inl rfl
      | false =>
          simp only [MessageZMQ.copy, changed, Bool.false_eq_true, if_false] at done
          cases done
          exact .inr same

theorem natCast_eq_count_iff (size : Nat) (payload : List UInt8) :
    (size : Int) = count payload ↔ size = min payload.length intMax := by
  unfold count
  omega

theorem Sized.receive (sized : message.Sized) (accepts : message.Accepts payload) :
    (message.setMessage payload).Sized ∧
      (message.setMessage payload).getSize = count payload := by
  obtain ⟨modified, used, bytes, view⟩ := message
  obtain ⟨agreed, fits⟩ := accepts
  rw [natCast_eq_count_iff]
  cases view with
  | none =>
      cases modified with
      | false =>
          have short := fits (.inl rfl)
          exact ⟨sized_unmodified used payload, (Nat.min_eq_left short).symm⟩
      | true =>
          have size := agreed rfl
          exact ⟨.uncut rfl fun _ => size.le.trans (Nat.min_le_left _ _), size⟩
  | some view =>
      have isModified : modified = true := (sized.viewed view rfl).1
      subst isModified
      have short : payload.length ≤ intMax := fits (.inr nofun)
      have size := agreed rfl
      have length : payload.length = used := (size.trans (Nat.min_eq_left short)).symm
      refine ⟨⟨fun _ => length.ge, ?_⟩, size⟩
      intro view cut
      cases cut
      exact ⟨rfl, length⟩

theorem Sized.accepts (sized : message.Sized) (law : (message.setMessage payload).SizeLaw)
    (size : (message.setMessage payload).getSize = count payload) : message.Accepts payload := by
  obtain ⟨modified, used, bytes, view⟩ := message
  rw [natCast_eq_count_iff] at size
  cases view with
  | none =>
      cases modified with
      | false =>
          have short : payload.length = min payload.length intMax := size
          exact ⟨nofun, fun _ => by omega⟩
      | true => exact ⟨fun _ => size, fun unmodified => absurd unmodified (by simp)⟩
  | some view =>
      have isModified : modified = true := (sized.viewed view rfl).1
      subst isModified
      refine ⟨fun _ => size, fun _ => ?_⟩
      -- A socket sends the whole view, which is longer than what `GetSize` can say.
      have sent : payload = payload.take used := law.sends
      have taken := congrArg List.length sent
      rw [List.length_take] at taken
      have isUsed : used = min payload.length intMax := size
      omega

theorem sized_rebuild (message : MessageZMQ) (bytes : List UInt8) :
    (message.rebuild bytes).Sized := by
  unfold rebuild closeMessage
  split
  next uncut => exact .uncut uncut nofun
  next => exact .uncut rfl nofun

end MessageZMQ

end Sized

section Runs

variable {objects : Objects} {call : MessageCall}

theorem mem_of_find {id : Nat} {message : MessageZMQ} (found : objects.find id = some message) :
    some message ∈ objects :=
  List.mem_of_getElem? (Option.join_eq_some_iff.mp found)

def Objects.Sized (objects : Objects) : Prop :=
  ∀ message, some message ∈ objects → message.Sized

namespace Objects.Sized

theorem append (sized : objects.Sized) {message : MessageZMQ} (new : message.Sized) :
    Objects.Sized (objects ++ [some message]) := by
  intro object member
  rcases List.mem_append.mp member with old | added
  · exact sized object old
  · cases List.mem_singleton.mp added
    exact new

theorem update (sized : objects.Sized) {message : Option MessageZMQ}
    (new : ∀ after, message = some after → after.Sized) (id : Nat) :
    (objects.update id message).Sized := by
  intro object member
  rcases List.mem_or_eq_of_mem_set member with old | changed
  · exact sized object old
  · exact new object changed.symm

theorem replace (sized : objects.Sized) {message : MessageZMQ} (new : message.Sized) (id : Nat) :
    (objects.update id (some message)).Sized :=
  sized.update (fun _ isNew => Option.some.inj isNew ▸ new) id

end Objects.Sized

theorem sendImpl_failed {transfer : Transfer} {outcomes : List Outcome} {message : MessageZMQ}
    {sending : Sending} (done : message.sendImpl transfer outcomes = some sending)
    (failure : sending.result < 0) : sending.messages = [message.applyUsedSize] := by
  rcases sendLoop_cases done with rfl | rfl | rfl
  · exact absurd failure (Int.not_lt.mpr (count_nonneg _))
  · rfl
  · rfl

theorem lawful_of_agrees (sized : objects.Sized) (agrees : Agrees objects call) :
    Lawful objects call := by
  cases call with
  | newMessage => exact (MessageZMQ.sized_unmodified _ _).sizeLaw
  | newSized bytes => exact (MessageZMQ.sized_unmodified _ _).sizeLaw
  | newData bytes => exact (MessageZMQ.sized_unmodified _ _).sizeLaw
  | setUsedSize id size =>
      intro message found
      obtain ⟨after, accepted, done⟩ := (message.setUsedSize_defined_iff size).mpr
        (agrees message found)
      exact ⟨after, accepted, done, ((sized message (mem_of_find found)).setUsedSize done).sizeLaw⟩
  | copy target source =>
      intro message other found foundOther
      obtain ⟨after, done, sizedAfter, size⟩ := (sized other (mem_of_find foundOther)).copy
        (agrees message other found foundOther)
      exact ⟨after, done, sizedAfter.sizeLaw, size⟩
  | rebuild id bytes =>
      intro message found
      exact (message.sized_rebuild bytes).sizeLaw
  | receive id payload =>
      intro message found
      obtain ⟨sizedAfter, size⟩ := (sized message (mem_of_find found)).receive
        (agrees message found)
      exact ⟨sizedAfter.sizeLaw, size⟩
  | send id transfer outcomes =>
      intro message sending found done
      have sizedMessage := sized message (mem_of_find found)
      refine ⟨fun success => ?_, fun failure => ?_⟩
      · rw [((sendLoop_ends done).success success).1, ← sizedMessage.sizeLaw.sends]
        rfl
      · rw [sendImpl_failed done failure]
        intro after member
        cases List.mem_singleton.mp member
        exact sizedMessage.applyUsedSize.sizeLaw

theorem agrees_of_lawful (sized : objects.Sized) (lawful : Lawful objects call) :
    Agrees objects call := by
  cases call with
  | setUsedSize id size =>
      intro message found
      obtain ⟨after, accepted, done, _⟩ := lawful message found
      exact (message.setUsedSize_defined_iff size).mp ⟨after, accepted, done⟩
  | copy target source =>
      intro message other found foundOther
      obtain ⟨after, done, _, size⟩ := lawful message other found foundOther
      exact MessageZMQ.acceptsCopy_of_copy done size
  | receive id payload =>
      intro message found
      obtain ⟨law, size⟩ := lawful message found
      exact (sized message (mem_of_find found)).accepts law size
  | newMessage => trivial
  | newSized bytes => trivial
  | newData bytes => trivial
  | rebuild id bytes => trivial
  | send id transfer outcomes => trivial

theorem Objects.Sized.step {after : Objects} (sized : objects.Sized)
    (agrees : Agrees objects call) (stepped : objects.step call = some after) : after.Sized := by
  cases call with
  | newMessage =>
      cases stepped
      exact sized.append (MessageZMQ.sized_unmodified _ _)
  | newSized bytes =>
      cases stepped
      exact sized.append (MessageZMQ.sized_unmodified _ _)
  | newData bytes =>
      cases stepped
      exact sized.append (MessageZMQ.sized_unmodified _ _)
  | setUsedSize id size =>
      simp only [Objects.step] at stepped
      split at stepped
      next message found =>
        obtain ⟨⟨changed, accepted⟩, done, isAfter⟩ := Option.map_eq_some_iff.mp stepped
        subst isAfter
        exact sized.replace ((sized message (mem_of_find found)).setUsedSize done) id
      next => cases stepped
  | copy target source =>
      simp only [Objects.step] at stepped
      split at stepped
      next message other found foundOther =>
        split at stepped
        next => cases stepped
        next =>
          obtain ⟨copied, done, isAfter⟩ := Option.map_eq_some_iff.mp stepped
          obtain ⟨_, copies, sizedCopy, _⟩ := (sized other (mem_of_find foundOther)).copy
            (agrees message other found foundOther)
          cases done.symm.trans copies
          subst isAfter
          exact sized.replace sizedCopy target
      next => cases stepped
  | rebuild id bytes =>
      simp only [Objects.step] at stepped
      split at stepped
      next message found =>
        cases stepped
        exact sized.replace (message.sized_rebuild bytes) id
      next => cases stepped
  | receive id payload =>
      simp only [Objects.step] at stepped
      split at stepped
      next message found =>
        cases stepped
        obtain ⟨sizedAfter, _⟩ := (sized message (mem_of_find found)).receive
          (agrees message found)
        exact sized.replace sizedAfter id
      next => cases stepped
  | send id transfer outcomes =>
      simp only [Objects.step] at stepped
      split at stepped
      next message found =>
        obtain ⟨sending, done, isAfter⟩ := Option.map_eq_some_iff.mp stepped
        subst isAfter
        apply sized.update
        intro left isLeft
        split at isLeft
        next => cases isLeft
        next failure =>
          rw [sendImpl_failed done (Int.not_le.mp failure)] at isLeft
          cases isLeft
          exact (sized message (mem_of_find found)).applyUsedSize
      next => cases stepped

theorem sized_of_reaches (reached : messageSystem.ReachesUnder Agrees objects) : objects.Sized := by
  refine reached.invariant ?_ fun _ _ _ sized agrees stepped => sized.step agrees stepped
  rintro _ rfl message member
  cases member

end Runs

/-- The sizes of messages are right in every run whose calls respect the sizes already
noted, and in such a run a call that does not breaks them. -/
theorem size_law_iff {objects : Objects} (reached : messageSystem.ReachesUnder Agrees objects) :
    (∀ message, some message ∈ objects → message.SizeLaw) ∧
      ∀ call, Lawful objects call ↔ Agrees objects call := by
  have sized := sized_of_reaches reached
  exact ⟨fun message member => (sized message member).sizeLaw,
    fun call => ⟨agrees_of_lawful sized, lawful_of_agrees sized⟩⟩

theorem resized_message_law :
    messageSystem.ReachesUnder Agrees [some ⟨true, 2, [1, 2, 3, 4], none⟩] ∧
      MessageZMQ.SizeLaw ⟨true, 2, [1, 2, 3, 4], none⟩ := by
  have created : messageSystem.ReachesUnder Agrees [some (.filled [1, 2, 3, 4])] :=
    .step (.initial rfl) (show Agrees [] (.newSized [1, 2, 3, 4]) from trivial) rfl
  have uncut : Agrees [some (.filled [1, 2, 3, 4])] (.setUsedSize 0 2) := by
    rintro _ ⟨⟩
    rfl
  have resized : messageSystem.ReachesUnder Agrees [some ⟨true, 2, [1, 2, 3, 4], none⟩] :=
    .step created uncut rfl
  exact ⟨resized, (size_law_iff resized).1 _ List.mem_cons_self⟩

/-- A message of four bytes is resized to two; then a message of one byte is copied to it.
It says that it has two bytes, one more than the message it now holds. -/
theorem copy_keeps_used_size :
    ∃ objects, messageSystem.Reaches objects ∧ ¬ Lawful objects (.copy 0 1) ∧
      (objects.find 1).map MessageZMQ.getSize = some 1 ∧
      ∃ after, objects.step (.copy 0 1) = some after ∧
        (after.find 0).map MessageZMQ.getSize = some 2 ∧
        (after.find 0).map (fun message => message.getMessage.length) = some 1 := by
  obtain ⟨objects, reached, isObjects⟩ : ∃ objects, messageSystem.Reaches objects ∧
      objects = [some ⟨true, 2, [1, 2, 3, 4], none⟩, some (.filled [9])] :=
    TransitionSystem.reaches_of_runUnder []
      [.newSized [1, 2, 3, 4], .setUsedSize 0 2, .newSized [9]] rfl (by decide)
  subst isObjects
  refine ⟨_, reached, ?_, by decide, _, rfl, by decide, by decide⟩
  intro lawful
  obtain ⟨after, copied, _, size⟩ := lawful _ _ rfl rfl
  cases copied
  exact absurd size (by decide)

end FairMQ.Zeromq
