import FairMQ.Device.InputLoop

namespace FairMQ.Device

open FairMQ.Data
open FairMQ.Options (Transport)

def passedOn : List InputEvent → Bool
  | [] => true
  | .received t channel i :: .invoked t' channel' index :: log =>
      (t, channel, i) = (t', channel', index) && passedOn log
  | _ => false

structure Delivery where
  thread : Nat
  channel : String
  i : Nat
  handler : Handler
deriving DecidableEq, Repr

namespace Delivery

def events (delivery : Delivery) : List InputEvent :=
  [.received delivery.thread delivery.channel delivery.i,
    .invoked delivery.thread delivery.channel (delivery.handler.index delivery.i)]

def Chosen (inputs : Inputs) (delivery : Delivery) : Prop :=
  inputs.handler delivery.channel delivery.i = some delivery.handler

end Delivery

def MultipartFirst (inputs : Inputs) (log : List InputEvent) : Prop :=
  ∀ t channel i, .received t channel i ∈ log →
    inputs.handler channel i = some .handleMultipartInput → i = 0

theorem Handler.index_eq_iff {handler : Handler} {i : Nat} :
    handler.index i = i ↔ (handler = .handleMultipartInput → i = 0) := by
  cases handler with
  | handleMsgInput => simp [index]
  | handleMultipartInput => simp [index, eq_comm]

def Delivers (allowed : Delivery → Prop) (log : List InputEvent) : Prop :=
  ∃ deliveries : List Delivery, log = deliveries.flatMap Delivery.events ∧
    ∀ delivery ∈ deliveries, allowed delivery

theorem passedOn_deliveries (deliveries : List Delivery) :
    passedOn (deliveries.flatMap Delivery.events) = true ↔
      ∀ delivery ∈ deliveries, delivery.handler.index delivery.i = delivery.i := by
  induction deliveries with
  | nil => simp [passedOn]
  | cons delivery deliveries ih =>
      have first : passedOn (delivery.events ++ deliveries.flatMap Delivery.events) =
          (decide (delivery.handler.index delivery.i = delivery.i) &&
            passedOn (deliveries.flatMap Delivery.events)) := by
        simp only [Delivery.events, List.cons_append, List.nil_append, passedOn, Prod.mk.injEq,
          true_and]
        rw [decide_eq_decide.mpr eq_comm]
      rw [List.flatMap_cons, first, Bool.and_eq_true, decide_eq_true_iff, ih,
        List.forall_mem_cons]

namespace Delivers

variable {allowed : Delivery → Prop} {inputs : Inputs} {log later : List InputEvent}

theorem nil : Delivers allowed [] := ⟨[], rfl, by simp⟩

theorem single {delivery : Delivery} (isAllowed : allowed delivery) :
    Delivers allowed delivery.events :=
  ⟨[delivery], by simp, by simpa using isAllowed⟩

theorem append (delivers : Delivers allowed log) (deliversLater : Delivers allowed later) :
    Delivers allowed (log ++ later) := by
  obtain ⟨deliveries, rfl, each⟩ := delivers
  obtain ⟨others, rfl, eachOther⟩ := deliversLater
  refine ⟨deliveries ++ others, by simp, ?_⟩
  intro delivery member
  exact (List.mem_append.mp member).elim (each delivery) (eachOther delivery)

theorem handle {handler : Handler} {thread : Nat} {channel : String} {i : Nat}
    (isAllowed : allowed ⟨thread, channel, i, handler⟩) (reception : Reception) :
    Delivers allowed (handler.handle thread channel channel i reception).log := by
  cases reception with
  | throws | failed => exact nil
  | data proceed => exact single isAllowed

theorem passedOn_iff (delivers : Delivers (Delivery.Chosen inputs) log) :
    passedOn log = true ↔ MultipartFirst inputs log := by
  obtain ⟨deliveries, rfl, chosen⟩ := delivers
  rw [passedOn_deliveries]
  constructor
  · intro indices t channel i received multipart
    obtain ⟨delivery, member, isEvent⟩ := List.mem_flatMap.mp received
    simp only [Delivery.events, List.mem_cons, InputEvent.received.injEq, reduceCtorEq,
      List.not_mem_nil, or_false] at isEvent
    obtain ⟨rfl, rfl, rfl⟩ := isEvent
    have isHandler := (chosen delivery member).symm.trans multipart
    exact Handler.index_eq_iff.mp (indices delivery member) (Option.some.inj isHandler)
  · intro first delivery member
    have received : .received delivery.thread delivery.channel delivery.i ∈
        deliveries.flatMap Delivery.events :=
      List.mem_flatMap.mpr ⟨delivery, member, List.mem_cons_self⟩
    apply Handler.index_eq_iff.mpr
    intro multipart
    exact first _ _ _ received ((chosen delivery member).trans (congrArg some multipart))

end Delivers

section Loops

variable {inputs : Inputs} {thread : Nat}

theorem singleLoop_delivers (handler : Handler) (channel : String)
    (rounds : List (Bool × Reception)) :
    Delivers (fun delivery => delivery.i = 0) (singleLoop handler channel channel rounds) := by
  induction rounds with
  | nil => exact .nil
  | cons round rounds ih =>
      obtain ⟨running, reception⟩ := round
      simp only [singleLoop]
      split
      · have own : Delivers (fun delivery => delivery.i = 0)
            (handler.handle 0 channel channel 0 reception).log := by
          apply Delivers.handle
          rfl
        apply own.append
        split
        · exact ih
        · exact .nil
      · exact .nil

theorem singleLoop_passedOn (handler : Handler) (channel : String)
    (rounds : List (Bool × Reception)) :
    passedOn (singleLoop handler channel channel rounds) = true := by
  obtain ⟨deliveries, isLog, first⟩ := singleLoop_delivers handler channel rounds
  rw [isLog, passedOn_deliveries]
  intro delivery member
  exact Handler.index_eq_iff.mpr fun _ => first delivery member

theorem scan_delivers (poller : Poller) (iteration : Iteration)
    (subChannels : List (String × Nat)) :
    Delivers (Delivery.Chosen inputs) (scan inputs thread poller iteration subChannels).log := by
  induction subChannels with
  | nil => exact .nil
  | cons first subChannels ih =>
      obtain ⟨channel, i⟩ := first
      simp only [scan]
      split
      · exact .nil
      · exact ih
      · split
        · split
          · exact .nil
          · rename_i handler isHandler
            have own : Delivers (Delivery.Chosen inputs) (handler.handle thread channel channel i
                (iteration.reception channel i)).log := Delivers.handle isHandler _
            split
            · exact own.append ih
            · exact own
        · exact .nil

theorem pollLoop_delivers (subChannels : List (String × Nat)) (poller : Poller)
    (iterations : List Iteration) :
    Delivers (Delivery.Chosen inputs)
      ((pollLoop inputs thread subChannels poller iterations).flatMap (·.2.log)) := by
  induction iterations generalizing poller with
  | nil => exact .nil
  | cons iteration iterations ih =>
      simp only [pollLoop]
      split
      · split
        · exact .nil
        · rw [List.flatMap_cons]
          apply Delivers.append (scan_delivers _ _ _)
          split
          · exact ih _
          · exact .nil
      · exact .nil

theorem pollForTransport_delivers (transport : Transport) (channelsMap : ChannelMap)
    (channelKeys : List String) (iterations : List Iteration) :
    Delivers (Delivery.Chosen inputs)
      ((pollForTransport inputs thread transport channelsMap channelKeys iterations).flatMap
        (·.2.log)) := by
  unfold pollForTransport
  split
  · exact .nil
  · exact pollLoop_delivers _ _ _

end Loops

def Place.handler? : Place → Option (Nat × Nat × Handler)
  | .receive ch i handler | .invoke ch i handler => some (ch, i, handler)
  | _ => none

theorem Place.handler?_of_idle {place : Place} (idle : place.handling = false) :
    place.handler? = none := by
  cases place <;> first | rfl | cases idle

theorem Place.not_owes_of_idle {place : Place} (idle : place.handler? = none) :
    place.owes = false := by
  cases place <;> first | rfl | cases idle

inductive Moves (inputs : Inputs) (t : Nat) (thread : PollThread) :
    Place → Option InputEvent → Prop where
  | choose {ch i : Nat} {handler : Handler} (isPlace : thread.place = .locked ch i)
      (chosen : inputs.handler (thread.key ch) i = some handler) :
      Moves inputs t thread (.receive ch i handler) none
  | receive {ch i : Nat} {handler : Handler} (isPlace : thread.place = .receive ch i handler) :
      Moves inputs t thread (.invoke ch i handler) (some (.received t (thread.key ch) i))
  | invoke {ch i : Nat} {handler : Handler} (isPlace : thread.place = .invoke ch i handler) :
      Moves inputs t thread (.callback ch i)
        (some (.invoked t (thread.key ch) (handler.index i)))
  | other {place : Place} {event : Option InputEvent} (owesNone : thread.place.owes = false)
      (idle : place.handler? = none) (quiet : ∀ new ∈ event, new.input = false) :
      Moves inputs t thread place event

section Threads

variable {inputs : Inputs} {state after : MultiTransport} {t : Nat} {thread : PollThread}

inductive Stepped (inputs : Inputs) (state after : MultiTransport) : Prop where
  | started (fresh : List PollThread) (places : ∀ thread ∈ fresh, thread.place = .createPoller)
      (threads : after.threads = state.threads ++ fresh) (log : after.log = state.log)
  | moved {t : Nat} {thread : PollThread} {place : Place} {event : Option InputEvent}
      (found : state.threads[t]? = some thread) (moves : Moves inputs t thread place event)
      (threads : after.threads = state.threads.set t { thread with place })
      (log : after.log = state.log ++ event.toList)

theorem PollEffect.stepped (effect : PollEffect inputs state after) :
    Stepped inputs state after := by
  cases effect with
  | started channelKeys => exact .started [⟨channelKeys, .createPoller⟩] (by simp) rfl rfl
  | left => exact .started [] (by simp) (List.append_nil _).symm rfl
  | passed found side before next =>
      have owesNone := Place.not_owes_of_idle (Place.handler?_of_idle before)
      exact .moved found (.other owesNone (Place.handler?_of_idle next) (by simp)) rfl rfl
  | unwound found _ owesNone => exact .moved found (.other owesNone rfl (by simp)) rfl rfl
  | chosen found isPlace _ isHandler => exact .moved found (.choose isPlace isHandler) rfl rfl
  | received found isPlace => exact .moved found (.receive isPlace) rfl rfl
  | invoked found isPlace => exact .moved found (.invoke isPlace) rfl rfl
  | finished found isPlace | acquired found isPlace | assigned found isPlace =>
      exact .moved found (.other (by rw [isPlace]; rfl) rfl (by simp)) rfl rfl
  | notReceived found isPlace | returned _ found isPlace =>
      exact .moved found (.other (by rw [isPlace]; rfl) rfl (by simp [InputEvent.input])) rfl rfl
  | @released t thread ch next found isPlace =>
      have idle : (next.elim (Place.outerCheck ch) (Place.subChannel ch)).handler? = none := by
        cases next <;> rfl
      exact .moved found (.other (by rw [isPlace]; rfl) idle (by simp)) rfl rfl

def MultiTransport.Settled (state : MultiTransport) : Prop :=
  ∀ thread ∈ state.threads, thread.place.owes = false

/-- The log as whole deliveries, up to a receipt whose thread is about to call back. -/
inductive Delivering (inputs : Inputs) (state : MultiTransport) : Prop where
  | settled (settled : state.Settled)
      (delivers : Delivers (Delivery.Chosen inputs) (state.log.filter (·.input)))
  | owing {t : Nat} {thread : PollThread} {ch i : Nat} {handler : Handler}
      (found : state.threads[t]? = some thread) (isPlace : thread.place = .invoke ch i handler)
      (log : List InputEvent) (delivers : Delivers (Delivery.Chosen inputs) log)
      (isLog : state.log.filter (·.input) = log ++ [.received t (thread.key ch) i])

def HandlersChosen (inputs : Inputs) (state : MultiTransport) : Prop :=
  ∀ thread ∈ state.threads, ∀ ch i handler, thread.place.handler? = some (ch, i, handler) →
    inputs.handler (thread.key ch) i = some handler

theorem HandlersChosen.step (chosen : HandlersChosen inputs state)
    (stepped : Stepped inputs state after) : HandlersChosen inputs after := by
  cases stepped with
  | started fresh places threads log =>
      intro thread member ch i handler handles
      rw [threads] at member
      rcases List.mem_append.mp member with old | new
      · exact chosen thread old ch i handler handles
      · rw [places thread new] at handles
        cases handles
  | @moved t thread place event found moves threads log =>
      intro other member ch i handler handles
      rw [threads] at member
      rcases List.mem_or_eq_of_mem_set member with old | rfl
      · exact chosen other old ch i handler handles
      · cases moves with
        | choose isPlace isChosen =>
            cases handles
            exact isChosen
        | receive isPlace =>
            cases handles
            exact chosen thread (List.mem_of_getElem? found) _ _ _ (by rw [isPlace]; rfl)
        | invoke isPlace => cases handles
        | other _ idle _ =>
            rw [idle] at handles
            cases handles

theorem Place.inside_of_owes {place : Place} (owes : place.owes = true) : place.inside = true := by
  cases place <;> first | rfl | cases owes

theorem settled_of_callback (orderly : Orderly state) (found : state.threads[t]? = some thread)
    (held : thread.place.inside = true) {ch i : Nat}
    (threads : after.threads = state.threads.set t { thread with place := .callback ch i }) :
    after.Settled := by
  have bound := (List.getElem?_eq_some_iff.mp found).1
  intro other member
  by_contra owes
  rw [Bool.not_eq_false] at owes
  obtain ⟨place, isOther⟩ := List.mem_iff_getElem?.mp member
  rw [threads] at isOther
  by_cases here : t = place
  · subst here
    cases (List.getElem?_set_self bound).symm.trans isOther
    cases owes
  · rw [List.getElem?_set_ne here] at isOther
    exact here (orderly.guarded.unique found held isOther (Place.inside_of_owes owes))

namespace Delivering

theorem pass (delivering : Delivering inputs state) (found : state.threads[t]? = some thread)
    {place : Place} {event : Option InputEvent} (owesNone : thread.place.owes = false)
    (stays : place.owes = false) (quiet : ∀ new ∈ event, new.input = false)
    (threads : after.threads = state.threads.set t { thread with place })
    (log : after.log = state.log ++ event.toList) : Delivering inputs after := by
  have sameLog : after.log.filter (·.input) = state.log.filter (·.input) := by
    have none : event.toList.filter (·.input) = [] := by
      rw [List.filter_eq_nil_iff]
      intro new member
      rw [quiet new (Option.mem_toList.mp member)]
      exact Bool.false_ne_true
    rw [log, List.filter_append, none, List.append_nil]
  cases delivering with
  | settled settled delivers =>
      refine .settled ?_ (sameLog ▸ delivers)
      intro other member
      rw [threads] at member
      rcases List.mem_or_eq_of_mem_set member with old | rfl
      · exact settled other old
      · exact stays
  | @owing t' thread' ch i handler found' isPlace before delivers isLog =>
      have apart : t ≠ t' := by
        rintro rfl
        cases found.symm.trans found'
        rw [isPlace] at owesNone
        cases owesNone
      have still : after.threads[t']? = some thread' := by
        rw [threads, List.getElem?_set_ne apart, found']
      exact .owing still isPlace before delivers (sameLog.trans isLog)

theorem receive (delivering : Delivering inputs state) (orderly : Orderly state)
    (found : state.threads[t]? = some thread) {ch i : Nat} {handler : Handler}
    (isPlace : thread.place = .receive ch i handler)
    (threads : after.threads = state.threads.set t { thread with place := .invoke ch i handler })
    (log : after.log = state.log ++ [.received t (thread.key ch) i]) :
    Delivering inputs after := by
  have held : thread.place.inside = true := by rw [isPlace]; rfl
  have bound := (List.getElem?_eq_some_iff.mp found).1
  cases delivering with
  | settled settled delivers =>
      have here : after.threads[t]? = some { thread with place := .invoke ch i handler } := by
        rw [threads, List.getElem?_set_self bound]
      apply Delivering.owing here rfl _ delivers
      rw [log, List.filter_append]
      rfl
  | owing found' isPlace' =>
      have same := orderly.guarded.unique found held found' (by rw [isPlace']; rfl)
      subst same
      cases found.symm.trans found'
      rw [isPlace] at isPlace'
      cases isPlace'

theorem invoke (delivering : Delivering inputs state) (orderly : Orderly state)
    (chosen : HandlersChosen inputs state)
    (found : state.threads[t]? = some thread) {ch i : Nat} {handler : Handler}
    (isPlace : thread.place = .invoke ch i handler)
    (threads : after.threads = state.threads.set t { thread with place := .callback ch i })
    (log : after.log = state.log ++ [.invoked t (thread.key ch) (handler.index i)]) :
    Delivering inputs after := by
  have held : thread.place.inside = true := by rw [isPlace]; rfl
  cases delivering with
  | settled settled delivers =>
      have owesNone := settled thread (List.mem_of_getElem? found)
      rw [isPlace] at owesNone
      cases owesNone
  | owing found' isPlace' before delivers isLog =>
      have same := orderly.guarded.unique found held found' (by rw [isPlace']; rfl)
      subst same
      cases found.symm.trans found'
      cases isPlace.symm.trans isPlace'
      refine .settled ?_ ?_
      · exact settled_of_callback orderly found held threads
      · have isChosen := chosen thread (List.mem_of_getElem? found) ch i handler
          (by rw [isPlace]; rfl)
        have own : Delivers (Delivery.Chosen inputs)
            (Delivery.events ⟨t, thread.key ch, i, handler⟩) := .single isChosen
        have isAfter : after.log.filter (·.input) =
            before ++ Delivery.events ⟨t, thread.key ch, i, handler⟩ := by
          rw [log, List.filter_append, isLog, List.append_assoc]
          rfl
        rw [isAfter]
        exact delivers.append own

theorem step (delivering : Delivering inputs state) (orderly : Orderly state)
    (chosen : HandlersChosen inputs state) (stepped : Stepped inputs state after) :
    Delivering inputs after := by
  cases stepped with
  | started fresh places threads log =>
      cases delivering with
      | settled settled delivers =>
          refine .settled ?_ (log ▸ delivers)
          intro thread member
          rw [threads] at member
          rcases List.mem_append.mp member with old | new
          · exact settled thread old
          · rw [places thread new]
            rfl
      | owing found isPlace before delivers isLog =>
          have bound := (List.getElem?_eq_some_iff.mp found).1
          refine .owing ?_ isPlace before delivers (log ▸ isLog)
          rw [threads, List.getElem?_append_left bound, found]
  | moved found moves threads log =>
      cases moves with
      | choose isPlace isChosen =>
          exact delivering.pass found (by rw [isPlace]; rfl) rfl (by simp) threads log
      | receive isPlace => exact delivering.receive orderly found isPlace threads log
      | invoke isPlace => exact delivering.invoke orderly chosen found isPlace threads log
      | other owesNone idle quiet =>
          exact delivering.pass found owesNone (Place.not_owes_of_idle idle) quiet threads log

end Delivering

theorem delivering_of_reaches (reached : (pollSystem inputs).Reaches state) :
    HandlersChosen inputs state ∧ Delivering inputs state := by
  induction reached with
  | initial start =>
      cases start
      exact ⟨by simp [HandlersChosen, MultiTransport.start],
        .settled (by simp [MultiTransport.Settled, MultiTransport.start]) .nil⟩
  | step reached _ stepped ih =>
      have effect := (step_effect stepped).stepped
      exact ⟨ih.1.step effect, ih.2.step (orderly_of_reaches reached) ih.1 effect⟩

end Threads

theorem first_callback {ν : Type} {map : UnorderedMap String ν} {channel : String}
    (only : ∀ key ∈ map.keys, key = channel) {traversal : Traversal String}
    {entry : String × ν} {entries : List (String × ν)}
    (isEntries : map.traverse traversal = entry :: entries) : entry.1 = channel := by
  have member := (map.traverse_perm traversal).mem_iff.mp (isEntries ▸ List.mem_cons_self)
  exact only entry.1 (List.mem_map_of_mem member)

theorem handleSingleChannelInput_passedOn {α β : Type} {registry : Registry α β}
    {channel : String} (only : registry.fInputChannelKeys = [channel])
    (traversal : Traversal String) (rounds : List (Bool × Reception)) :
    passedOn (handleSingleChannelInput registry traversal rounds) = true := by
  have onlyKey : ∀ key, key ∈ registry.fMsgInputs.keys ∨ key ∈ registry.fMultipartInputs.keys →
      key = channel := by
    intro key stored
    have listed := (registry.known key).mpr stored
    rw [only] at listed
    exact List.mem_singleton.mp listed
  simp only [handleSingleChannelInput, only]
  split
  · split
    · rfl
    · rename_i isEntries
      rw [← first_callback (fun key member => onlyKey key (.inl member)) isEntries]
      exact singleLoop_passedOn _ _ _
  · split
    · split
      · rfl
      · rename_i isEntries
        rw [← first_callback (fun key member => onlyKey key (.inr member)) isEntries]
        exact singleLoop_passedOn _ _ _
    · rfl

theorem settles {inputs : Inputs} {state : MultiTransport}
    (reached : (pollSystem inputs).Reaches state) :
    state.Settled ∨ ∃ t after, (pollSystem inputs).step state (.advance t) = some after ∧
      after.Settled := by
  cases (delivering_of_reaches reached).2 with
  | settled settled delivers => exact .inl settled
  | @owing t thread ch i handler found isPlace before delivers isLog =>
      have held : thread.place.inside = true := by rw [isPlace]; rfl
      refine .inr ⟨t, state.move t thread (.callback ch i)
        (some (.invoked t (thread.key ch) (handler.index i))), ?_, ?_⟩
      · simp [pollSystem, MultiTransport.step, MultiTransport.advance, found, isPlace]
      · exact settled_of_callback (orderly_of_reaches reached) found held rfl

theorem settled_passedOn_iff {inputs : Inputs} {state : MultiTransport}
    (reached : (pollSystem inputs).Reaches state) (settled : state.Settled) :
    passedOn (state.log.filter (·.input)) = true ↔ MultipartFirst inputs state.log := by
  cases (delivering_of_reaches reached).2 with
  | settled _ delivers =>
      rw [delivers.passedOn_iff]
      simp only [MultipartFirst, List.mem_filter, InputEvent.input, and_true]
  | owing found isPlace =>
      have owesNone := settled _ (List.mem_of_getElem? found)
      rw [isPlace] at owesNone
      cases owesNone

/-- What the only sub-channel of the only input channel receives is passed on with its index.
In the other loops, and for the threads in every run, this is so exactly if multi-part messages
are received on first sub-channels only. -/
theorem callback_index_iff (inputs : Inputs) :
    (∀ {α β : Type} (registry : Registry α β) (channel : String) (traversal : Traversal String)
      (rounds : List (Bool × Reception)), registry.fInputChannelKeys = [channel] →
      passedOn (handleSingleChannelInput registry traversal rounds) = true) ∧
    (∀ (transport : Transport) (channelsMap : ChannelMap)
      (fInputChannelKeys : List String) (iterations : List Iteration) (log : List InputEvent),
      log = (handleMultipleChannelInput inputs transport channelsMap fInputChannelKeys
        iterations).flatMap (·.2.log) →
      (passedOn log = true ↔ MultipartFirst inputs log)) ∧
    (∀ state : MultiTransport, (pollSystem inputs).Reaches state →
      (state.Settled ∨ ∃ t after, (pollSystem inputs).step state (.advance t) = some after ∧
        after.Settled) ∧
      (state.Settled →
        (passedOn (state.log.filter (·.input)) = true ↔ MultipartFirst inputs state.log))) := by
  refine ⟨?_, ?_, ?_⟩
  · intro α β registry channel traversal rounds only
    exact handleSingleChannelInput_passedOn only traversal rounds
  · rintro transport channelsMap fInputChannelKeys iterations log rfl
    exact (pollForTransport_delivers _ _ _ _).passedOn_iff
  · intro state reached
    exact ⟨settles reached, settled_passedOn_iff reached⟩

/-- One thread with a channel of two sub-channels, for single messages: the second one gets its
index. -/
theorem second_sub_channel_msg :
    ∃ state : MultiTransport,
      (pollSystem ⟨fun _ => some [false, false], fun _ => true, fun _ => false⟩).Reaches state ∧
        state.log = [.received 0 "c" 1, .invoked 0 "c" 1, .returned 0 true] ∧
        passedOn (state.log.filter (·.input)) = true := by
  obtain ⟨state, reached, isLog, settled⟩ :
      ∃ state, (pollSystem ⟨fun _ => some [false, false], fun _ => true,
        fun _ => false⟩).ReachesUnder (fun _ _ => True) state ∧
        (state.log = [.received 0 "c" 1, .invoked 0 "c" 1, .returned 0 true] ∧
          ∀ thread ∈ state.threads, thread.place.owes = false) :=
    TransitionSystem.reaches_of_runUnder MultiTransport.start
      [.start ["c"], .advance 0, .advance 0, .advance 0, .advance 0, .advance 0, .advance 0,
        .checkInput 0 false, .advance 0, .checkInput 0 true, .advance 0, .advance 0,
        .receive 0 7, .advance 0, .callbackReturns 0 true]
      rfl (by decide)
  refine ⟨state, reached, isLog, (((callback_index_iff _).2.2 state reached).2 settled).mpr ?_⟩
  intro t channel i received multipart
  simp only [isLog, List.mem_cons, InputEvent.received.injEq, reduceCtorEq, List.not_mem_nil,
    or_false] at received
  obtain ⟨_, rfl, rfl⟩ := received
  cases multipart

/-- The second of two sub-channels has a multi-part message, and its callback is called with
the index zero. -/
theorem second_sub_channel_multipart :
    (handleMultipleChannelInput ⟨fun _ => some [true, true], fun _ => false, fun _ => true⟩ .zmq
        (fun _ => some [⟨.zmq, .pull⟩, ⟨.zmq, .pull⟩]) ["c"]
        [⟨true, true, .reported fun watched => ⟨watched = some ("c", 1), false⟩, fun _ _ => true,
          fun _ _ => .data (some true)⟩]).flatMap (·.2.log) =
      [.received 0 "c" 1, .invoked 0 "c" 0] ∧
      passedOn [.received 0 "c" 1, .invoked 0 "c" 0] = false := by
  decide

end FairMQ.Device
