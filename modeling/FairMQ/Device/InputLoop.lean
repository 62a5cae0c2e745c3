import FairMQ.Device.Poller
import FairMQ.Device.Registry

namespace FairMQ.Device

open FairMQ.Data
open FairMQ.Options (Transport)

/-- What happens in a handler: `Receive` throws, returns a negative number or returns data, and
then the callback returns or throws. -/
inductive Reception where
  | throws
  | failed
  | data (proceed : Option Bool)
deriving DecidableEq, Repr

/-- The end of a handler; without a result an exception has left it. -/
structure Handling where
  log : List InputEvent
  result : Option Bool
deriving DecidableEq, Repr

/-- `HandleMsgInput` and `HandleMultipartInput`, with the channel of which the callback is. -/
def Handler.handle (handler : Handler) (thread : Nat) (chName : String) (callback : String)
    (i : Nat) : Reception → Handling
  | .throws => ⟨[], none⟩
  | .failed => ⟨[], some false⟩
  | .data proceed =>
      ⟨[.received thread chName i, .invoked thread callback (handler.index i)], proceed⟩

/-- A loop of `HandleSingleChannelInput`, for rounds with the result of
`CheckCurrentState(RUNNING)`. -/
def singleLoop (handler : Handler) (chName callback : String) :
    List (Bool × Reception) → List InputEvent
  | [] => []
  | (running, reception) :: rounds =>
      if running then
        let handling := handler.handle 0 chName callback 0 reception
        handling.log ++
          if handling.result = some true then singleLoop handler chName callback rounds else []
      else []

def handleSingleChannelInput {α β : Type} (registry : Registry α β)
    (traversal : Traversal String) (rounds : List (Bool × Reception)) : List InputEvent :=
  match registry.fInputChannelKeys with
  | [] => []
  | chName :: _ =>
      if registry.fMsgInputs.size > 0 then
        match registry.fMsgInputs.traverse traversal with
        | [] => []
        | (callback, _) :: _ => singleLoop .handleMsgInput chName callback rounds
      else if registry.fMultipartInputs.size > 0 then
        match registry.fMultipartInputs.traverse traversal with
        | [] => []
        | (callback, _) :: _ => singleLoop .handleMultipartInput chName callback rounds
      else []

/-- The environment of one round: the two conditions of the loop, the end of `Poll`, whether
`fMultitransportProceed` is still set when the mutex has been taken for a sub-channel, and what
its handler meets. -/
structure Iteration where
  running : Bool
  proceed : Bool
  outcome : PollOutcome
  unstopped : String → Nat → Bool
  reception : String → Nat → Reception

structure Scan where
  handled : List (String × Nat)
  log : List InputEvent
  result : Option Bool
deriving DecidableEq, Repr

/-- The sub-channels in the order of the two nested loops, which a break leaves both. -/
def places (channelsMap : ChannelMap) (channelList : List String) : List (String × Nat) :=
  channelList.flatMap fun channel =>
    (List.range (channelsMap.size channel)).map fun i => (channel, i)

section Loop

variable (inputs : Inputs) (thread : Nat)

/-- The loops over the sub-channels.  The flag that `PollForTransport` reads after a channel
only spares inputs that would stop at the mutex. -/
def scan (poller : Poller) (iteration : Iteration) : List (String × Nat) → Scan
  | [] => ⟨[], [], some true⟩
  | (channel, i) :: places =>
      match poller.checkInput channel i with
      | none => ⟨[], [], none⟩
      | some false => scan poller iteration places
      | some true =>
          if iteration.unstopped channel i then
            match inputs.handler channel i with
            | none => ⟨[], [], none⟩
            | some handler =>
                let handling :=
                  handler.handle thread channel channel i (iteration.reception channel i)
                if handling.result = some true then
                  let rest := scan poller iteration places
                  ⟨(channel, i) :: rest.handled, handling.log ++ rest.log, rest.result⟩
                else ⟨[(channel, i)], handling.log, handling.result⟩
          else ⟨[], [], some false⟩

def pollLoop (subChannels : List (String × Nat)) : Poller → List Iteration →
    List (PollOutcome × Scan)
  | _, [] => []
  | poller, iteration :: iterations =>
      if iteration.running ∧ iteration.proceed then
        match poller.poll iteration.outcome with
        | none => []
        | some poller =>
            let round := scan inputs thread poller iteration subChannels
            (iteration.outcome, round) ::
              if round.result = some true then pollLoop subChannels poller iterations else []
      else []

def pollForTransport (transport : Transport) (channelsMap : ChannelMap)
    (channelKeys : List String) (iterations : List Iteration) : List (PollOutcome × Scan) :=
  match createPoller transport channelsMap channelKeys with
  | none => []
  | some poller => pollLoop inputs thread (places channelsMap channelKeys) poller iterations

/-- The loop of `HandleMultipleChannelInput` has no flag but its own. -/
def Iteration.alone (iteration : Iteration) : Iteration :=
  { iteration with proceed := true, unstopped := fun _ _ => true }

def handleMultipleChannelInput (transport : Transport) (channelsMap : ChannelMap)
    (fInputChannelKeys : List String) (iterations : List Iteration) :
    List (PollOutcome × Scan) :=
  pollForTransport inputs 0 transport channelsMap fInputChannelKeys (iterations.map .alone)

end Loop

section Handled

variable {inputs : Inputs} {thread : Nat} {poller : Poller} {iteration : Iteration}

theorem scan_handled {subChannels : List (String × Nat)} {place : String × Nat}
    (called : place ∈ (scan inputs thread poller iteration subChannels).handled) :
    place ∈ subChannels ∧ poller.checkInput place.1 place.2 = some true := by
  induction subChannels with
  | nil => cases called
  | cons first subChannels ih =>
      obtain ⟨channel, i⟩ := first
      simp only [scan] at called
      split at called
      · cases called
      · obtain ⟨member, checked⟩ := ih called
        exact ⟨List.mem_cons_of_mem _ member, checked⟩
      · rename_i checked
        split at called
        · split at called
          · cases called
          · split at called
            · rcases List.mem_cons.mp called with rfl | later
              · exact ⟨List.mem_cons_self, checked⟩
              · obtain ⟨member, checked⟩ := ih later
                exact ⟨List.mem_cons_of_mem _ member, checked⟩
            · rw [List.mem_singleton.mp called]
              exact ⟨List.mem_cons_self, checked⟩
        · cases called

theorem scan_calls {subChannels : List (String × Nat)}
    (answers : ∀ place ∈ subChannels, ∃ ready, poller.checkInput place.1 place.2 = some ready)
    (unstopped : ∀ channel i, iteration.unstopped channel i = true)
    (handlers : ∀ place ∈ subChannels, (inputs.handler place.1 place.2).isSome)
    {place : String × Nat} (member : place ∈ subChannels)
    (checked : poller.checkInput place.1 place.2 = some true) :
    (scan inputs thread poller iteration subChannels).handled ≠ [] := by
  induction subChannels with
  | nil => cases member
  | cons first subChannels ih =>
      obtain ⟨channel, i⟩ := first
      obtain ⟨ready, answer⟩ := answers (channel, i) List.mem_cons_self
      obtain ⟨handler, isHandler⟩ :=
        Option.isSome_iff_exists.mp (handlers (channel, i) List.mem_cons_self)
      cases ready with
      | true =>
          simp only [scan, answer, unstopped, if_true, isHandler]
          split <;> exact List.cons_ne_nil _ _
      | false =>
          simp only [scan, answer]
          refine ih (fun other known => answers other (List.mem_cons_of_mem _ known))
            (fun other known => handlers other (List.mem_cons_of_mem _ known)) ?_
          rcases List.mem_cons.mp member with rfl | later
          · cases answer.symm.trans checked
          · exact later

end Handled

def PollOutcome.input (place : String × Nat) : PollOutcome → Bool
  | .reported ready => (ready (some place)).input
  | .term | .failed => false

/-- `CheckInput` is the same as a report of input: a poller of nanomsg must have asked for no
other event, and the other pollers must have the socket. -/
def InputOnly (transport : Transport) (subChannel : SubChannel) : Prop :=
  match transport with
  | .nn => subChannel.type = .pull ∨ subChannel.type = .sub ∨ subChannel.type = .xsub
  | _ => subChannel.transport ≠ .nn

instance (transport : Transport) (subChannel : SubChannel) :
    Decidable (InputOnly transport subChannel) :=
  match transport with
  | .nn => inferInstanceAs (Decidable (_ ∨ _ ∨ _))
  | .default | .zmq | .shm | .ofi => inferInstanceAs (Decidable (_ ≠ _))

section Items

variable {transport : Transport} {channel : String} {i : Nat} {subChannel : SubChannel}
  {item : Item}

theorem inputTest_of_ne {revents : Events} (other : transport ≠ .nn) :
    inputTest transport revents = revents.input := by
  cases transport with
  | nn => exact absurd rfl other
  | default | zmq | shm | ofi => rfl

theorem inputOnly_of_ne (other : transport ≠ .nn) :
    InputOnly transport subChannel ↔ subChannel.transport ≠ .nn := by
  cases transport with
  | nn => exact absurd rfl other
  | default | zmq | shm | ofi => rfl

theorem input_of_inputTest {ready : Option (String × Nat) → Events}
    (made : makeItem transport channel i subChannel = some item)
    (inputOnly : InputOnly transport subChannel)
    (tested : inputTest transport (item.events.restrict (ready item.watched)) = true) :
    (ready (some (channel, i))).input = true := by
  rcases makeItem_cases made with ⟨rfl, watched, events⟩ | ⟨other, watched, _⟩
  · have pollsInput : item.events = ⟨true, false⟩ := by
      rcases inputOnly with type | type | type <;>
        simpa [type, nnProtocol, nnItemEvents] using events.symm
    simpa [inputTest, Events.restrict, watched, pollsInput] using tested
  · have own := (inputOnly_of_ne other).mp inputOnly
    rw [inputTest_of_ne other, watched, zmqWatched, if_neg own] at tested
    exact (Bool.and_eq_true_iff.mp tested).2

/-- No socket has an input, but all may send, and there is something at the file descriptor
zero. -/
def noInput : Option (String × Nat) → Events
  | none => .both
  | some _ => ⟨false, true⟩

theorem inputTest_noInput (made : makeItem transport channel i subChannel = some item)
    (otherEvents : ¬ InputOnly transport subChannel) :
    inputTest transport (item.events.restrict (noInput item.watched)) = true := by
  rcases makeItem_cases made with ⟨rfl, watched, events⟩ | ⟨other, watched, both⟩
  · have output : item.events.output = true := by
      cases type : subChannel.type <;>
        simp [InputOnly, type, nnProtocol, nnItemEvents] at otherEvents events <;>
        simp [← events, Events.both]
    simp [inputTest, Events.restrict, noInput, watched, output]
  · rw [inputOnly_of_ne other, not_not] at otherEvents
    rw [inputTest_of_ne other, both otherEvents, watched, zmqWatched, if_pos otherEvents]
    rfl

end Items

section Law

variable {transport : Transport} {channelsMap : ChannelMap} {channelList : List String}
  {poller : Poller} {inputs : Inputs} {thread : Nat} {iterations : List Iteration}

theorem mem_places {place : String × Nat} :
    place ∈ places channelsMap channelList ↔
      place.1 ∈ channelList ∧ (channelsMap.at? place.1 place.2).isSome := by
  obtain ⟨channel, i⟩ := place
  simp only [places, List.mem_flatMap, List.mem_map, List.mem_range, Prod.mk.injEq,
    ChannelMap.at?_isSome]
  constructor
  · rintro ⟨_, member, _, bound, rfl, rfl⟩
    exact ⟨member, bound⟩
  · rintro ⟨member, bound⟩
    exact ⟨channel, member, i, bound, rfl, rfl⟩

theorem pollLoop_round {current : Poller} {round : PollOutcome × Scan}
    (reached : current = poller ∨
      ∃ earlier, poller.poll (.reported earlier) = some current)
    (reports : ∀ iteration ∈ iterations, iteration.outcome ≠ .term) {subChannels : List (String × Nat)}
    (member : round ∈ pollLoop inputs thread subChannels current iterations) :
    ∃ ready polled iteration, poller.poll (.reported ready) = some polled ∧
      round = (.reported ready, scan inputs thread polled iteration subChannels) := by
  induction iterations generalizing current with
  | nil => cases member
  | cons iteration iterations ih =>
      simp only [pollLoop] at member
      split at member
      · split at member
        · cases member
        · rename_i polled isPolled
          cases outcome : iteration.outcome with
          | term => exact absurd outcome (reports iteration List.mem_cons_self)
          | failed =>
              rw [outcome] at isPolled
              cases isPolled
          | reported ready =>
              rw [outcome] at isPolled member
              have fromStart : poller.poll (.reported ready) = some polled := by
                rcases reached with rfl | ⟨earlier, before⟩
                · exact isPolled
                · rw [← poll_reported_twice earlier before, isPolled]
              rcases List.mem_cons.mp member with rfl | later
              · exact ⟨ready, polled, iteration, fromStart, rfl⟩
              · split at later
                · exact ih (.inr ⟨ready, fromStart⟩)
                    (fun other known => reports other (List.mem_cons_of_mem _ known)) later
                · cases later
      · cases member

def OnInput (rounds : List (PollOutcome × Scan)) : Prop :=
  ∀ round ∈ rounds, ∀ place ∈ round.2.handled, round.1.input place = true

def InputsOnly (transport : Transport) (channelsMap : ChannelMap) (channelList : List String) :
    Prop :=
  ∀ channel ∈ channelList, ∀ i subChannel, channelsMap.at? channel i = some subChannel →
    InputOnly transport subChannel

theorem onInput_of_inputsOnly (inputsOnly : InputsOnly transport channelsMap channelList)
    (reports : ∀ iteration ∈ iterations, iteration.outcome ≠ .term) :
    OnInput (pollForTransport inputs thread transport channelsMap channelList iterations) := by
  unfold pollForTransport
  cases created : createPoller transport channelsMap channelList with
  | none => exact fun round member => by cases member
  | some poller =>
      intro round member place called
      obtain ⟨ready, polled, iteration, isPolled, rfl⟩ := pollLoop_round (.inl rfl) reports member
      obtain ⟨listed, checked⟩ := scan_handled called
      obtain ⟨isChannel, isSome⟩ := mem_places.mp listed
      obtain ⟨subChannel, found⟩ := Option.isSome_iff_exists.mp isSome
      obtain ⟨item, made, answer⟩ := checkInput_reported created isPolled isChannel found
      rw [checked, Option.some.injEq] at answer
      exact input_of_inputTest made (inputsOnly _ isChannel _ subChannel found) answer.symm

def outputRound : Iteration where
  running := true
  proceed := true
  outcome := .reported noInput
  unstopped _ _ := true
  reception _ _ := .failed

theorem inputsOnly_of_onInput
    (created : createPoller transport channelsMap channelList = some poller)
    (handlers : ∀ place ∈ places channelsMap channelList, (inputs.handler place.1 place.2).isSome)
    (law : OnInput
      (pollForTransport inputs thread transport channelsMap channelList [outputRound])) :
    InputsOnly transport channelsMap channelList := by
  intro channel member i subChannel found
  by_contra otherEvents
  obtain ⟨polled, isPolled⟩ : ∃ polled, poller.poll (.reported noInput) = some polled := ⟨_, rfl⟩
  have answers : ∀ place ∈ places channelsMap channelList,
      ∃ ready, polled.checkInput place.1 place.2 = some ready := by
    intro place listed
    obtain ⟨isChannel, isSome⟩ := mem_places.mp listed
    obtain ⟨subChannel, found⟩ := Option.isSome_iff_exists.mp isSome
    obtain ⟨item, _, answer⟩ := checkInput_reported created isPolled isChannel found
    exact ⟨_, answer⟩
  obtain ⟨item, made, answer⟩ := checkInput_reported created isPolled member found
  rw [inputTest_noInput made otherEvents] at answer
  have listed : (channel, i) ∈ places channelsMap channelList :=
    mem_places.mpr ⟨member, Option.isSome_of_eq_some found⟩
  have called : (scan inputs thread polled outputRound _).handled ≠ [] :=
    scan_calls answers (fun _ _ => rfl) handlers listed answer
  obtain ⟨place, isCalled⟩ := List.exists_mem_of_ne_nil _ called
  have onInput := law (.reported noInput, scan inputs thread polled outputRound _)
    (by simp [pollForTransport, created, pollLoop, outputRound, isPolled]) place isCalled
  cases onInput

end Law

def ChannelMap.layout (channelsMap : ChannelMap) (fMultipart : String → Nat → Bool) : Layout :=
  fun channel => (channelsMap channel).map (List.mapIdx fun i _ => fMultipart channel i)

theorem Registry.layout_handlers {α β : Type} {registry : Registry α β} {channelsMap : ChannelMap}
    (there : ∀ key ∈ registry.fInputChannelKeys, (channelsMap key).isSome)
    (fMultipart : String → Nat → Bool) :
    ∃ prepared, registry.prepare (channelsMap.layout fMultipart) = some prepared ∧
      ∀ channel ∈ registry.fInputChannelKeys, ∀ i < channelsMap.size channel,
        (registry.inputs prepared).handler channel i =
          some (if channel ∈ registry.fMultipartInputs.keys then .handleMultipartInput
            else .handleMsgInput) := by
  have thereLayout : ∀ key ∈ registry.fInputChannelKeys,
      (channelsMap.layout fMultipart key).isSome := by
    intro key member
    rw [ChannelMap.layout, Option.isSome_map]
    exact there key member
  obtain ⟨prepared, isPrepared, handlers⟩ := registry.prepare_handlers thereLayout
  refine ⟨prepared, isPrepared, ?_⟩
  intro channel isKey i bound
  obtain ⟨subChannels, found⟩ := Option.isSome_iff_exists.mp (there channel isKey)
  have isLayout : channelsMap.layout fMultipart channel =
      some (subChannels.mapIdx fun i _ => fMultipart channel i) := by
    rw [ChannelMap.layout, found, Option.map_some]
  rw [ChannelMap.size_eq found] at bound
  apply handlers channel isKey _ isLayout
  rwa [List.length_mapIdx]

/-- Apart from `ETERM`, the handlers of any input channels run on reported inputs only exactly
if no sub-channel in a poller of nanomsg can send, and none in another poller is of nanomsg. -/
theorem handlers_run_on_input_iff {α β : Type} (registry : Registry α β)
    (channelsMap : ChannelMap) (fMultipart : String → Nat → Bool)
    (there : ∀ key ∈ registry.fInputChannelKeys, (channelsMap key).isSome)
    {channelList : List String}
    (listed : ∀ channel ∈ channelList, channel ∈ registry.fInputChannelKeys)
    {transport : Transport} {poller : Poller}
    (created : createPoller transport channelsMap channelList = some poller) :
    ∃ prepared, registry.prepare (channelsMap.layout fMultipart) = some prepared ∧
      ((∀ iterations : List Iteration,
          (∀ iteration ∈ iterations, iteration.outcome ≠ .term) →
          OnInput (handleMultipleChannelInput (registry.inputs prepared) transport channelsMap
            channelList iterations)) ↔ InputsOnly transport channelsMap channelList) ∧
      ∀ thread, (∀ iterations : List Iteration,
          (∀ iteration ∈ iterations, iteration.outcome ≠ .term) →
          OnInput (pollForTransport (registry.inputs prepared) thread transport channelsMap
            channelList iterations)) ↔ InputsOnly transport channelsMap channelList := by
  obtain ⟨prepared, isPrepared, each⟩ := registry.layout_handlers there fMultipart
  have handlers : ∀ place ∈ places channelsMap channelList,
      ((registry.inputs prepared).handler place.1 place.2).isSome := by
    intro place member
    obtain ⟨isChannel, isSome⟩ := mem_places.mp member
    rw [each place.1 (listed place.1 isChannel) place.2 (ChannelMap.at?_isSome.mp isSome)]
    rfl
  have reports : ∀ iteration ∈ [outputRound], iteration.outcome ≠ .term := by
    intro iteration member
    cases List.mem_singleton.mp member
    exact PollOutcome.noConfusion
  refine ⟨prepared, isPrepared, ⟨?_, ?_⟩, fun thread => ⟨?_, ?_⟩⟩
  · intro law
    exact inputsOnly_of_onInput created handlers (law [outputRound] reports)
  · intro inputsOnly iterations reports
    apply onInput_of_inputsOnly inputsOnly
    intro iteration member
    obtain ⟨round, known, rfl⟩ := List.mem_map.mp member
    exact reports round known
  · intro law
    exact inputsOnly_of_onInput created handlers (law [outputRound] reports)
  · intro inputsOnly iterations reports
    exact onInput_of_inputsOnly inputsOnly reports

def registryC : Registry Nat Nat :=
  .ofHistory [⟨"c", .msg 0⟩]

theorem pull_handled_on_input :
    ∃ prepared, registryC.prepare (ChannelMap.layout (fun _ => some [⟨.zmq, .pull⟩])
        fun _ _ => false) = some prepared ∧
      ∀ iterations : List Iteration, (∀ iteration ∈ iterations, iteration.outcome ≠ .term) →
        OnInput (handleMultipleChannelInput (registryC.inputs prepared) .zmq
          (fun _ => some [⟨.zmq, .pull⟩]) ["c"] iterations) := by
  obtain ⟨poller, created⟩ : ∃ poller,
      createPoller .zmq (fun _ => some [⟨.zmq, .pull⟩]) ["c"] = some poller := ⟨_, rfl⟩
  obtain ⟨prepared, isPrepared, law, _⟩ := handlers_run_on_input_iff registryC
    (fun _ => some [⟨.zmq, .pull⟩]) (fun _ _ => false) (fun _ _ => rfl) (by decide) created
  refine ⟨prepared, isPrepared, law.mpr ?_⟩
  intro channel _ i subChannel found
  cases i with
  | zero =>
      cases found
      decide
  | succ i => simp [ChannelMap.at?] at found

/-- A nanomsg pair that may send but has no input: its handler runs, and its `Receive` blocks.  With
zeromq a handler runs again after `ETERM`. -/
theorem handler_without_input :
    ((handleMultipleChannelInput ⟨fun _ => some [false], fun _ => true, fun _ => false⟩ .nn
        (fun _ => some [⟨.nn, .pair⟩]) ["c"]
        [⟨true, true, .reported fun _ => ⟨false, true⟩, fun _ _ => true, fun _ _ => .failed⟩]).map
          fun round => (round.1.input ("c", 0), round.2.handled)) = [(false, [("c", 0)])] ∧
      ((handleMultipleChannelInput ⟨fun _ => some [false], fun _ => true, fun _ => false⟩ .zmq
        (fun _ => some [⟨.zmq, .pull⟩]) ["c"]
        [⟨true, true, .reported fun _ => ⟨true, false⟩, fun _ _ => true,
            fun _ _ => .data (some true)⟩,
          ⟨true, true, .term, fun _ _ => true, fun _ _ => .failed⟩]).map
          fun round => (round.1.input ("c", 0), round.2.handled)) =
        [(true, [("c", 0)]), (false, [("c", 0)])] := by
  decide

end FairMQ.Device
