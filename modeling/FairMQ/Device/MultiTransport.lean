import FairMQ.Data.Mutex
import FairMQ.Data.TransitionSystem

namespace FairMQ.Device

open FairMQ.Data

/-! # Input over several transports

`HandleMultipleTransportInput` starts one thread for every transport.  A thread polls
its channels; a ready input is handled under `fMultitransportMutex`, and what the
handler returns is stored in the atomic flag `fMultitransportProceed`, which is read
both under the mutex and without it. -/

inductive Handler where
  | handleMsgInput
  | handleMultipartInput
deriving DecidableEq, Repr

def Handler.index : Handler → Nat → Nat
  | .handleMsgInput, i => i
  | .handleMultipartInput, _ => 0

/-- The sub-channels of every channel with their `fMultipart`, and the channels for
which a callback is registered. -/
structure Inputs where
  fChannels : String → Option (List Bool)
  fMsgInputs : String → Bool
  fMultipartInputs : String → Bool

/-- The handler of a sub-channel; `none` if one of the lookups with `at` throws. -/
def Inputs.handler (inputs : Inputs) (channel : String) (i : Nat) : Option Handler :=
  match (inputs.fChannels channel).bind (·[i]?) with
  | some true => if inputs.fMultipartInputs channel then some .handleMultipartInput else none
  | some false => if inputs.fMsgInputs channel then some .handleMsgInput else none
  | none => none

inductive Place where
  | createPoller
  | checkCurrentState
  | checkProceed
  | poll
  | channel (ch : Nat)
  | subChannel (ch i : Nat)
  | checkInput (ch i : Nat)
  | lock (ch i : Nat)
  | locked (ch i : Nat)
  | receive (ch i : Nat) (handler : Handler)
  | invoke (ch i : Nat) (handler : Handler)
  | callback (ch i : Nat)
  | assign (ch i : Nat) (result : Bool)
  | recheck (ch i : Nat)
  | unlock (ch : Nat) (next : Option Nat)
  | outerCheck (ch : Nat)
  | caught
  | returned
deriving DecidableEq, Repr

namespace Place

def inside : Place → Bool
  | locked .. | receive .. | invoke .. | callback .. | assign .. | recheck .. | unlock .. => true
  | _ => false

def handling : Place → Bool
  | receive .. | invoke .. | callback .. | assign .. => true
  | _ => false

def stopping : Place → Bool
  | assign _ _ false => true
  | _ => false

def owes : Place → Bool
  | invoke .. => true
  | _ => false

/-- The places with calls that may throw: the poller, the transport and the callback. -/
def mayThrow : Place → Bool
  | createPoller | poll | checkInput .. | receive .. | callback .. => true
  | _ => false

theorem inside_of_handling {place : Place} (handling : place.handling = true) :
    place.inside = true := by
  cases place <;> first | rfl | cases handling

theorem handling_of_stopping {place : Place} (stopping : place.stopping = true) :
    place.handling = true := by
  cases place <;> first | rfl | cases stopping

theorem not_handling_of_outside {place : Place} (outside : place.inside = false) :
    place.handling = false := by
  by_contra handling
  rw [inside_of_handling (Bool.not_eq_false _ ▸ handling)] at outside
  cases outside

theorem not_stopping_of_idle {place : Place} (idle : place.handling = false) :
    place.stopping = false := by
  by_contra stopping
  rw [handling_of_stopping (Bool.not_eq_false _ ▸ stopping)] at idle
  cases idle

theorem unfinished_of_mayThrow {place : Place} (mayThrow : place.mayThrow = true) :
    place.stopping = false ∧ place.owes = false := by
  cases place <;> first | exact ⟨rfl, rfl⟩ | cases mayThrow

end Place

structure PollThread where
  channelKeys : List String
  place : Place
deriving DecidableEq, Repr

def PollThread.key (thread : PollThread) (ch : Nat) : String :=
  thread.channelKeys[ch]?.getD ""

inductive InputEvent where
  | received (thread : Nat) (channel : String) (i : Nat)
  | invoked (thread : Nat) (channel : String) (index : Nat)
  | returned (thread : Nat) (result : Bool)
deriving DecidableEq, Repr

namespace InputEvent

def input : InputEvent → Bool
  | received .. | invoked .. => true
  | returned .. => false

def stops : InputEvent → Bool
  | returned _ false => true
  | _ => false

end InputEvent

/-- The threads of one RUNNING phase; the log is history. -/
structure MultiTransport where
  running : Bool
  fMultitransportProceed : Bool
  fMultitransportMutex : Option Nat
  threads : List PollThread
  log : List InputEvent
deriving DecidableEq, Repr

/-- The actions beside `advance` resolve what a call of the poller, of the transport or
of the callback does. -/
inductive PollAction where
  | start (channelKeys : List String)
  | leaveRunning
  | advance (thread : Nat)
  | checkInput (thread : Nat) (ready : Bool)
  | receive (thread : Nat) (size : Int)
  | callbackReturns (thread : Nat) (result : Bool)
  | throws (thread : Nat)
deriving DecidableEq, Repr

namespace MultiTransport

variable (inputs : Inputs) (state : MultiTransport) (t : Nat) (thread : PollThread)

def move (place : Place) (event : Option InputEvent) : MultiTransport :=
  { state with
    threads := state.threads.set t { thread with place }
    log := state.log ++ event.toList }

def unwind : MultiTransport :=
  let mutex := if thread.place.inside then none else state.fMultitransportMutex
  { state.move t thread .caught none with fMultitransportMutex := mutex }

def advance : Option MultiTransport :=
  match thread.place with
  | .createPoller => some (state.move t thread .checkCurrentState none)
  | .checkCurrentState =>
      some (state.move t thread (if state.running then .checkProceed else .returned) none)
  | .checkProceed =>
      some (state.move t thread (if state.fMultitransportProceed then .poll else .returned) none)
  | .poll => some (state.move t thread (.channel 0) none)
  | .channel ch =>
      some (state.move t thread
        (if ch < thread.channelKeys.length then .subChannel ch 0 else .checkCurrentState) none)
  | .subChannel ch i =>
      match inputs.fChannels (thread.key ch) with
      | some subChannels =>
          some (state.move t thread
            (if i < subChannels.length then .checkInput ch i else .outerCheck ch) none)
      | none => some (state.unwind t thread)
  | .lock ch i =>
      if state.fMultitransportMutex = none then
        some { state.move t thread (.locked ch i) none with fMultitransportMutex := some t }
      else none
  | .locked ch i =>
      if state.fMultitransportProceed then
        match inputs.handler (thread.key ch) i with
        | some handler => some (state.move t thread (.receive ch i handler) none)
        | none => some (state.unwind t thread)
      else some (state.move t thread (.unlock ch none) none)
  | .invoke ch i handler =>
      some (state.move t thread (.callback ch i)
        (some (.invoked t (thread.key ch) (handler.index i))))
  | .assign ch i result =>
      some { state.move t thread (.recheck ch i) none with fMultitransportProceed := result }
  | .recheck ch i =>
      some (state.move t thread
        (.unlock ch (if state.fMultitransportProceed then some (i + 1) else none)) none)
  | .unlock ch next =>
      some { state.move t thread (next.elim (.outerCheck ch) (.subChannel ch)) none with
        fMultitransportMutex := none }
  | .outerCheck ch =>
      some (state.move t thread
        (if state.fMultitransportProceed then .channel (ch + 1) else .checkCurrentState) none)
  | .caught => some { state.move t thread .returned none with running := false }
  | .checkInput .. | .receive .. | .callback .. | .returned => none

def checkInput (ready : Bool) : Option MultiTransport :=
  match thread.place with
  | .checkInput ch i =>
      some (state.move t thread (if ready then .lock ch i else .subChannel ch (i + 1)) none)
  | _ => none

def receive (size : Int) : Option MultiTransport :=
  match thread.place with
  | .receive ch i handler =>
      if 0 ≤ size then
        some (state.move t thread (.invoke ch i handler) (some (.received t (thread.key ch) i)))
      else some (state.move t thread (.assign ch i false) (some (.returned t false)))
  | _ => none

def callbackReturns (result : Bool) : Option MultiTransport :=
  match thread.place with
  | .callback ch i => some (state.move t thread (.assign ch i result) (some (.returned t result)))
  | _ => none

def throws : Option MultiTransport :=
  if thread.place.mayThrow then some (state.unwind t thread) else none

def step : PollAction → Option MultiTransport
  | .start channelKeys =>
      some { state with threads := state.threads ++ [⟨channelKeys, .createPoller⟩] }
  | .leaveRunning => some { state with running := false }
  | .advance t => state.threads[t]?.bind fun thread => state.advance inputs t thread
  | .checkInput t ready => state.threads[t]?.bind fun thread => state.checkInput t thread ready
  | .receive t size => state.threads[t]?.bind fun thread => state.receive t thread size
  | .callbackReturns t result =>
      state.threads[t]?.bind fun thread => state.callbackReturns t thread result
  | .throws t => state.threads[t]?.bind fun thread => state.throws t thread

def start : MultiTransport := ⟨true, true, none, [], []⟩

def Executing : Prop :=
  ∃ thread ch i, state.threads[t]? = some thread ∧ thread.place = .callback ch i

end MultiTransport

def pollSystem (inputs : Inputs) : TransitionSystem MultiTransport PollAction where
  initial state := state = .start
  step state action := state.step inputs action

inductive PollEffect (inputs : Inputs) (state : MultiTransport) : MultiTransport → Prop where
  | started (channelKeys : List String) :
      PollEffect inputs state
        { state with threads := state.threads ++ [⟨channelKeys, .createPoller⟩] }
  | left : PollEffect inputs state { state with running := false }
  | passed {t : Nat} {thread : PollThread} {place : Place}
      (found : state.threads[t]? = some thread) (side : place.inside = thread.place.inside)
      (before : thread.place.handling = false) (next : place.handling = false) :
      PollEffect inputs state (state.move t thread place none)
  | unwound {t : Nat} {thread : PollThread} (found : state.threads[t]? = some thread)
      (open_ : thread.place.stopping = false) (owesNone : thread.place.owes = false) :
      PollEffect inputs state (state.unwind t thread)
  | finished {t : Nat} {thread : PollThread} (found : state.threads[t]? = some thread)
      (isPlace : thread.place = .caught) :
      PollEffect inputs state { state.move t thread .returned none with running := false }
  | acquired {t : Nat} {thread : PollThread} {ch i : Nat}
      (found : state.threads[t]? = some thread) (isPlace : thread.place = .lock ch i)
      (free : state.fMultitransportMutex = none) :
      PollEffect inputs state
        { state.move t thread (.locked ch i) none with fMultitransportMutex := some t }
  | chosen {t : Nat} {thread : PollThread} {ch i : Nat} {handler : Handler}
      (found : state.threads[t]? = some thread) (isPlace : thread.place = .locked ch i)
      (proceed : state.fMultitransportProceed = true)
      (isHandler : inputs.handler (thread.key ch) i = some handler) :
      PollEffect inputs state (state.move t thread (.receive ch i handler) none)
  | received {t : Nat} {thread : PollThread} {ch i : Nat} {handler : Handler}
      (found : state.threads[t]? = some thread) (isPlace : thread.place = .receive ch i handler) :
      PollEffect inputs state
        (state.move t thread (.invoke ch i handler) (some (.received t (thread.key ch) i)))
  | notReceived {t : Nat} {thread : PollThread} {ch i : Nat} {handler : Handler}
      (found : state.threads[t]? = some thread) (isPlace : thread.place = .receive ch i handler) :
      PollEffect inputs state
        (state.move t thread (.assign ch i false) (some (.returned t false)))
  | invoked {t : Nat} {thread : PollThread} {ch i : Nat} {handler : Handler}
      (found : state.threads[t]? = some thread) (isPlace : thread.place = .invoke ch i handler) :
      PollEffect inputs state (state.move t thread (.callback ch i)
        (some (.invoked t (thread.key ch) (handler.index i))))
  | returned {t : Nat} {thread : PollThread} {ch i : Nat} (result : Bool)
      (found : state.threads[t]? = some thread) (isPlace : thread.place = .callback ch i) :
      PollEffect inputs state
        (state.move t thread (.assign ch i result) (some (.returned t result)))
  | assigned {t : Nat} {thread : PollThread} {ch i : Nat} {result : Bool}
      (found : state.threads[t]? = some thread) (isPlace : thread.place = .assign ch i result) :
      PollEffect inputs state
        { state.move t thread (.recheck ch i) none with fMultitransportProceed := result }
  | released {t : Nat} {thread : PollThread} {ch : Nat} {next : Option Nat}
      (found : state.threads[t]? = some thread) (isPlace : thread.place = .unlock ch next) :
      PollEffect inputs state
        { state.move t thread (next.elim (.outerCheck ch) (.subChannel ch)) none with
          fMultitransportMutex := none }

section Effects

variable {inputs : Inputs} {state after : MultiTransport} {t : Nat} {thread : PollThread}

theorem advance_effect (found : state.threads[t]? = some thread)
    (stepped : state.advance inputs t thread = some after) : PollEffect inputs state after := by
  obtain ⟨channelKeys, place⟩ := thread
  cases place with
  | createPoller | poll | recheck ch i =>
      cases stepped
      exact .passed found rfl rfl rfl
  | checkCurrentState | checkProceed | channel ch | outerCheck ch =>
      cases stepped
      exact .passed found (by split <;> rfl) rfl (by split <;> rfl)
  | subChannel ch i =>
      simp only [MultiTransport.advance] at stepped
      split at stepped
      · cases stepped
        exact .passed found (by split <;> rfl) rfl (by split <;> rfl)
      · cases stepped
        exact .unwound found rfl rfl
  | lock ch i =>
      simp only [MultiTransport.advance] at stepped
      split at stepped
      · rename_i free
        cases stepped
        exact .acquired found rfl free
      · contradiction
  | locked ch i =>
      simp only [MultiTransport.advance] at stepped
      split at stepped
      · rename_i proceed
        split at stepped
        · rename_i isHandler
          cases stepped
          exact .chosen found rfl proceed isHandler
        · cases stepped
          exact .unwound found rfl rfl
      · cases stepped
        exact .passed found rfl rfl rfl
  | invoke ch i handler =>
      cases stepped
      exact .invoked found rfl
  | assign ch i result =>
      cases stepped
      exact .assigned found rfl
  | unlock ch next =>
      cases stepped
      exact .released found rfl
  | caught =>
      cases stepped
      exact .finished found rfl
  | checkInput ch i | receive ch i handler | callback ch i | returned => cases stepped

theorem step_effect {action : PollAction} (stepped : state.step inputs action = some after) :
    PollEffect inputs state after := by
  cases action with
  | start channelKeys =>
      cases stepped
      exact .started channelKeys
  | leaveRunning =>
      cases stepped
      exact .left
  | advance t =>
      obtain ⟨thread, found, stepped⟩ := Option.bind_eq_some_iff.mp stepped
      exact advance_effect found stepped
  | checkInput t ready =>
      obtain ⟨thread, found, stepped⟩ := Option.bind_eq_some_iff.mp stepped
      simp only [MultiTransport.checkInput] at stepped
      split at stepped
      · rename_i isPlace
        cases stepped
        exact .passed found (by rw [isPlace]; split <;> rfl) (by rw [isPlace]; rfl)
          (by split <;> rfl)
      · contradiction
  | receive t size =>
      obtain ⟨thread, found, stepped⟩ := Option.bind_eq_some_iff.mp stepped
      simp only [MultiTransport.receive] at stepped
      split at stepped
      · rename_i isPlace
        split at stepped
        · cases stepped
          exact .received found isPlace
        · cases stepped
          exact .notReceived found isPlace
      · contradiction
  | callbackReturns t result =>
      obtain ⟨thread, found, stepped⟩ := Option.bind_eq_some_iff.mp stepped
      simp only [MultiTransport.callbackReturns] at stepped
      split at stepped
      · rename_i isPlace
        cases stepped
        exact .returned result found isPlace
      · contradiction
  | throws t =>
      obtain ⟨thread, found, stepped⟩ := Option.bind_eq_some_iff.mp stepped
      simp only [MultiTransport.throws] at stepped
      split at stepped
      · rename_i mayThrow
        cases stepped
        obtain ⟨open_, owesNone⟩ := Place.unfinished_of_mayThrow mayThrow
        exact .unwound found open_ owesNone
      · contradiction

end Effects

structure Orderly (state : MultiTransport) : Prop where
  guarded : Guarded (fun thread : PollThread => thread.place.inside) state.threads
    state.fMultitransportMutex
  proceeding : ∀ (t : Nat) (thread : PollThread), state.threads[t]? = some thread →
    thread.place.handling = true → state.fMultitransportProceed = true
  stopped : ∀ event ∈ state.log, event.stops = true → state.fMultitransportProceed = false ∨
    ∃ (t : Nat) (thread : PollThread), state.threads[t]? = some thread ∧
      thread.place.stopping = true
  quiet : state.log.Pairwise fun earlier later => earlier.stops = true → later.input = false

theorem orderly_start : Orderly .start where
  guarded := .start
  proceeding t thread found := by simp [MultiTransport.start] at found
  stopped event member := by simp [MultiTransport.start] at member
  quiet := .nil

namespace Orderly

variable {inputs : Inputs} {state after : MultiTransport} {t : Nat} {thread : PollThread}

theorem not_stopped (orderly : Orderly state) (found : state.threads[t]? = some thread)
    (handling : thread.place.handling = true) (open_ : thread.place.stopping = false) :
    ∀ event ∈ state.log, event.stops = false := by
  intro event member
  by_contra stops
  rw [Bool.not_eq_false] at stops
  rcases orderly.stopped event member stops with cleared | ⟨other, thread', found', stopping⟩
  · rw [orderly.proceeding t thread found handling] at cleared
    cases cleared
  · have handling' := Place.handling_of_stopping stopping
    have same := orderly.guarded.unique found (Place.inside_of_handling handling) found'
      (Place.inside_of_handling handling')
    subst same
    cases found.symm.trans found'
    rw [open_] at stopping
    cases stopping

theorem moved (orderly : Orderly state) (found : state.threads[t]? = some thread)
    {place : Place} {event : Option InputEvent} {mutex : Option Nat}
    (guarded : Guarded (fun thread : PollThread => thread.place.inside)
      (state.threads.set t { thread with place }) mutex)
    (proceeding : place.handling = true → state.fMultitransportProceed = true)
    (open_ : thread.place.stopping = false)
    (stops : ∀ new, event = some new → new.stops = true → place.stopping = true)
    (quiet : ∀ new, event = some new → new.input = true → thread.place.handling = true) :
    Orderly { state.move t thread place event with fMultitransportMutex := mutex } where
  guarded := guarded
  proceeding := by
    intro other thread' found' handling
    by_cases here : t = other
    · subst here
      cases (List.getElem?_set_self (List.getElem?_eq_some_iff.mp found).1).symm.trans found'
      exact proceeding handling
    · have old := (List.getElem?_set_ne here).symm.trans found'
      exact orderly.proceeding other thread' old handling
  stopped := by
    have bound := (List.getElem?_eq_some_iff.mp found).1
    intro known member isStop
    rcases List.mem_append.mp member with old | new
    · apply (orderly.stopped known old isStop).imp_right
      rintro ⟨other, thread', found', stopping⟩
      have apart : t ≠ other := by
        rintro rfl
        cases found.symm.trans found'
        rw [open_] at stopping
        cases stopping
      exact ⟨other, thread', (List.getElem?_set_ne apart).trans found', stopping⟩
    · right
      exact ⟨t, _, List.getElem?_set_self bound, stops known (Option.mem_toList.mp new) isStop⟩
  quiet := by
    apply List.pairwise_append.mpr
    refine ⟨orderly.quiet, ?_, ?_⟩
    · cases event <;> simp
    · intro earlier member new isNew isStop
      by_contra isInput
      rw [Bool.not_eq_false] at isInput
      have handling := quiet new (Option.mem_toList.mp isNew) isInput
      have none := orderly.not_stopped found handling open_ earlier member
      rw [none] at isStop
      cases isStop

theorem pass (orderly : Orderly state) (found : state.threads[t]? = some thread) {place : Place}
    (side : place.inside = thread.place.inside) (handling : place.handling = false)
    (open_ : thread.place.stopping = false) : Orderly (state.move t thread place none) := by
  apply orderly.moved found (orderly.guarded.set found side) _ open_ (by simp) (by simp)
  simp [handling]

theorem handle (orderly : Orderly state) (found : state.threads[t]? = some thread)
    {place : Place} {event : Option InputEvent} (handling : thread.place.handling = true)
    (held : place.inside = true) (open_ : thread.place.stopping = false)
    (stops : ∀ new, event = some new → new.stops = true → place.stopping = true) :
    Orderly (state.move t thread place event) := by
  have side := held.trans (Place.inside_of_handling handling).symm
  have proceed := orderly.proceeding t thread found handling
  exact orderly.moved found (orderly.guarded.set found side) (fun _ => proceed) open_ stops
    (fun _ _ _ => handling)

theorem start (orderly : Orderly state) (channelKeys : List String) :
    Orderly { state with threads := state.threads ++ [⟨channelKeys, .createPoller⟩] } where
  guarded := orderly.guarded.append rfl
  proceeding := by
    intro t thread found handling
    rw [List.getElem?_append] at found
    split at found
    · exact orderly.proceeding t thread found handling
    · rw [List.mem_singleton.mp (List.mem_of_getElem? found)] at handling
      cases handling
  stopped := by
    intro event member isStop
    apply (orderly.stopped event member isStop).imp_right
    rintro ⟨t, thread, found, stopping⟩
    have bound := (List.getElem?_eq_some_iff.mp found).1
    exact ⟨t, thread, (List.getElem?_append_left bound).trans found, stopping⟩
  quiet := orderly.quiet

theorem leaveRunning (orderly : Orderly state) : Orderly { state with running := false } :=
  ⟨orderly.guarded, orderly.proceeding, orderly.stopped, orderly.quiet⟩

theorem unwind (orderly : Orderly state) (found : state.threads[t]? = some thread)
    (open_ : thread.place.stopping = false) : Orderly (state.unwind t thread) := by
  apply orderly.moved found _ (by simp [Place.handling]) open_ (by simp) (by simp)
  cases side : thread.place.inside with
  | true => exact orderly.guarded.release found side rfl
  | false => exact orderly.guarded.set found side.symm

theorem assign (orderly : Orderly state) (found : state.threads[t]? = some thread)
    {ch i : Nat} {result : Bool} (isPlace : thread.place = .assign ch i result) :
    Orderly { state.move t thread (.recheck ch i) none with
      fMultitransportProceed := result } := by
  have handling : thread.place.handling = true := by rw [isPlace]; rfl
  have held := Place.inside_of_handling handling
  have bound := (List.getElem?_eq_some_iff.mp found).1
  refine ⟨orderly.guarded.set found held.symm, ?_, ?_, ?_⟩
  · intro other thread' found' handling'
    have apart : t ≠ other := by
      rintro rfl
      cases (List.getElem?_set_self bound).symm.trans found'
      cases handling'
    have old := (List.getElem?_set_ne apart).symm.trans found'
    exact absurd (orderly.guarded.unique found held old (Place.inside_of_handling handling')) apart
  · intro event member isStop
    left
    simp only [MultiTransport.move, Option.toList_none, List.append_nil] at member
    by_contra kept
    have open_ : thread.place.stopping = false := by
      simp only [Bool.not_eq_false] at kept
      rw [isPlace, kept]
      rfl
    rw [orderly.not_stopped found handling open_ event member] at isStop
    cases isStop
  · simpa [MultiTransport.move] using orderly.quiet

theorem release (orderly : Orderly state) (found : state.threads[t]? = some thread)
    {place : Place} (held : thread.place.inside = true) (outside : place.inside = false)
    (open_ : thread.place.stopping = false) :
    Orderly { state.move t thread place none with fMultitransportMutex := none } := by
  have idle := Place.not_handling_of_outside outside
  exact orderly.moved found (orderly.guarded.release found held outside) (by simp [idle]) open_
    (by simp) (by simp)

theorem step (orderly : Orderly state) (effect : PollEffect inputs state after) :
    Orderly after := by
  cases effect with
  | started channelKeys => exact orderly.start channelKeys
  | left => exact orderly.leaveRunning
  | passed found side before next =>
      exact orderly.pass found side next (Place.not_stopping_of_idle before)
  | unwound found open_ _ => exact orderly.unwind found open_
  | finished found isPlace =>
      exact (orderly.pass found (by rw [isPlace]; rfl) rfl (by rw [isPlace]; rfl)).leaveRunning
  | acquired found isPlace free =>
      have guarded := orderly.guarded
      rw [free] at guarded
      exact orderly.moved found (guarded.acquire found rfl) (by simp [Place.handling])
        (by rw [isPlace]; rfl) (by simp) (by simp)
  | chosen found isPlace proceed _ =>
      apply orderly.moved found (orderly.guarded.set found _) (fun _ => proceed)
        (by rw [isPlace]; rfl) (by simp) (by simp)
      rw [isPlace]
      rfl
  | received found isPlace | invoked found isPlace =>
      exact orderly.handle found (by rw [isPlace]; rfl) rfl (by rw [isPlace]; rfl)
        (by simp [InputEvent.stops])
  | notReceived found isPlace =>
      exact orderly.handle found (by rw [isPlace]; rfl) rfl (by rw [isPlace]; rfl)
        (fun _ _ _ => rfl)
  | @returned t thread ch i result found isPlace =>
      apply orderly.handle found (by rw [isPlace]; rfl) rfl (by rw [isPlace]; rfl)
      intro new isNew isStop
      cases isNew
      cases result with
      | true => cases isStop
      | false => rfl
  | assigned found isPlace => exact orderly.assign found isPlace
  | @released t thread ch next found isPlace =>
      apply orderly.release found (by rw [isPlace]; rfl) _ (by rw [isPlace]; rfl)
      cases next <;> rfl

end Orderly

theorem orderly_of_reaches {inputs : Inputs} {state : MultiTransport}
    (reached : (pollSystem inputs).Reaches state) : Orderly state := by
  induction reached with
  | initial start =>
      cases start
      exact orderly_start
  | step _ _ stepped ih => exact ih.step (step_effect stepped)

/-- At most one data callback executes at a time, and after a handler has returned false
no message is received and no callback invoked. -/
theorem multitransport_input_orderly (inputs : Inputs) {state : MultiTransport}
    (reached : (pollSystem inputs).Reaches state) :
    (∀ first second, state.Executing first → state.Executing second → first = second) ∧
    ∀ earlier thread later, state.log = earlier ++ .returned thread false :: later →
      ∀ event ∈ later, event.input = false := by
  have orderly := orderly_of_reaches reached
  constructor
  · rintro first second ⟨thread, ch, i, found, isPlace⟩ ⟨thread', ch', i', found', isPlace'⟩
    exact orderly.guarded.unique found (by rw [isPlace]; rfl) found' (by rw [isPlace']; rfl)
  · intro earlier thread later isLog event member
    have quiet := orderly.quiet
    rw [isLog] at quiet
    exact (List.pairwise_cons.mp (List.pairwise_append.mp quiet).2.1).1 event member rfl

/-- Two transports: the second thread has an input ready when the callback of the first
returns false. -/
theorem second_transport_stops :
    ∃ state : MultiTransport,
      (pollSystem ⟨fun _ => some [false], fun _ => true, fun _ => false⟩).Reaches state ∧
        state.log = [.received 0 "a" 0, .invoked 0 "a" 0, .returned 0 false] ∧
        (∀ first second, state.Executing first → state.Executing second → first = second) ∧
        state.threads.map (·.place) = [.returned, .returned] := by
  obtain ⟨state, reached, isLog, places⟩ :
      ∃ state, (pollSystem ⟨fun _ => some [false], fun _ => true, fun _ => false⟩).ReachesUnder
        (fun _ _ => True) state ∧
        (state.log = [.received 0 "a" 0, .invoked 0 "a" 0, .returned 0 false] ∧
          state.threads.map (·.place) = [.returned, .returned]) :=
    TransitionSystem.reaches_of_runUnder MultiTransport.start
      [.start ["a"], .start ["b"],
        .advance 0, .advance 0, .advance 0, .advance 0, .advance 0, .advance 0, .checkInput 0 true,
        .advance 1, .advance 1, .advance 1, .advance 1, .advance 1, .advance 1, .checkInput 1 true,
        .advance 0, .advance 0, .receive 0 7, .advance 0, .callbackReturns 0 false,
        .advance 0, .advance 0, .advance 0, .advance 1, .advance 1, .advance 1, .advance 1,
        .advance 1, .advance 1, .advance 0, .advance 0, .advance 0]
      rfl (by decide)
  exact ⟨state, reached, isLog, (multitransport_input_orderly _ reached).1, places⟩

end FairMQ.Device
