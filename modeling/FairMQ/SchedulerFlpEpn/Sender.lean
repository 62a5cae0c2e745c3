import FairMQ.SchedulerFlpEpn.Schedule
import Mathlib.Logic.Function.Basic

namespace FairMQ.SchedulerFlpEpn

open FairMQ.Data

/-! # The scheduler's main loop and its sender threads

`ConditionalRun` assigns `vectorForFlps`, starts a detached thread that runs
`sender` on a pointer to it, and clears it.  Clearing keeps the buffer, so a
thread reads whatever was assigned last, possibly another schedule than the one
it was started for. -/

/-- Where `ConditionalRun` is: collecting reports, or between the assignment,
the start of the thread and `clear`. -/
inductive MainLoop where
  | collecting
  | assigned
  | started
deriving DecidableEq, Repr

/-- `threads` holds the loop variable `i` of every sender thread started so far;
`channel` and `received` are the messages on the way to, and taken by, each FLP. -/
structure Dispatch where
  scheduler : Scheduler
  numFLPS : Nat
  amountEPNs : Nat
  vectorForFlps : List Nat
  main : MainLoop
  threads : List Nat
  channel : Nat → List (List Nat)
  received : Nat → List (List Nat)

inductive DispatchAction where
  | update (report : Report)
  | assign
  | startThread
  | clear
  | send (thread : Nat)
  | receive (flp : Nat)
deriving DecidableEq, Repr

namespace Dispatch

/-- The `amountEPNs` words that `sender` copies out of the buffer. -/
def message (dispatch : Dispatch) : List Nat :=
  dispatch.vectorForFlps.take dispatch.amountEPNs

def assign (dispatch : Dispatch) : Option Dispatch :=
  match dispatch.main, dispatch.scheduler.generateSchedule dispatch.amountEPNs with
  | .collecting, some schedule =>
      some { dispatch with vectorForFlps := schedule, main := .assigned }
  | _, _ => none

def send (dispatch : Dispatch) (thread : Nat) : Option Dispatch :=
  match dispatch.threads[thread]? with
  | none => none
  | some i =>
      if i < dispatch.numFLPS then
        some { dispatch with
          threads := dispatch.threads.set thread (i + 1)
          channel := Function.update dispatch.channel i (dispatch.channel i ++ [dispatch.message]) }
      else none

def receive (dispatch : Dispatch) (flp : Nat) : Option Dispatch :=
  match dispatch.channel flp with
  | [] => none
  | message :: rest =>
      some { dispatch with
        channel := Function.update dispatch.channel flp rest
        received := Function.update dispatch.received flp (dispatch.received flp ++ [message]) }

def step (dispatch : Dispatch) : DispatchAction → Option Dispatch
  | .update report =>
      match dispatch.main, dispatch.scheduler.update report.key report.epnId report.myMem with
      | .collecting, .updated scheduler => some { dispatch with scheduler }
      | _, _ => none
  | .assign => dispatch.assign
  | .startThread =>
      match dispatch.main with
      | .assigned => some { dispatch with threads := dispatch.threads ++ [0], main := .started }
      | _ => none
  | .clear =>
      match dispatch.main with
      | .started => some { dispatch with main := .collecting }
      | _ => none
  | .send thread => dispatch.send thread
  | .receive flp => dispatch.receive flp

def sent (dispatch : Dispatch) (flp : Nat) : List (List Nat) :=
  dispatch.received flp ++ dispatch.channel flp

end Dispatch

def Dispatch.start (scheduler : Scheduler) (numFLPS amountEPNs : Nat) : Dispatch where
  scheduler := scheduler
  numFLPS := numFLPS
  amountEPNs := amountEPNs
  vectorForFlps := []
  main := .collecting
  threads := []
  channel := fun _ => []
  received := fun _ => []

def dispatchSystem : TransitionSystem Dispatch DispatchAction where
  initial dispatch := ∃ scheduler numFLPS amountEPNs,
    historySystem.initial scheduler ∧ dispatch = .start scheduler numFLPS amountEPNs
  step := Dispatch.step

/-- An assignment that changes the words to be sent finds every sender thread
before its first or after its last message. -/
def Undisturbed (dispatch : Dispatch) : DispatchAction → Prop
  | .assign =>
      (dispatch.scheduler.generateSchedule dispatch.amountEPNs).map
          (List.take dispatch.amountEPNs) = some dispatch.message ∨
        ∀ i ∈ dispatch.threads, i = 0 ∨ dispatch.numFLPS ≤ i
  | _ => True

instance (dispatch : Dispatch) (action : DispatchAction) :
    Decidable (Undisturbed dispatch action) := by
  unfold Undisturbed
  split <;> infer_instance

structure Agreeing (dispatch : Dispatch) : Prop where
  counted : ∀ flp < dispatch.numFLPS,
    (dispatch.sent flp).length = dispatch.threads.countP (flp < ·)
  agreed : ∃ common, ∀ flp < dispatch.numFLPS, ∃ copies,
    dispatch.sent flp = common ++ List.replicate copies dispatch.message

theorem Agreeing.start (scheduler : Scheduler) (numFLPS amountEPNs : Nat) :
    Agreeing (.start scheduler numFLPS amountEPNs) where
  counted := by
    intro flp _
    rfl
  agreed := ⟨[], fun _ _ => ⟨0, rfl⟩⟩

theorem countP_of_ends {threads : List Nat} {numFLPS flp : Nat} (inside : flp < numFLPS)
    (ends : ∀ i ∈ threads, i = 0 ∨ numFLPS ≤ i) :
    threads.countP (flp < ·) = threads.countP (numFLPS ≤ ·) := by
  refine List.countP_congr fun i member => ?_
  rcases ends i member with rfl | finished
  · simp
    omega
  · simp
    omega

theorem Agreeing.assign {dispatch : Dispatch} (agreeing : Agreeing dispatch)
    {schedule : List Nat}
    (permitted : schedule.take dispatch.amountEPNs = dispatch.message ∨
      ∀ i ∈ dispatch.threads, i = 0 ∨ dispatch.numFLPS ≤ i) :
    Agreeing { dispatch with vectorForFlps := schedule, main := .assigned } := by
  refine ⟨agreeing.counted, ?_⟩
  obtain ⟨common, agreed⟩ := agreeing.agreed
  rcases permitted with same | ends
  · refine ⟨common, fun flp inside => ?_⟩
    obtain ⟨copies, sent⟩ := agreed flp inside
    refine ⟨copies, ?_⟩
    change dispatch.sent flp = common ++ List.replicate copies (schedule.take dispatch.amountEPNs)
    rw [same]
    exact sent
  · -- all FLPs have been passed equally often, so all sequences are one
    refine ⟨common ++ List.replicate (dispatch.threads.countP (dispatch.numFLPS ≤ ·) -
      common.length) dispatch.message, fun flp inside => ⟨0, ?_⟩⟩
    obtain ⟨copies, sent⟩ := agreed flp inside
    have length := agreeing.counted flp inside
    rw [countP_of_ends inside ends, sent, List.length_append, List.length_replicate] at length
    change dispatch.sent flp = _
    rw [sent, ← length]
    simp

theorem countP_advance {threads : List Nat} {thread i : Nat}
    (running : threads[thread]? = some i) (flp : Nat) :
    (threads.set thread (i + 1)).countP (flp < ·) =
      threads.countP (flp < ·) + if flp = i then 1 else 0 := by
  obtain ⟨bound, current⟩ := List.getElem?_eq_some_iff.mp running
  rw [List.countP_set bound, current]
  rcases Nat.lt_trichotomy flp i with before | same | after
  · have counted : 0 < threads.countP (flp < ·) := by
      refine List.countP_pos_iff.mpr ⟨i, List.mem_of_getElem? running, ?_⟩
      simpa using before
    have next : flp < i + 1 := by omega
    have distinct : flp ≠ i := by omega
    simp only [before, next, distinct, decide_true, if_true, if_false]
    omega
  · subst same
    simp
  · have notYet : ¬ flp < i := by omega
    have notNext : ¬ flp < i + 1 := by omega
    have distinct : flp ≠ i := by omega
    simp [notYet, notNext, distinct]

theorem Agreeing.send {dispatch : Dispatch} (agreeing : Agreeing dispatch) {thread i : Nat}
    (running : dispatch.threads[thread]? = some i) (inside : i < dispatch.numFLPS) :
    Agreeing { dispatch with
      threads := dispatch.threads.set thread (i + 1)
      channel := Function.update dispatch.channel i
        (dispatch.channel i ++ [dispatch.message]) } := by
  have sentTo : ∀ flp, dispatch.received flp ++ Function.update dispatch.channel i
      (dispatch.channel i ++ [dispatch.message]) flp =
      dispatch.sent flp ++ if flp = i then [dispatch.message] else [] := by
    intro flp
    by_cases same : flp = i
    · subst same
      simp [Dispatch.sent]
    · simp [Dispatch.sent, same]
  refine ⟨?_, ?_⟩
  · intro flp below
    change (dispatch.received flp ++ Function.update dispatch.channel i
      (dispatch.channel i ++ [dispatch.message]) flp).length = _
    rw [sentTo, countP_advance running, List.length_append, agreeing.counted flp below]
    split <;> rfl
  · obtain ⟨common, agreed⟩ := agreeing.agreed
    refine ⟨common, fun flp below => ?_⟩
    obtain ⟨copies, sent⟩ := agreed flp below
    change ∃ copies, dispatch.received flp ++ Function.update dispatch.channel i
      (dispatch.channel i ++ [dispatch.message]) flp =
      common ++ List.replicate copies dispatch.message
    rw [sentTo, sent]
    by_cases same : flp = i
    · refine ⟨copies + 1, ?_⟩
      simp [same, List.replicate_succ', List.append_assoc]
    · exact ⟨copies, by simp [same]⟩

theorem sent_receive {dispatch : Dispatch} {flp : Nat} {message : List Nat}
    {rest : List (List Nat)} (queued : dispatch.channel flp = message :: rest) (other : Nat) :
    Function.update dispatch.received flp (dispatch.received flp ++ [message]) other ++
      Function.update dispatch.channel flp rest other = dispatch.sent other := by
  by_cases same : other = flp
  · subst same
    simp [Dispatch.sent, queued]
  · simp [Dispatch.sent, same]

theorem Agreeing.step {dispatch after : Dispatch} {action : DispatchAction}
    (agreeing : Agreeing dispatch) (permitted : Undisturbed dispatch action)
    (stepped : dispatch.step action = some after) : Agreeing after := by
  cases action with
  | update report =>
      simp only [Dispatch.step] at stepped
      split at stepped <;> cases stepped
      exact ⟨agreeing.counted, agreeing.agreed⟩
  | assign =>
      simp only [Dispatch.step, Dispatch.assign] at stepped
      split at stepped <;> cases stepped
      rename_i schedule _ generated
      refine agreeing.assign ?_
      simpa [Undisturbed, generated] using permitted
  | startThread =>
      simp only [Dispatch.step] at stepped
      split at stepped <;> cases stepped
      refine ⟨?_, agreeing.agreed⟩
      intro flp inside
      have counted := agreeing.counted flp inside
      simpa [Dispatch.sent] using counted
  | clear =>
      simp only [Dispatch.step] at stepped
      split at stepped <;> cases stepped
      exact ⟨agreeing.counted, agreeing.agreed⟩
  | send thread =>
      simp only [Dispatch.step, Dispatch.send] at stepped
      split at stepped
      · contradiction
      · rename_i i running
        split at stepped <;> cases stepped
        rename_i inside
        exact agreeing.send running inside
  | receive flp =>
      simp only [Dispatch.step, Dispatch.receive] at stepped
      split at stepped <;> cases stepped
      rename_i message rest queued
      refine ⟨?_, ?_⟩
      · intro other inside
        exact (congrArg List.length (sent_receive queued other)).trans
          (agreeing.counted other inside)
      · obtain ⟨common, agreed⟩ := agreeing.agreed
        refine ⟨common, fun other inside => ?_⟩
        obtain ⟨copies, sent⟩ := agreed other inside
        exact ⟨copies, (sent_receive queued other).trans sent⟩

/-- The `k`-th message of a common sequence followed by copies of one message
does not depend on the number of copies. -/
theorem getElem?_common {common : List (List Nat)} {message : List Nat} {k m n : Nat}
    (left : k < (common ++ List.replicate m message).length)
    (right : k < (common ++ List.replicate n message).length) :
    (common ++ List.replicate m message)[k]? = (common ++ List.replicate n message)[k]? := by
  rw [List.getElem?_append, List.getElem?_append]
  split
  · rfl
  · simp only [List.length_append, List.length_replicate] at left right
    rw [List.getElem?_replicate, List.getElem?_replicate, if_pos (by omega), if_pos (by omega)]

/-- In every run whose assignments leave the sender threads undisturbed, any two
FLPs receive the same schedules in the same order. -/
theorem undisturbed_schedules_agree {dispatch : Dispatch}
    (reached : dispatchSystem.ReachesUnder Undisturbed dispatch) {i j k : Nat}
    (left : i < dispatch.numFLPS) (right : j < dispatch.numFLPS)
    (leftReceived : k < (dispatch.received i).length)
    (rightReceived : k < (dispatch.received j).length) :
    (dispatch.received i)[k]? = (dispatch.received j)[k]? := by
  have agreeing : Agreeing dispatch := by
    refine reached.invariant ?_ ?_
    · intro state start
      obtain ⟨scheduler, numFLPS, amountEPNs, _, rfl⟩ := start
      exact .start scheduler numFLPS amountEPNs
    · intro before action after agreeing permitted stepped
      exact agreeing.step permitted stepped
  have received : ∀ flp, k < (dispatch.received flp).length →
      (dispatch.received flp)[k]? = (dispatch.sent flp)[k]? ∧ k < (dispatch.sent flp).length := by
    intro flp bound
    refine ⟨(List.getElem?_append_left bound).symm, ?_⟩
    rw [Dispatch.sent, List.length_append]
    omega
  obtain ⟨common, agreed⟩ := agreeing.agreed
  obtain ⟨m, sentLeft⟩ := agreed i left
  obtain ⟨n, sentRight⟩ := agreed j right
  obtain ⟨sameLeft, boundLeft⟩ := received i leftReceived
  obtain ⟨sameRight, boundRight⟩ := received j rightReceived
  rw [sameLeft, sameRight, sentLeft, sentRight]
  rw [sentLeft] at boundLeft
  rw [sentRight] at boundRight
  exact getElem?_common boundLeft boundRight

/-- Two EPNs report one after the other; the schedule for the second report is
assigned before (`overtakes`) or after the thread of the first has sent to the
second of two FLPs. -/
def twoSchedules (overtakes : Bool) : List DispatchAction :=
  [.update ⟨1500000001000, 1, 4⟩, .assign, .startThread, .send 0, .clear,
    .update ⟨1500000001000, 2, 9⟩] ++
    (if overtakes then [.assign, .send 0] else [.send 0, .assign]) ++
    [.receive 0, .receive 1]

theorem two_flps_agree :
    ∃ dispatch, dispatchSystem.ReachesUnder Undisturbed dispatch ∧
      dispatch.received 0 = [[1]] ∧ (dispatch.received 0)[0]? = (dispatch.received 1)[0]? := by
  obtain ⟨dispatch, reached, two, first, second⟩ :
      ∃ dispatch, dispatchSystem.ReachesUnder Undisturbed dispatch ∧ dispatch.numFLPS = 2 ∧
        dispatch.received 0 = [[1]] ∧ (dispatch.received 1).length = 1 :=
    TransitionSystem.reaches_of_runUnder (Dispatch.start twoEpns 2 1) (twoSchedules false)
      ⟨twoEpns, 2, 1, ⟨2, 1500000000000, 1500000000000, rfl⟩, rfl⟩ (by decide)
  refine ⟨dispatch, reached, first, ?_⟩
  exact undisturbed_schedules_agree reached (by omega) (by omega) (by simp [first])
    (by omega)

/-- The second assignment overtakes the thread of the first: the first FLP is
told EPN 1, the second EPN 2. -/
theorem overtaken_schedules_differ :
    ∃ dispatch, dispatchSystem.Reaches dispatch ∧ dispatch.numFLPS = 2 ∧
      dispatch.received 0 = [[1]] ∧ dispatch.received 1 = [[2]] :=
  TransitionSystem.reaches_of_runUnder (Dispatch.start twoEpns 2 1) (twoSchedules true)
    ⟨twoEpns, 2, 1, ⟨2, 1500000000000, 1500000000000, rfl⟩, rfl⟩ (by decide)

end FairMQ.SchedulerFlpEpn
