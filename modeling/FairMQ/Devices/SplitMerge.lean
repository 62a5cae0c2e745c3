import FairMQ.Data.TransitionSystem
import FairMQ.Shmem.Socket
import Mathlib.Algebra.BigOperators.Group.Finset.Piecewise
import Mathlib.Algebra.Order.Group.Multiset
import Mathlib.Tactic.Abel

namespace FairMQ.Devices

open FairMQ.Data

universe u

variable {α : Type u}

/-! # A splitter and a merger

`FairMQSplitter` deals what it receives to its outputs in turn, whether or not the `Send`
succeeds.  `FairMQMerger` polls its inputs and takes one message from each that is ready; a
failed transfer ends the pass and not the loop.  Here every output of a splitter is connected
to an input of one merger.  A `Receive` that fails takes nothing; the payload of a `Send` that
fails is destroyed.  `forward` is what a `Send` that succeeds puts out for a payload that the
device has received, which on shared memory is not always the payload. -/

/-- The merger, between two polls and at an input of the pass. -/
inductive Scan where
  | loop
  | turn (i : Nat) (ready : List Bool)
deriving DecidableEq, Repr

inductive Transferred where
  | sent
  | sendFailed
  | receiveFailed
deriving DecidableEq, Repr

structure Taken (α : Type u) where
  link : Nat
  payload : α
  sent : Bool

/-- `links` are the connections.  The last four fields are history: what has come to the
splitter, what it has handled and whether it was sent on, what the merger has received, and
how often a poll has found an input ready. -/
structure SplitMerge (α : Type u) where
  inbox : List α
  fNumOutputs : Nat
  fDirection : Nat
  links : Nat → List α
  scan : Scan
  output : List α
  arrived : List α
  handled : List (α × Bool)
  taken : List (Taken α)
  found : Nat → Nat

inductive SplitMergeAction (α : Type u) where
  | arrive (payload : α)
  | handleData (sent : Bool)
  | poll (ready : List Bool)
  | turn (transferred : Transferred)

namespace SplitMerge

def start (fNumOutputs : Nat) : SplitMerge α where
  inbox := []
  fNumOutputs
  fDirection := 0
  links _ := []
  scan := .loop
  output := []
  arrived := []
  handled := []
  taken := []
  found _ := 0

variable (forward : α → α) (pipe : SplitMerge α)

def handleData (payload : α) (sent : Bool) : SplitMerge α :=
  { pipe with
    links :=
      if sent then
        Function.update pipe.links pipe.fDirection
          (pipe.links pipe.fDirection ++ [forward payload])
      else pipe.links
    fDirection := if pipe.fDirection + 1 ≥ pipe.fNumOutputs then 0 else pipe.fDirection + 1
    handled := pipe.handled ++ [(payload, sent)] }

/-- A poll finds an input ready only if there is something to receive. -/
def pollable (ready : List Bool) : Bool :=
  ready.length == pipe.fNumOutputs &&
    (List.range pipe.fNumOutputs).all fun i => !ready.getD i false || !(pipe.links i).isEmpty

def take (i : Nat) (payload : α) (rest : List α) (sent : Bool) : SplitMerge α :=
  { pipe with
    links := Function.update pipe.links i rest
    output := if sent then pipe.output ++ [forward payload] else pipe.output
    taken := pipe.taken ++ [⟨i, payload, sent⟩] }

def turn (transferred : Transferred) (i : Nat) (ready : List Bool) : Option (SplitMerge α) :=
  match ready[i]? with
  | none => some { pipe with scan := .loop }
  | some false => some { pipe with scan := .turn (i + 1) ready }
  | some true =>
      match transferred, pipe.links i with
      | .receiveFailed, _ => some { pipe with scan := .loop }
      | _, [] => none
      | .sent, payload :: rest =>
          some { pipe.take forward i payload rest true with scan := .turn (i + 1) ready }
      | .sendFailed, payload :: rest =>
          some { pipe.take forward i payload rest false with scan := .loop }

def step : SplitMergeAction α → Option (SplitMerge α)
  | .arrive payload =>
      some { pipe with inbox := pipe.inbox ++ [payload], arrived := pipe.arrived ++ [payload] }
  | .handleData sent =>
      match pipe.inbox with
      | payload :: rest => some { pipe.handleData forward payload sent with inbox := rest }
      | [] => none
  | .poll ready =>
      match pipe.scan with
      | .loop =>
          if pipe.pollable ready then
            some { pipe with
              scan := .turn 0 ready
              found := fun i => pipe.found i + if ready.getD i false then 1 else 0 }
          else none
      | .turn _ _ => none
  | .turn transferred =>
      match pipe.scan with
      | .loop => none
      | .turn i ready => pipe.turn forward transferred i ready

end SplitMerge

def splitMergeSystem (forward : α → α) :
    TransitionSystem (SplitMerge α) (SplitMergeAction α) where
  initial pipe := ∃ fNumOutputs, 0 < fNumOutputs ∧ pipe = .start fNumOutputs
  step := SplitMerge.step forward

/-- What `Send` puts out for the parts that `Receive` has made of a packet of shared memory. -/
def shmForward (packet : List Shmem.MetaHeader) : List Shmem.MetaHeader :=
  ((Shmem.sendImpl (Shmem.receiveImpl packet) .accepted).bind Shmem.Sending.packet).getD []

/-- A part that has come alone is sent as an empty message, and the `Send` succeeds. -/
theorem shmForward_eq {packet : List Shmem.MetaHeader} (few : packet.length < 2 ^ 32) :
    shmForward packet = if packet.length = 1 then [] else packet := by
  by_cases one : packet.length = 1
  · obtain ⟨header, rfl⟩ := List.length_eq_one_iff.mp one
    rfl
  · have length : (Shmem.receiveImpl packet).length = packet.length := List.length_map _
    rw [if_neg one, shmForward, Shmem.sendImpl_several (length ▸ one) (length ▸ few)]
    simp [Shmem.sendPacked, Shmem.receiveImpl, Shmem.MessageSHM.ofHeader, Function.comp_def]

variable {forward : α → α}

def dealt (n j : Nat) (handled : List (α × Bool)) : List α :=
  (handled.zipIdx.filter fun entry => entry.1.2 && entry.2 % n == j).map fun entry => entry.1.1

theorem dealt_append (n j : Nat) (handled : List (α × Bool)) (payload : α) (sent : Bool) :
    dealt n j (handled ++ [(payload, sent)]) =
      dealt n j handled ++ if sent && handled.length % n == j then [payload] else [] := by
  simp only [dealt, List.zipIdx_append, List.filter_append, List.map_append, List.zipIdx_cons,
    List.zipIdx_nil, Nat.zero_add]
  congr 1
  cases other : sent && handled.length % n == j <;> simp [other]

inductive SplitMergeEffect (forward : α → α) (pipe : SplitMerge α) :
    SplitMergeAction α → SplitMerge α → Prop where
  | arrive (payload : α) :
      SplitMergeEffect forward pipe (.arrive payload)
        { pipe with inbox := pipe.inbox ++ [payload], arrived := pipe.arrived ++ [payload] }
  | handleData {payload : α} {rest : List α} (sent : Bool)
      (waiting : pipe.inbox = payload :: rest) :
      SplitMergeEffect forward pipe (.handleData sent)
        { pipe.handleData forward payload sent with inbox := rest }
  | poll {ready : List Bool} (loop : pipe.scan = .loop) (pollable : pipe.pollable ready = true) :
      SplitMergeEffect forward pipe (.poll ready)
        { pipe with
          scan := .turn 0 ready
          found := fun i => pipe.found i + if ready.getD i false then 1 else 0 }
  | passed {i : Nat} {ready : List Bool} (transferred : Transferred)
      (turn : pipe.scan = .turn i ready) (outside : ready[i]? = none) :
      SplitMergeEffect forward pipe (.turn transferred) { pipe with scan := .loop }
  | skip {i : Nat} {ready : List Bool} (transferred : Transferred)
      (turn : pipe.scan = .turn i ready) (unready : ready[i]? = some false) :
      SplitMergeEffect forward pipe (.turn transferred)
        { pipe with scan := .turn (i + 1) ready }
  | interrupted {i : Nat} {ready : List Bool} (turn : pipe.scan = .turn i ready)
      (isReady : ready[i]? = some true) :
      SplitMergeEffect forward pipe (.turn .receiveFailed) { pipe with scan := .loop }
  | pass {i : Nat} {ready : List Bool} {payload : α} {rest : List α}
      (turn : pipe.scan = .turn i ready) (isReady : ready[i]? = some true)
      (waiting : pipe.links i = payload :: rest) :
      SplitMergeEffect forward pipe (.turn .sent)
        { pipe.take forward i payload rest true with scan := .turn (i + 1) ready }
  | lose {i : Nat} {ready : List Bool} {payload : α} {rest : List α}
      (turn : pipe.scan = .turn i ready) (isReady : ready[i]? = some true)
      (waiting : pipe.links i = payload :: rest) :
      SplitMergeEffect forward pipe (.turn .sendFailed)
        { pipe.take forward i payload rest false with scan := .loop }

theorem SplitMerge.step_effect {pipe after : SplitMerge α} {action : SplitMergeAction α}
    (stepped : pipe.step forward action = some after) :
    SplitMergeEffect forward pipe action after := by
  cases action with
  | arrive payload =>
      cases stepped
      exact .arrive payload
  | handleData sent =>
      simp only [SplitMerge.step] at stepped
      split at stepped <;> cases stepped
      exact .handleData sent ‹_›
  | poll ready =>
      simp only [SplitMerge.step] at stepped
      split at stepped
      · rename_i loop
        split at stepped <;> cases stepped
        exact .poll loop ‹_›
      · contradiction
  | turn transferred =>
      simp only [SplitMerge.step] at stepped
      split at stepped
      · contradiction
      · rename_i i ready turn
        simp only [SplitMerge.turn] at stepped
        split at stepped
        · cases stepped
          exact .passed transferred turn ‹_›
        · cases stepped
          exact .skip transferred turn ‹_›
        · rename_i isReady
          split at stepped <;> cases stepped
          · exact .interrupted turn isReady
          · exact .pass turn isReady ‹_›
          · exact .lose turn isReady ‹_›

def SplitMerge.takenFrom (pipe : SplitMerge α) (j : Nat) : List α :=
  (pipe.taken.filter fun taken => taken.link == j).map Taken.payload

def SplitMerge.lost (pipe : SplitMerge α) : List α :=
  ((pipe.handled.filter fun entry => !entry.2).map Prod.fst) ++
    (pipe.taken.filter fun taken => !taken.sent).map Taken.payload

structure Dealt (forward : α → α) (pipe : SplitMerge α) : Prop where
  positive : 0 < pipe.fNumOutputs
  direction : pipe.fDirection = pipe.handled.length % pipe.fNumOutputs
  arrived : pipe.arrived = pipe.handled.map Prod.fst ++ pipe.inbox
  links : ∀ j, pipe.takenFrom j ++ pipe.links j =
    (dealt pipe.fNumOutputs j pipe.handled).map forward
  output : pipe.output = (pipe.taken.filter Taken.sent).map fun taken => forward taken.payload
  sources : ∀ taken ∈ pipe.taken, taken.link < pipe.fNumOutputs

section Steps

variable {pipe : SplitMerge α}

theorem Dealt.moveScan (dealt : Dealt forward pipe) {scan : Scan} {found : Nat → Nat} :
    Dealt forward { pipe with scan, found } :=
  { dealt with }

theorem next_direction {n k : Nat} (positive : 0 < n) :
    (if k % n + 1 ≥ n then 0 else k % n + 1) = (k + 1) % n := by
  have below := Nat.mod_lt k positive
  rw [← Nat.mod_add_mod]
  split
  · have last : k % n + 1 = n := by omega
    rw [last, Nat.mod_self]
  · exact (Nat.mod_eq_of_lt (by omega)).symm

theorem Dealt.handleData (invariant : Dealt forward pipe) {payload : α} {rest : List α}
    (sent : Bool) (waiting : pipe.inbox = payload :: rest) :
    Dealt forward { pipe.handleData forward payload sent with inbox := rest } := by
  refine { invariant with direction := ?_, arrived := ?_, links := ?_ }
  · change (if pipe.fDirection + 1 ≥ pipe.fNumOutputs then 0 else pipe.fDirection + 1) =
      (pipe.handled ++ [(payload, sent)]).length % pipe.fNumOutputs
    rw [invariant.direction, next_direction invariant.positive, List.length_append]
    rfl
  · change pipe.arrived = (pipe.handled ++ [(payload, sent)]).map Prod.fst ++ rest
    rw [invariant.arrived, waiting]
    simp
  · intro j
    change pipe.takenFrom j ++ (if sent then Function.update pipe.links pipe.fDirection
      (pipe.links pipe.fDirection ++ [forward payload]) else pipe.links) j =
        (dealt pipe.fNumOutputs j (pipe.handled ++ [(payload, sent)])).map forward
    rw [dealt_append, List.map_append, ← invariant.links j, ← invariant.direction]
    cases sent with
    | false => simp
    | true =>
        by_cases here : pipe.fDirection = j
        · subst here
          simp
        · simp [here, Function.update_of_ne (Ne.symm here)]

theorem Dealt.take (invariant : Dealt forward pipe) {i : Nat} {payload : α} {rest : List α}
    (sent : Bool) (inside : i < pipe.fNumOutputs) (waiting : pipe.links i = payload :: rest) :
    Dealt forward (pipe.take forward i payload rest sent) := by
  refine { invariant with links := ?_, output := ?_, sources := ?_ }
  · intro j
    have before := invariant.links j
    change ((pipe.taken ++ [Taken.mk i payload sent]).filter fun taken => taken.link == j).map
      Taken.payload ++ Function.update pipe.links i rest j =
        (dealt pipe.fNumOutputs j pipe.handled).map forward
    rw [List.filter_append, List.map_append]
    change pipe.takenFrom j ++ _ ++ _ = _
    by_cases here : i = j
    · subst here
      rw [waiting] at before
      simpa using before
    · simpa [here, Function.update_of_ne (Ne.symm here)] using before
  · change (if sent then pipe.output ++ [forward payload] else pipe.output) =
      ((pipe.taken ++ [Taken.mk i payload sent]).filter Taken.sent).map
        fun taken => forward taken.payload
    rw [List.filter_append, List.map_append, ← invariant.output]
    cases sent <;> simp
  · intro taken member
    rcases List.mem_append.mp member with old | new
    · exact invariant.sources taken old
    · rw [List.mem_singleton.mp new]
      exact inside

def Scan.Inside (n : Nat) : Scan → Prop
  | .loop => True
  | .turn _ ready => ready.length = n

theorem Scan.Inside.lt {n i : Nat} {ready : List Bool} {flag : Bool}
    (inside : (Scan.turn i ready).Inside n) (found : ready[i]? = some flag) : i < n := by
  have bound := (List.getElem?_eq_some_iff.mp found).1
  change ready.length = n at inside
  omega

end Steps

theorem inside_of_reaches {allowed : SplitMerge α → SplitMergeAction α → Prop}
    {pipe : SplitMerge α} (reached : (splitMergeSystem forward).ReachesUnder allowed pipe) :
    pipe.scan.Inside pipe.fNumOutputs := by
  induction reached with
  | initial start =>
      obtain ⟨n, _, rfl⟩ := start
      trivial
  | step _ _ stepped inside =>
      cases SplitMerge.step_effect stepped with
      | arrive _ | handleData _ _ => exact inside
      | poll _ pollable =>
          simp only [SplitMerge.pollable, Bool.and_eq_true, beq_iff_eq] at pollable
          exact pollable.1
      | passed _ _ _ | interrupted _ _ | lose _ _ _ => trivial
      | skip _ turn _ | pass turn _ _ =>
          rw [turn] at inside
          exact inside

theorem dealt_of_reaches {pipe : SplitMerge α} (reached : (splitMergeSystem forward).Reaches pipe) :
    Dealt forward pipe := by
  induction reached with
  | initial start =>
      obtain ⟨n, positive, rfl⟩ := start
      exact ⟨positive, (Nat.zero_mod n).symm, rfl, fun _ => rfl, rfl, by simp [SplitMerge.start]⟩
  | step reached _ stepped invariant =>
      have inside := inside_of_reaches reached
      cases SplitMerge.step_effect stepped with
      | arrive payload =>
          exact { invariant with arrived := by simp [invariant.arrived] }
      | handleData sent waiting => exact invariant.handleData sent waiting
      | poll _ _ | passed _ _ _ | skip _ _ _ | interrupted _ _ => exact invariant.moveScan
      | pass turn isReady waiting =>
          rw [turn] at inside
          exact (invariant.take true (inside.lt isReady) waiting).moveScan
      | lose turn isReady waiting =>
          rw [turn] at inside
          exact (invariant.take false (inside.lt isReady) waiting).moveScan

/-- Whatever fails and in whatever order the devices move: what the merger has received on a
link and what is still on it are the messages of that direction, every `n`-th of those the
splitter has handled, in their order, less those whose `Send` failed, and as `Send` passes them
on. -/
theorem split_merge_keeps_order {pipe : SplitMerge α}
    (reached : (splitMergeSystem forward).Reaches pipe) (j : Nat) :
    (pipe.taken.filter fun taken => taken.link == j).map Taken.payload ++ pipe.links j =
      (dealt pipe.fNumOutputs j pipe.handled).map forward :=
  (dealt_of_reaches reached).links j

section Accounts

open Finset

theorem sum_dealt {n : Nat} (positive : 0 < n) (handled : List (α × Bool)) :
    ∑ j ∈ range n, (dealt n j handled : Multiset α) =
      ((handled.filter Prod.snd).map Prod.fst : List α) := by
  induction handled using List.reverseRecOn with
  | nil => simp [dealt]
  | append_singleton handled entry ih =>
      obtain ⟨payload, sent⟩ := entry
      have inside : handled.length % n ∈ range n := mem_range.mpr (Nat.mod_lt _ positive)
      simp only [dealt_append, ← Multiset.coe_add, sum_add_distrib, ih, List.filter_append,
        List.map_append]
      congr 1
      cases sent with
      | false => simp
      | true =>
          rw [sum_eq_single_of_mem _ inside]
          · simp
          · intro j _ other
            simp [Ne.symm other]

theorem sum_taken {n : Nat} (taken : List (Taken α)) (sources : ∀ entry ∈ taken, entry.link < n) :
    ∑ j ∈ range n,
      (((taken.filter fun entry => entry.link == j).map Taken.payload : List α) : Multiset α) =
      (taken.map Taken.payload : List α) := by
  induction taken using List.reverseRecOn with
  | nil => simp
  | append_singleton taken entry ih =>
      have inside : entry.link ∈ range n := mem_range.mpr (sources entry (by simp))
      have earlier := ih fun other member => sources other (by simp [member])
      simp only [List.filter_append, List.map_append, ← Multiset.coe_add, sum_add_distrib, earlier]
      congr 1
      rw [sum_eq_single_of_mem _ inside]
      · simp
      · intro j _ other
        simp [Ne.symm other]

theorem coe_filter_add {β : Type u} (flag : β → Bool) (entries : List β) (value : β → α) :
    ((entries.map value : List α) : Multiset α) =
      ((entries.filter flag).map value : List α) +
        ((entries.filter fun entry => !flag entry).map value : List α) := by
  have parts := List.filter_append_perm flag entries
  have mapped := parts.map value
  rw [List.map_append] at mapped
  rw [Multiset.coe_add]
  exact (Multiset.coe_eq_coe.mpr mapped).symm

end Accounts

section Intact

variable {pipe : SplitMerge α}

theorem dealt_subset (n j : Nat) (handled : List (α × Bool)) :
    dealt n j handled ⊆ handled.map Prod.fst := by
  intro payload member
  obtain ⟨⟨entry, k⟩, place, rfl⟩ := List.mem_map.mp member
  have found := List.mem_zipIdx_iff_getElem?.mp (List.mem_filter.mp place).1
  exact List.mem_map_of_mem (List.mem_of_getElem? found)

theorem Dealt.links_intact (invariant : Dealt forward pipe)
    (intact : ∀ payload ∈ pipe.arrived, forward payload = payload) (j : Nat) :
    pipe.takenFrom j ++ pipe.links j = dealt pipe.fNumOutputs j pipe.handled := by
  rw [invariant.links j]
  refine (List.map_congr_left fun payload member => intact payload ?_).trans (List.map_id _)
  rw [invariant.arrived]
  exact List.mem_append_left _ (dealt_subset _ _ _ member)

theorem Dealt.output_intact (invariant : Dealt forward pipe)
    (intact : ∀ payload ∈ pipe.arrived, forward payload = payload) :
    pipe.output = (pipe.taken.filter Taken.sent).map Taken.payload := by
  rw [invariant.output]
  refine List.map_congr_left fun taken member => intact _ ?_
  have onLink : taken.payload ∈ pipe.takenFrom taken.link ++ pipe.links taken.link :=
    List.mem_append_left _ (List.mem_map_of_mem
      (List.mem_filter.mpr ⟨(List.mem_filter.mp member).1, beq_self_eq_true _⟩))
  rw [invariant.links_intact intact] at onLink
  rw [invariant.arrived]
  exact List.mem_append_left _ (dealt_subset _ _ _ onLink)

end Intact

def Uninterrupted (_ : SplitMerge α) : SplitMergeAction α → Prop
  | .turn transferred => transferred = .sent
  | _ => True

instance (pipe : SplitMerge α) (action : SplitMergeAction α) :
    Decidable (Uninterrupted pipe action) :=
  match action with
  | .turn _ => inferInstanceAs (Decidable (_ = _))
  | .arrive _ | .handleData _ | .poll _ => isTrue trivial

def Scan.pending (j : Nat) : Scan → Nat
  | .loop => 0
  | .turn i ready => if i ≤ j ∧ ready.getD j false = true then 1 else 0

theorem Scan.pending_next {i j : Nat} {ready : List Bool} :
    (Scan.turn i ready).pending j =
      (Scan.turn (i + 1) ready).pending j +
        if i = j ∧ ready.getD j false = true then 1 else 0 := by
  simp only [Scan.pending]
  cases ready.getD j false with
  | false => simp
  | true =>
      simp only [and_true]
      split <;> split <;> split <;> omega

theorem Scan.pending_past {i j : Nat} {ready : List Bool} (outside : ready[i]? = none) :
    (Scan.turn i ready).pending j = 0 := by
  refine if_neg ?_
  rintro ⟨past, isReady⟩
  have short := List.getElem?_eq_none_iff.mp outside
  have absent : ready[j]? = none := List.getElem?_eq_none (Nat.le_trans short past)
  simp [List.getD_eq_getElem?_getD, absent] at isReady

theorem served_of_reaches {pipe : SplitMerge α}
    (reached : (splitMergeSystem forward).ReachesUnder Uninterrupted pipe) (j : Nat) :
    (pipe.takenFrom j).length + pipe.scan.pending j = pipe.found j := by
  induction reached with
  | initial start =>
      obtain ⟨n, _, rfl⟩ := start
      rfl
  | @step before after action reached permitted stepped served =>
      cases SplitMerge.step_effect stepped with
      | arrive _ | handleData _ _ => exact served
      | @poll ready loop _ =>
          rw [loop] at served
          have pending : (Scan.turn 0 ready).pending j =
              if ready.getD j false = true then 1 else 0 := by
            simp [Scan.pending]
          change (before.takenFrom j).length + Scan.pending j (.turn 0 ready) = before.found j + _
          rw [pending, ← served]
          rfl
      | passed _ turn outside =>
          rw [turn, Scan.pending_past outside] at served
          exact served
      | @skip i ready _ turn unready =>
          have other : ¬ (i = j ∧ ready.getD j false = true) := by
            rintro ⟨rfl, isReady⟩
            simp [List.getD_eq_getElem?_getD, unready] at isReady
          rw [turn, Scan.pending_next, if_neg other] at served
          exact served
      | @pass i ready payload rest turn isReady waiting =>
          rw [turn, Scan.pending_next] at served
          change (((before.taken ++ [Taken.mk i payload true]).filter fun taken =>
            taken.link == j).map Taken.payload).length + _ = before.found j
          rw [List.filter_append, List.map_append, List.length_append, ← served]
          by_cases here : i = j
          · subst here
            simp only [List.getD_eq_getElem?_getD, isReady, SplitMerge.takenFrom]
            simp
            omega
          · simp [here, SplitMerge.takenFrom]
      | interrupted _ _ => cases permitted
      | lose _ _ _ => cases permitted

/-- Between two polls of a merger whose transfers succeed, each input has been served exactly
as often as a poll has found it ready, however many messages wait on the others. -/
theorem merger_serves_ready_inputs {pipe : SplitMerge α}
    (reached : (splitMergeSystem forward).ReachesUnder Uninterrupted pipe) (loop : pipe.scan = .loop)
    (j : Nat) :
    (pipe.taken.filter fun taken => taken.link == j).length = pipe.found j := by
  have served := served_of_reaches reached j
  rw [loop] at served
  simpa [SplitMerge.takenFrom, Scan.pending] using served

def fiveTrace (payload : Nat → α) : List (SplitMergeAction α) :=
  [.arrive (payload 0), .arrive (payload 1), .arrive (payload 2), .arrive (payload 3),
    .arrive (payload 4), .handleData true, .handleData false, .handleData true, .handleData true,
    .poll [true, true], .turn .sent, .turn .sent, .turn .sent, .handleData true,
    .poll [true, false], .turn .sent, .turn .sent, .turn .sent]

def packetOf (parts : Nat) : List Shmem.MetaHeader :=
  (List.range parts).map fun part => ⟨8, 0, part * 64, 0⟩

/-- The packet of one part comes empty to the merger. -/
theorem five_messages_ordered : ∃ pipe, (splitMergeSystem shmForward).Reaches pipe ∧
    dealt pipe.fNumOutputs 0 pipe.handled = [packetOf 3, packetOf 1, packetOf 2] ∧
    (pipe.taken.filter fun taken => taken.link == 0).map Taken.payload ++ pipe.links 0 =
      [packetOf 3, [], packetOf 2] := by
  obtain ⟨pipe, reached, first⟩ : ∃ pipe, (splitMergeSystem shmForward).Reaches pipe ∧
      dealt pipe.fNumOutputs 0 pipe.handled = [packetOf 3, packetOf 1, packetOf 2] :=
    TransitionSystem.reaches_of_runUnder (SplitMerge.start 2)
      (fiveTrace fun i => packetOf ([3, 2, 1, 2].getD i 2)) ⟨2, by decide, rfl⟩ (by decide)
  refine ⟨pipe, reached, first, ?_⟩
  rw [split_merge_keeps_order reached 0, first]
  decide

theorem five_messages_served : ∃ pipe,
    (splitMergeSystem (id : Nat → Nat)).ReachesUnder Uninterrupted pipe ∧ pipe.scan = .loop ∧
    pipe.found 0 = 2 ∧
    (pipe.taken.filter fun taken => taken.link == 0).length = pipe.found 0 := by
  obtain ⟨pipe, reached, loop, found⟩ : ∃ pipe,
      (splitMergeSystem (id : Nat → Nat)).ReachesUnder Uninterrupted pipe ∧ pipe.scan = .loop ∧
        pipe.found 0 = 2 :=
    TransitionSystem.reaches_of_runUnder (SplitMerge.start 2) (fiveTrace id)
      ⟨2, by decide, rfl⟩ (by decide)
  exact ⟨pipe, reached, loop, found, merger_serves_ready_inputs reached loop 0⟩

end FairMQ.Devices
