import FairMQ.Shmem.Regions
import Mathlib.Algebra.Group.Nat.Defs

namespace FairMQ.Shmem

open FairMQ.Data

/-! # The ids of the unmanaged regions of a session

The constructor of `FairMQUnmanagedRegionSHM` finds the session's `RegionCounter` and
increments it, or constructs it with 1, and then reads it again for the id of its
region.  No lock is held: every access to the counter is a step of its own. -/

/-- How far a constructor is; `constructed` and `destroyed` are the life of the object
after it has returned, and `exited` is `exit(EXIT_FAILURE)`. -/
inductive Stage where
  | entered
  | found
  | missing
  | counted
  | assigned
  | constructed
  | destroyed
  | exited
deriving DecidableEq, Repr

/-- One `FairMQUnmanagedRegionSHM`.  `region` says that `CreateRegion` has returned a
region for it. -/
structure Construction where
  process : Nat
  size : Nat
  stage : Stage
  fRegionId : Option Nat
  region : Bool
deriving DecidableEq, Repr

/-- The session with the region tables of its processes.  The last two fields are
history: whether the counter has been written since it was last read for an id, and how
often it was read for an id without having been written. -/
structure RegionSession where
  fCount : Option Nat
  objects : String → Option Nat
  tables : Nat → List Region
  constructions : List Construction
  fresh : Bool
  stale : Nat

inductive RegionAction where
  | enter (process size : Nat)
  | find (construction : Nat)
  | increment (construction : Nat)
  | construct (construction : Nat)
  | read (construction : Nat)
  | create (construction : Nat)
  | destroy (construction : Nat)
deriving DecidableEq, Repr

namespace RegionSession

variable (session : String) (state : RegionSession)

def put (i : Nat) (construction : Construction) : RegionSession :=
  { state with constructions := state.constructions.set i construction }

def view (process : Nat) : Process :=
  ⟨state.tables process, state.objects⟩

def setView (process : Nat) (view : Process) : RegionSession :=
  { state with
    objects := view.objects
    tables := Function.update state.tables process view.fRegions }

def leave (process : Nat) (construction : Construction) : Construction :=
  if construction.process = process then { construction with stage := .exited } else construction

/-- `exit` destroys the static region table and ends every thread of the process. -/
def exit (process : Nat) : RegionSession :=
  let cleared := (state.tables process).foldl Process.removeNames (state.view process)
  { state.setView process { cleared with fRegions := [] } with
    constructions := state.constructions.map (leave process) }

def find (i : Nat) (construction : Construction) : RegionSession :=
  state.put i { construction with
    stage := match state.fCount with
      | some _ => .found
      | none => .missing }

/-- `fCount` is an atomic `unsigned int`. -/
def increment (i : Nat) (construction : Construction) : Option RegionSession :=
  state.fCount.map fun count =>
    { state with fCount := some ((count + 1) % 2 ^ 32), fresh := true }.put i
      { construction with stage := .counted }

/-- `construct` throws if the counter has been constructed meanwhile. -/
def construct (i : Nat) (construction : Construction) : RegionSession :=
  match state.fCount with
  | some _ => state.exit construction.process
  | none =>
      { state with fCount := some 1, fresh := true }.put i { construction with stage := .counted }

def read (i : Nat) (construction : Construction) : Option RegionSession :=
  state.fCount.map fun count =>
    { state with
      fresh := false
      stale := state.stale + if state.fresh then 0 else 1 }.put i
        { construction with stage := .assigned, fRegionId := some count }

def create (i : Nat) (construction : Construction) (id : Nat) : RegionSession :=
  let (result, after) :=
    (state.view construction.process).createRegion session construction.size id
  let created := state.setView construction.process after
  match result with
  | .created => created.put i { construction with stage := .constructed, region := true }
  | .nullptr => created.put i { construction with stage := .constructed }
  | .exception => created.exit construction.process

def destroy (i : Nat) (construction : Construction) (id : Nat) : RegionSession :=
  (state.setView construction.process
    ((state.view construction.process).removeRegion id)).put i
      { construction with stage := .destroyed }

def act (i : Nat) (stage : Stage) (body : Construction → Option RegionSession) :
    Option RegionSession :=
  match state.constructions[i]? with
  | some construction => if construction.stage = stage then body construction else none
  | none => none

def step : RegionAction → Option RegionSession
  | .enter process size =>
      some { state with
        constructions := state.constructions ++ [⟨process, size, .entered, none, false⟩] }
  | .find i => state.act i .entered fun construction => some (state.find i construction)
  | .increment i => state.act i .found fun construction => state.increment i construction
  | .construct i => state.act i .missing fun construction => some (state.construct i construction)
  | .read i => state.act i .counted fun construction => state.read i construction
  | .create i => state.act i .assigned fun construction =>
      construction.fRegionId.map fun id => state.create session i construction id
  | .destroy i => state.act i .constructed fun construction =>
      construction.fRegionId.map fun id => state.destroy i construction id

def start : RegionSession := ⟨none, fun _ => none, fun _ => [], [], false, 0⟩

def idAt (i : Nat) : Option Nat :=
  (state.constructions[i]?).bind (·.fRegionId)

end RegionSession

def regionSystem (session : String) : TransitionSystem RegionSession RegionAction where
  initial state := state = .start
  step := RegionSession.step session

def NoWrap (state : RegionSession) : RegionAction → Prop
  | .increment _ => state.fCount.getD 0 + 1 < 2 ^ 32
  | _ => True

instance (state : RegionSession) (action : RegionAction) : Decidable (NoWrap state action) :=
  match action with
  | .increment _ => inferInstanceAs (Decidable (_ < _))
  | .enter .. | .find _ | .construct _ | .read _ | .create _ | .destroy _ => isTrue trivial

def UniqueIds (state : RegionSession) : Prop :=
  ∀ i j id, state.idAt i = some id → state.idAt j = some id → i = j

def Stage.early : Stage → Bool
  | .entered | .found | .missing | .counted => true
  | _ => false

def Early (state : RegionSession) : Prop :=
  ∀ construction ∈ state.constructions, construction.stage.early = true →
    construction.fRegionId = none

namespace RegionSession

variable {session : String} {state after : RegionSession} {i : Nat}
  {construction changed : Construction}

theorem act_eq_some {stage : Stage} {body : Construction → Option RegionSession}
    (acted : state.act i stage body = some after) :
    ∃ construction, state.constructions[i]? = some construction ∧ construction.stage = stage ∧
      body construction = some after := by
  unfold act at acted
  split at acted
  · rename_i construction found
    split at acted
    · rename_i isStage
      exact ⟨construction, found, isStage, acted⟩
    · cases acted
  · cases acted

theorem idAt_put (found : state.constructions[i]? = some construction) :
    (state.put i changed).idAt = Function.update state.idAt i changed.fRegionId := by
  funext j
  have inside := (List.getElem?_eq_some_iff.mp found).1
  unfold idAt
  by_cases same : j = i
  · rw [same, Function.update_self, put, List.getElem?_set_self inside]
    rfl
  · rw [Function.update_of_ne same, put, List.getElem?_set_ne (fun equal => same equal.symm)]

theorem idAt_put_same (found : state.constructions[i]? = some construction)
    (same : changed.fRegionId = construction.fRegionId) :
    (state.put i changed).idAt = state.idAt := by
  rw [idAt_put found, same]
  apply Function.update_eq_self_iff.mpr
  rw [idAt, found]
  rfl

theorem leave_fRegionId (process : Nat) (construction : Construction) :
    (leave process construction).fRegionId = construction.fRegionId := by
  unfold leave
  split <;> rfl

theorem idAt_exit (process : Nat) : (state.exit process).idAt = state.idAt := by
  funext j
  simp only [idAt, exit, setView, List.getElem?_map]
  cases state.constructions[j]? with
  | none => rfl
  | some construction => exact leave_fRegionId process construction

theorem step_cases {action : RegionAction} (stepped : state.step session action = some after) :
    (after.fCount = state.fCount ∧ after.fresh = state.fresh ∧ after.stale = state.stale ∧
      after.idAt = state.idAt) ∨
    (∃ count, after.fCount = some count ∧
      (state.fCount = none ∧ count = 1 ∨
        ∃ i old, action = .increment i ∧ state.fCount = some old ∧
          count = (old + 1) % 2 ^ 32) ∧
      after.fresh = true ∧ after.stale = state.stale ∧ after.idAt = state.idAt) ∨
    (∃ i construction count, state.constructions[i]? = some construction ∧
      construction.stage = .counted ∧ state.fCount = some count ∧ after.fCount = some count ∧
      after.fresh = false ∧ (after.stale = state.stale + if state.fresh then 0 else 1) ∧
      after.idAt = Function.update state.idAt i (some count)) := by
  cases action with
  | enter process size =>
      cases stepped
      refine .inl ⟨rfl, rfl, rfl, ?_⟩
      funext j
      unfold idAt
      rw [List.getElem?_append]
      split
      · rfl
      · rename_i beyond
        have absent : state.constructions[j]? = none := List.getElem?_eq_none (by omega)
        rw [absent]
        cases j - state.constructions.length with
        | zero => rfl
        | succ rest => rfl
  | find i =>
      obtain ⟨construction, found, _, done⟩ := act_eq_some stepped
      cases done
      exact .inl ⟨rfl, rfl, rfl, idAt_put_same found rfl⟩
  | increment i =>
      obtain ⟨construction, found, _, done⟩ := act_eq_some stepped
      obtain ⟨old, isOld, rfl⟩ := Option.map_eq_some_iff.mp done
      exact .inr (.inl ⟨_, rfl, .inr ⟨i, old, rfl, isOld, rfl⟩, rfl, rfl,
        idAt_put_same found rfl⟩)
  | construct i =>
      obtain ⟨construction, found, _, done⟩ := act_eq_some stepped
      cases done
      unfold construct
      cases isCount : state.fCount with
      | some count => exact .inl ⟨isCount, rfl, rfl, idAt_exit _⟩
      | none => exact .inr (.inl ⟨1, rfl, .inl ⟨rfl, rfl⟩, rfl, rfl, idAt_put_same found rfl⟩)
  | read i =>
      obtain ⟨construction, found, counted, done⟩ := act_eq_some stepped
      obtain ⟨count, isCount, rfl⟩ := Option.map_eq_some_iff.mp done
      exact .inr (.inr ⟨i, construction, count, found, counted, isCount, isCount, rfl, rfl,
        idAt_put found⟩)
  | create i =>
      obtain ⟨construction, found, _, done⟩ := act_eq_some stepped
      obtain ⟨id, _, rfl⟩ := Option.map_eq_some_iff.mp done
      unfold create
      split
      dsimp only
      split
      · exact .inl ⟨rfl, rfl, rfl, idAt_put_same found rfl⟩
      · exact .inl ⟨rfl, rfl, rfl, idAt_put_same found rfl⟩
      · exact .inl ⟨rfl, rfl, rfl, idAt_exit _⟩
  | destroy i =>
      obtain ⟨construction, found, _, done⟩ := act_eq_some stepped
      obtain ⟨id, _, rfl⟩ := Option.map_eq_some_iff.mp done
      exact .inl ⟨rfl, rfl, rfl, idAt_put_same found rfl⟩

theorem early_found {stage : Stage} (early : Early state)
    (found : state.constructions[i]? = some construction) (isStage : construction.stage = stage)
    (isEarly : stage.early = true) : construction.fRegionId = none :=
  early construction (List.mem_of_getElem? found) (isStage ▸ isEarly)

theorem early_put (early : Early state)
    (stillEarly : changed.stage.early = true → changed.fRegionId = none) :
    Early (state.put i changed) := by
  intro construction member
  rcases List.mem_or_eq_of_mem_set member with old | new
  · exact early construction old
  · rw [new]
    exact stillEarly

theorem early_exit (early : Early state) (process : Nat) : Early (state.exit process) := by
  intro construction member
  obtain ⟨old, isOld, rfl⟩ := List.mem_map.mp member
  unfold leave
  split
  · intro exited
    cases exited
  · exact early old isOld

theorem early_step {action : RegionAction} (early : Early state)
    (stepped : state.step session action = some after) : Early after := by
  cases action with
  | enter process size =>
      cases stepped
      intro construction member
      rcases List.mem_append.mp member with old | new
      · exact early construction old
      · rw [List.mem_singleton.mp new]
        exact fun _ => rfl
  | find i =>
      obtain ⟨construction, found, isStage, done⟩ := act_eq_some stepped
      cases done
      have unassigned := early_found early found isStage rfl
      exact early_put early fun _ => unassigned
  | increment i =>
      obtain ⟨construction, found, isStage, done⟩ := act_eq_some stepped
      obtain ⟨old, _, rfl⟩ := Option.map_eq_some_iff.mp done
      have unassigned := early_found early found isStage rfl
      exact early_put early fun _ => unassigned
  | construct i =>
      obtain ⟨construction, found, isStage, done⟩ := act_eq_some stepped
      cases done
      unfold construct
      split
      · exact early_exit early _
      · have unassigned := early_found early found isStage rfl
        exact early_put early fun _ => unassigned
  | read i =>
      obtain ⟨construction, found, _, done⟩ := act_eq_some stepped
      obtain ⟨count, _, rfl⟩ := Option.map_eq_some_iff.mp done
      exact early_put early fun isEarly => by cases isEarly
  | create i =>
      obtain ⟨construction, found, _, done⟩ := act_eq_some stepped
      obtain ⟨id, _, rfl⟩ := Option.map_eq_some_iff.mp done
      unfold create
      split
      dsimp only
      split
      · exact early_put early fun isEarly => by cases isEarly
      · exact early_put early fun isEarly => by cases isEarly
      · exact early_exit early _
  | destroy i =>
      obtain ⟨construction, found, _, done⟩ := act_eq_some stepped
      obtain ⟨id, _, rfl⟩ := Option.map_eq_some_iff.mp done
      exact early_put early fun isEarly => by cases isEarly

end RegionSession

structure Consistent (state : RegionSession) : Prop where
  early : Early state
  uncounted : state.fCount = none → ∀ i, state.idAt i = none
  bounded : ∀ count, state.fCount = some count → ∀ i id, state.idAt i = some id →
    id ≤ count ∧ (state.fresh = true → id < count)
  taken : ∀ count, state.fCount = some count → state.fresh = false →
    ∃ i, state.idAt i = some count
  unique : UniqueIds state ↔ state.stale = 0

theorem uniqueIds_read_fresh {state after : RegionSession} {i count : Nat}
    (unassigned : state.idAt i = none) (larger : ∀ j id, state.idAt j = some id → id < count)
    (ids : after.idAt = Function.update state.idAt i (some count)) :
    UniqueIds after ↔ UniqueIds state := by
  have isNew : after.idAt i = some count := by rw [ids, Function.update_self]
  have isOld : ∀ j, j ≠ i → after.idAt j = state.idAt j := by
    intro j other
    rw [ids, Function.update_of_ne other]
  have assigned : ∀ j id, state.idAt j = some id → j ≠ i := by
    intro j id found same
    rw [same, unassigned] at found
    cases found
  constructor
  · intro unique j k id first second
    apply unique j k id
    · rw [isOld j (assigned j id first)]
      exact first
    · rw [isOld k (assigned k id second)]
      exact second
  · intro unique j k id first second
    by_cases isFirst : j = i
    · by_cases isSecond : k = i
      · rw [isFirst, isSecond]
      · rw [isFirst, isNew] at first
        rw [isOld k isSecond] at second
        cases first
        exact absurd (larger k _ second) (Nat.lt_irrefl _)
    · rw [isOld j isFirst] at first
      by_cases isSecond : k = i
      · rw [isSecond, isNew] at second
        cases second
        exact absurd (larger j _ first) (Nat.lt_irrefl _)
      · rw [isOld k isSecond] at second
        exact unique j k id first second

theorem Consistent.step {session : String} {state after : RegionSession} {action : RegionAction}
    (consistent : Consistent state) (noWrap : NoWrap state action)
    (stepped : state.step session action = some after) : Consistent after := by
  obtain ⟨early, uncounted, bounded, taken, unique⟩ := consistent
  have earlyAfter := RegionSession.early_step early stepped
  rcases RegionSession.step_cases stepped with
    ⟨fCount, fresh, stale, ids⟩ | ⟨count, fCount, counts, fresh, stale, ids⟩ |
    ⟨i, construction, count, found, counted, isCount, fCount, fresh, stale, ids⟩
  · refine ⟨earlyAfter, ?_, ?_, ?_, ?_⟩
    · rw [fCount, ids]
      exact uncounted
    · rw [fCount, ids, fresh]
      exact bounded
    · rw [fCount, ids, fresh]
      exact taken
    · unfold UniqueIds
      rw [ids, stale]
      exact unique
  · -- all ids are at most the old value, so they are less than the new one
    have larger : ∀ j id, state.idAt j = some id → id < count := by
      intro j id isId
      rcases counts with ⟨none, _⟩ | ⟨i, old, rfl, isOld, rfl⟩
      · rw [uncounted none j] at isId
        cases isId
      · have atMost := (bounded old isOld j id isId).1
        simp only [NoWrap, isOld, Option.getD_some] at noWrap
        rw [Nat.mod_eq_of_lt noWrap]
        omega
    refine ⟨earlyAfter, ?_, ?_, ?_, ?_⟩
    · rw [fCount]
      intro none
      cases none
    · rw [fCount, ids]
      intro count' same j id isId
      cases same
      exact ⟨Nat.le_of_lt (larger j id isId), fun _ => larger j id isId⟩
    · rw [fresh]
      intro _ _ notFresh
      cases notFresh
    · unfold UniqueIds
      rw [ids, stale]
      exact unique
  · have unassigned : state.idAt i = none := by
      rw [RegionSession.idAt, found]
      exact RegionSession.early_found early found counted rfl
    have isNew : after.idAt i = some count := by rw [ids, Function.update_self]
    refine ⟨earlyAfter, ?_, ?_, ?_, ?_⟩
    · rw [fCount]
      intro none
      cases none
    · rw [fCount, fresh]
      intro count' same j id isId
      cases same
      refine ⟨?_, fun notFresh => by cases notFresh⟩
      by_cases isRead : j = i
      · rw [isRead, isNew] at isId
        cases isId
        exact Nat.le_refl _
      · rw [ids, Function.update_of_ne isRead] at isId
        exact (bounded count isCount j id isId).1
    · rw [fCount]
      intro count' same _
      cases same
      exact ⟨i, isNew⟩
    · rw [stale]
      cases wasFresh : state.fresh with
      | true =>
          rw [uniqueIds_read_fresh unassigned _ ids, unique]
          · simp
          · intro j id isId
            exact (bounded count isCount j id isId).2 wasFresh
      | false =>
          -- the value has been read before
          obtain ⟨j, isTaken⟩ := taken count isCount wasFresh
          have other : j ≠ i := by
            intro same
            rw [same, unassigned] at isTaken
            cases isTaken
          have still : after.idAt j = some count := by
            rw [ids, Function.update_of_ne other]
            exact isTaken
          constructor
          · intro uniqueAfter
            exact absurd (uniqueAfter j i count still isNew) other
          · intro none
            simp at none

theorem consistent_of_reaches {session : String} {state : RegionSession}
    (reached : (regionSystem session).ReachesUnder NoWrap state) : Consistent state := by
  induction reached with
  | initial start =>
      cases start
      refine ⟨?_, ?_, ?_, ?_, ?_⟩
      · intro construction member
        cases member
      · intro _ i
        rfl
      · intro count none
        cases none
      · intro count none
        cases none
      · refine ⟨fun _ => rfl, ?_⟩
        intro _ i j id first
        cases first
  | step _ permitted stepped ih => exact ih.step permitted stepped

/-- Until the counter wraps around, no two regions get the same id exactly when the
counter was never read twice for an id without a count in between. -/
theorem region_ids_unique_iff {session : String} {state : RegionSession}
    (reached : (regionSystem session).ReachesUnder NoWrap state) :
    UniqueIds state ↔ state.stale = 0 :=
  (consistent_of_reaches reached).unique

/-- One after the other: the second constructor counts before it reads. -/
theorem consecutive_regions_unique : ∃ state,
    (regionSystem "s").ReachesUnder NoWrap state ∧ state.idAt 0 = some 1 ∧
    state.idAt 1 = some 2 ∧ UniqueIds state := by
  obtain ⟨state, reached, first, second, none⟩ :
      ∃ state, (regionSystem "s").ReachesUnder NoWrap state ∧ state.idAt 0 = some 1 ∧
        state.idAt 1 = some 2 ∧ state.stale = 0 :=
    TransitionSystem.reaches_of_runUnder RegionSession.start
      [.enter 0 1000, .find 0, .construct 0, .read 0, .create 0,
        .enter 1 1000, .find 1, .increment 1, .read 1, .create 1] rfl (by decide)
  exact ⟨state, reached, first, second, (region_ids_unique_iff reached).mpr none⟩

/-- Both constructors count before the first one reads: both regions get the id 2.  Both
are created, since the first is destroyed in time. -/
theorem interleaved_regions_share_id : ∃ state,
    (regionSystem "s").ReachesUnder NoWrap state ∧
    state.idAt 0 = some 2 ∧ state.idAt 1 = some 2 ∧
    state.constructions.map Construction.region = [true, true] ∧ ¬ UniqueIds state := by
  obtain ⟨state, reached, first, second, created⟩ :
      ∃ state, (regionSystem "s").ReachesUnder NoWrap state ∧ state.idAt 0 = some 2 ∧
        state.idAt 1 = some 2 ∧
        state.constructions.map Construction.region = [true, true] :=
    TransitionSystem.reaches_of_runUnder RegionSession.start
      [.enter 0 1000, .enter 1 1000, .find 0, .construct 0, .find 1, .increment 1,
        .read 0, .read 1, .create 0, .destroy 0, .create 1] rfl (by decide)
  refine ⟨state, reached, first, second, created, ?_⟩
  intro unique
  have same := unique 0 1 2 first second
  cases same

end FairMQ.Shmem
