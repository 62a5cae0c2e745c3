import FairMQ.Data.Writes
import FairMQ.Shmem.RegionIds

namespace FairMQ.Shmem

open FairMQ.Data

def segmentName (shmId : String) : String := "fmq_" ++ shmId ++ "_main"

def managementSegmentName (shmId : String) : String := "fmq_" ++ shmId ++ "_mng"

def mutexName (shmId : String) : String := "fmq_" ++ shmId ++ "_mtx"

/-- The shared-memory objects, message queues and mutexes that exist on the machine. -/
abbrev Objects := String → Option Nat

def remove (objects : Objects) (name : String) : Objects :=
  Function.update objects name none

def removeRegion (shmId : String) (objects : Objects) (i : Nat) : Objects :=
  remove (remove objects (regionName shmId i)) (queueName shmId i)

/-- The loop ends unless its bound is the largest `unsigned int`. -/
def removeRegions (shmId : String) (objects : Objects) (regionCount : Nat) : Option Objects :=
  if regionCount = 2 ^ 32 - 1 then none
  else some ((List.range' 1 regionCount).foldl (removeRegion shmId) objects)

/-- `fCount` is the `RegionCounter` in the management segment, if that exists. -/
def cleanup (shmId : String) (fCount : Option Nat) (objects : Objects) : Option Objects :=
  let regions :=
    match objects (managementSegmentName shmId), fCount with
    | none, _ => some objects
    | some _, none => some (remove objects (managementSegmentName shmId))
    | some _, some regionCount =>
        (removeRegions shmId objects regionCount).map (remove · (managementSegmentName shmId))
  regions.map fun objects => remove (remove objects (segmentName shmId)) (mutexName shmId)

def NamedFor (session : String) (id : Nat) (name : String) : Prop :=
  name = regionName session id ∨ name = queueName session id

inductive Named (session name : String) : Prop where
  | segment (same : name = segmentName session)
  | management (same : name = managementSegmentName session)
  | mutex (same : name = mutexName session)
  | region (id : Nat) (named : NamedFor session id name)

section Objects

variable {process : Process} {session name : String} {size id : Nat}

theorem removeNames_only_removes (region : Region)
    (left : (process.removeNames region).objects name ≠ none) : process.objects name ≠ none := by
  unfold Process.removeNames at left
  split at left
  · exact left
  · intro absent
    refine left ?_
    simp only [Process.setObject, Function.update_apply, absent]
    split <;> simp

theorem exit_only_removes (regions : List Region)
    (left : (regions.foldl Process.removeNames process).objects name ≠ none) :
    process.objects name ≠ none := by
  induction regions generalizing process with
  | nil => exact left
  | cons region regions ih => exact removeNames_only_removes region (ih left)

theorem createRegion_objects
    (there : (process.createRegion session size id).2.objects name ≠ none) :
    process.objects name ≠ none ∨ NamedFor session id name := by
  by_contra none
  simp only [NamedFor, not_or, not_not] at none
  obtain ⟨absent, notRegion, notQueue⟩ := none
  refine there ?_
  unfold Process.createRegion
  split
  · exact absent
  · split
    · exact absent
    · dsimp only
      split
      · simp [Process.setObject, notRegion, absent]
      · split
        all_goals simp [Process.setObject, notRegion, notQueue, absent]

theorem removeRegion_only_removes (left : (process.removeRegion id).objects name ≠ none) :
    process.objects name ≠ none := by
  unfold Process.removeRegion at left
  split at left
  · exact left
  · have there := removeNames_only_removes _ left
    exact there

variable {state after : RegionSession} {action : RegionAction}

theorem RegionSession.step_objects (stepped : state.step session action = some after)
    (there : after.objects name ≠ none) :
    state.objects name ≠ none ∨
      ∃ i id, state.idAt i = some id ∧ NamedFor session id name := by
  cases action with
  | enter process size =>
      cases stepped
      exact .inl there
  | find i =>
      obtain ⟨construction, _, _, done⟩ := act_eq_some stepped
      cases done
      exact .inl there
  | increment i | read i =>
      obtain ⟨construction, _, _, done⟩ := act_eq_some stepped
      obtain ⟨count, _, rfl⟩ := Option.map_eq_some_iff.mp done
      exact .inl there
  | construct i =>
      obtain ⟨construction, _, _, done⟩ := act_eq_some stepped
      cases done
      unfold construct at there
      split at there
      · exact .inl (exit_only_removes _ there)
      · exact .inl there
  | create i =>
      obtain ⟨construction, found, _, done⟩ := act_eq_some stepped
      obtain ⟨id, isId, rfl⟩ := Option.map_eq_some_iff.mp done
      have made : ((state.view construction.process).createRegion session
          construction.size id).2.objects name ≠ none := by
        unfold create at there
        split at there
        rename_i result made returned
        rw [returned]
        dsimp only at there
        split at there
        · exact there
        · exact there
        · have made := exit_only_removes _ there
          exact made
      refine (createRegion_objects made).imp_right fun named => ⟨i, id, ?_, named⟩
      rw [idAt, found]
      exact isId
  | destroy i =>
      obtain ⟨construction, _, _, done⟩ := act_eq_some stepped
      obtain ⟨id, _, rfl⟩ := Option.map_eq_some_iff.mp done
      exact .inl (removeRegion_only_removes there)

end Objects

def Issued (state : RegionSession) (id : Nat) : Prop :=
  ∃ count, state.fCount = some count ∧ 1 ≤ id ∧ id ≤ count

structure Counted (session : String) (state : RegionSession) : Prop where
  positive : ∀ count, state.fCount = some count → 1 ≤ count
  ids : ∀ i id, state.idAt i = some id → Issued state id
  objects : ∀ name, state.objects name ≠ none → ∃ id, Issued state id ∧ NamedFor session id name

section Counted

variable {session : String} {state after : RegionSession} {action : RegionAction}

theorem Issued.step {id : Nat} (issued : Issued state id) (noWrap : NoWrap state action)
    (stepped : state.step session action = some after) : Issued after id := by
  obtain ⟨count, isCount, first, last⟩ := issued
  rcases RegionSession.step_cases stepped with
    ⟨same, _⟩ | ⟨_, isLarger, ⟨none, _⟩ | ⟨i, old, rfl, isOld, rfl⟩, _⟩ |
    ⟨_, _, _, _, _, isOld, isLarger, _⟩
  · exact ⟨count, same.trans isCount, first, last⟩
  · simp [isCount] at none
  · cases isCount.symm.trans isOld
    simp only [NoWrap, isOld, Option.getD_some] at noWrap
    exact ⟨_, isLarger, first, by rw [Nat.mod_eq_of_lt noWrap]; omega⟩
  · cases isCount.symm.trans isOld
    exact ⟨count, isLarger, first, last⟩

theorem Counted.step (counted : Counted session state) (noWrap : NoWrap state action)
    (stepped : state.step session action = some after) : Counted session after := by
  refine ⟨?_, ?_, ?_⟩
  · intro count isCount
    rcases RegionSession.step_cases stepped with
      ⟨same, _⟩ | ⟨_, isLarger, ⟨_, rfl⟩ | ⟨i, old, rfl, isOld, rfl⟩, _⟩ |
      ⟨_, _, _, _, _, isOld, isLarger, _⟩
    · exact counted.positive count (same.symm.trans isCount)
    all_goals cases isCount.symm.trans isLarger
    · exact Nat.le_refl _
    · simp only [NoWrap, isOld, Option.getD_some] at noWrap
      rw [Nat.mod_eq_of_lt noWrap]
      omega
    · exact counted.positive _ isOld
  · intro i id isId
    rcases RegionSession.step_cases stepped with
      ⟨_, _, _, same⟩ | ⟨_, _, _, _, _, same⟩ | ⟨j, _, _, _, _, isCount, isSame, _, _, ids⟩
    · exact (counted.ids i id (same ▸ isId)).step noWrap stepped
    · exact (counted.ids i id (same ▸ isId)).step noWrap stepped
    · rw [ids, Function.update_apply] at isId
      split at isId
      · cases isId
        exact ⟨_, isSame, counted.positive _ isCount, Nat.le_refl _⟩
      · exact (counted.ids i id isId).step noWrap stepped
  · intro name there
    rcases RegionSession.step_objects stepped there with old | ⟨i, id, isId, named⟩
    · obtain ⟨id, issued, named⟩ := counted.objects name old
      exact ⟨id, issued.step noWrap stepped, named⟩
    · exact ⟨id, (counted.ids i id isId).step noWrap stepped, named⟩

theorem counted_of_reaches (reached : (regionSystem session).ReachesUnder NoWrap state) :
    Counted session state :=
  reached.invariant
    (fun _ initially => by
      cases initially
      exact ⟨nofun, nofun, fun _ there => absurd rfl there⟩)
    fun _ _ _ counted noWrap stepped => counted.step noWrap stepped

end Counted

section Removal

variable {session name : String} {objects : Objects}

theorem remove_self : remove objects name name = none :=
  Function.update_self _ _ _

theorem remove_other {other : String} (different : other ≠ name) :
    remove objects name other = objects other :=
  Function.update_of_ne different _ _

theorem remove_none {other : String} (gone : objects other = none) :
    remove objects name other = none := by
  by_cases same : other = name
  · rw [same, remove_self]
  · rw [remove_other same, gone]

theorem removeRegion_sets {i : Nat} (named : NamedFor session i name) :
    Sets (fun objects : Objects => objects name) none (removeRegion session · i) := by
  intro objects
  rcases named with rfl | rfl
  · exact remove_none remove_self
  · exact remove_self

theorem removeRegion_keeps {i : Nat} (other : ¬ NamedFor session i name) :
    Keeps (fun objects : Objects => objects name) (removeRegion session · i) := by
  intro objects
  simp only [NamedFor, not_or] at other
  exact (remove_other other.2).trans (remove_other other.1)

theorem removeRegions_own {count id : Nat} (first : 1 ≤ id) (last : id ≤ count)
    (named : NamedFor session id name) :
    (List.range' 1 count).foldl (removeRegion session) objects name = none := by
  have member : id ∈ List.range' 1 count := List.mem_range'_1.mpr ⟨first, by omega⟩
  refine Sets.foldl member (removeRegion_sets named) ?_ objects
  intro i _
  by_cases own : NamedFor session i name
  · exact .inl (removeRegion_sets own)
  · exact .inr (removeRegion_keeps own)

theorem removeRegions_other {count : Nat} (other : ∀ id, ¬ NamedFor session id name) :
    (List.range' 1 count).foldl (removeRegion session) objects name = objects name :=
  Keeps.foldl (fun i _ => removeRegion_keeps (other i)) objects

theorem removeRegions_none {count : Nat} (gone : objects name = none) :
    (List.range' 1 count).foldl (removeRegion session) objects name = none := by
  refine List.foldlRecOn (motive := fun objects : Objects => objects name = none) _ _ gone ?_
  exact fun _ gone _ _ => remove_none (remove_none gone)

theorem cleanup_other {fCount : Option Nat} {after : Objects}
    (cleaned : cleanup session fCount objects = some after) (other : ¬ Named session name) :
    after name = objects name := by
  have notManagement : name ≠ managementSegmentName session := fun same => other (.management same)
  obtain ⟨regions, removed, rfl⟩ := Option.map_eq_some_iff.mp cleaned
  rw [remove_other fun same => other (.mutex same), remove_other fun same => other (.segment same)]
  split at removed
  · cases removed
    rfl
  · cases removed
    exact remove_other notManagement
  · obtain ⟨looped, ran, rfl⟩ := Option.map_eq_some_iff.mp removed
    rw [remove_other notManagement]
    unfold removeRegions at ran
    split at ran <;> cases ran
    exact removeRegions_other fun id named => other (.region id named)

end Removal

/-- Whatever the processes of a session have done with their regions, and whichever of them
are gone: `Cleanup` removes every object of the session, and keeps everything else. -/
theorem cleanup_removes_session {session : String} {state : RegionSession} {objects : Objects}
    (reached : (regionSystem session).ReachesUnder NoWrap state)
    (bounded : state.fCount ≠ some (2 ^ 32 - 1))
    (managed : objects (managementSegmentName session) ≠ none)
    (own : ∀ id name, NamedFor session id name → objects name = state.objects name) :
    ∃ after, cleanup session state.fCount objects = some after ∧
      (∀ name, Named session name → after name = none) ∧
      ∀ name, ¬ Named session name → after name = objects name := by
  have counted := counted_of_reaches reached
  obtain ⟨size, isManaged⟩ := Option.ne_none_iff_exists'.mp managed
  -- an object of a region has a number up to the counter, so the loop comes to it
  have issued : ∀ id name, NamedFor session id name →
      objects name = none ∨ ∃ id, Issued state id ∧ NamedFor session id name := by
    intro id name named
    rw [own id name named]
    exact or_iff_not_imp_left.mpr (counted.objects name)
  obtain ⟨looped, cleaned, gone⟩ : ∃ looped : Objects,
      cleanup session state.fCount objects = some (remove (remove
        (remove looped (managementSegmentName session)) (segmentName session))
        (mutexName session)) ∧
      ∀ id name, NamedFor session id name → looped name = none := by
    cases isCount : state.fCount with
    | none =>
        refine ⟨objects, by simp [cleanup, isManaged], ?_⟩
        intro id name named
        rcases issued id name named with none | ⟨_, ⟨count, isSome, _⟩, _⟩
        · exact none
        · simp [isCount] at isSome
    | some count =>
        rw [isCount] at bounded
        have ends : count ≠ 2 ^ 32 - 1 := fun same => bounded (by rw [same])
        refine ⟨(List.range' 1 count).foldl (removeRegion session) objects, ?_, ?_⟩
        · simp only [cleanup, isManaged, removeRegions, if_neg ends, Option.map_some]
        · intro id name named
          rcases issued id name named with none | ⟨_, ⟨_, isSome, first, last⟩, named⟩
          · exact removeRegions_none none
          · cases isCount.symm.trans isSome
            exact removeRegions_own first last named
  refine ⟨_, cleaned, ?_, fun name => cleanup_other cleaned⟩
  intro name named
  cases named with
  | segment same => subst same; exact remove_none remove_self
  | management same => subst same; exact remove_none (remove_none remove_self)
  | mutex same => subst same; exact remove_self
  | region id named => exact remove_none (remove_none (remove_none (gone id name named)))

theorem NamedFor.not_management {session name : String} {id : Nat}
    (named : NamedFor session id name) : name ≠ managementSegmentName session := by
  rintro rfl
  rcases named with same | same
  all_goals
    have lists := congrArg String.toList same
    simp only [managementSegmentName, regionName, queueName, String.toList_append,
      List.append_assoc, List.append_cancel_left_eq] at lists
    cases lists

/-- A process has destroyed its first region and crashed with its second. -/
theorem crashed_session_cleaned : ∃ (state : RegionSession) (after : Objects),
    state.objects (regionName "s" 2) = some 1000 ∧
    cleanup "s" state.fCount
      (Function.update state.objects (managementSegmentName "s") (some 65536)) = some after ∧
    after (regionName "s" 2) = none := by
  obtain ⟨state, reached, count, second⟩ :
      ∃ state, (regionSystem "s").ReachesUnder NoWrap state ∧ state.fCount = some 2 ∧
        state.objects (regionName "s" 2) = some 1000 :=
    TransitionSystem.reaches_of_runUnder RegionSession.start
      [.enter 0 1000, .find 0, .construct 0, .read 0, .create 0,
        .enter 0 1000, .find 1, .increment 1, .read 1, .create 1, .destroy 0] rfl (by decide)
  have managed : Function.update state.objects (managementSegmentName "s") (some 65536)
      (managementSegmentName "s") ≠ none := by simp
  obtain ⟨after, cleaned, gone, _⟩ := cleanup_removes_session reached (by simp [count]) managed
    fun _ _ named => Function.update_of_ne named.not_management _ _
  exact ⟨state, after, second, cleaned, gone _ (.region 2 (.inl rfl))⟩

end FairMQ.Shmem
