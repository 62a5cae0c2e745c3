import FairMQ.Data.Keys
import FairMQ.Data.TransitionSystem
import Mathlib.Logic.Function.Basic

namespace FairMQ.Shmem

open FairMQ.Data

def regionName (session : String) (id : Nat) : String :=
  "fmq_" ++ session ++ "_rg" ++ "_" ++ toString id

def queueName (session : String) (id : Nat) : String :=
  "fmq_" ++ session ++ "_rgq" ++ "_" ++ toString id

/-- An entry of `fRegions`; `session` is the `fSessionName` of its manager. -/
structure Region where
  session : String
  id : Nat
  fRemote : Bool
deriving DecidableEq, Repr

/-- The static table of a process, and the sizes of the shared-memory objects that
exist on the machine. -/
structure Process where
  fRegions : List Region
  objects : String → Option Nat

/-- A pointer to the region, a null pointer, or an `interprocess_exception`. -/
inductive CreateResult where
  | created
  | nullptr
  | exception
deriving DecidableEq, Repr

/-- Ten thousand `RegionBlock`s. -/
def queueSize : Nat := 10000 * 24

namespace Process

def find (process : Process) (id : Nat) : Option Region :=
  process.fRegions.find? fun region => region.id = id

def setObject (process : Process) (name : String) (object : Option Nat) : Process :=
  { process with objects := Function.update process.objects name object }

def removeNames (process : Process) (region : Region) : Process :=
  if region.fRemote then process
  else (process.setObject (regionName region.session region.id) none).setObject
    (queueName region.session region.id) none

/-- `create_only` fails on a name that exists; an object without bytes cannot be mapped.
A constructor that throws leaves behind what it has created. -/
def createRegion (process : Process) (session : String) (size id : Nat) :
    CreateResult × Process :=
  match process.find id with
  | some _ => (.nullptr, process)
  | none =>
      match process.objects (regionName session id) with
      | some _ => (.exception, process)
      | none =>
          let truncated := process.setObject (regionName session id) (some size)
          match truncated.objects (queueName session id) with
          | some _ => (.exception, truncated)
          | none =>
              let queued := truncated.setObject (queueName session id) (some queueSize)
              if size = 0 then (.exception, queued)
              else (.created, { queued with fRegions := ⟨session, id, false⟩ :: queued.fRegions })

/-- A region that is not in the table is opened by its names; the exception of a failed
attempt is caught. -/
def getRemoteRegion (process : Process) (session : String) (id : Nat) :
    Option Region × Process :=
  match process.find id with
  | some region => (some region, process)
  | none =>
      match process.objects (regionName session id), process.objects (queueName session id) with
      | some size, some _ =>
          if size = 0 then (none, process)
          else
            (some ⟨session, id, true⟩,
              { process with fRegions := ⟨session, id, true⟩ :: process.fRegions })
      | _, _ => (none, process)

def removeRegion (process : Process) (id : Nat) : Process :=
  match process.find id with
  | none => process
  | some region =>
      { process with fRegions := process.fRegions.filter fun other => other.id ≠ id }.removeNames
        region

/-- `Manager::Resume` closes the remote regions of all managers. -/
def resume (process : Process) : Process :=
  { process with fRegions := process.fRegions.filter fun region => !region.fRemote }

end Process

/-- A call on a manager of a session, or another process of the machine that creates,
resizes or removes an object. -/
inductive ManagerCall where
  | createRegion (session : String) (size id : Nat)
  | getRemoteRegion (session : String) (id : Nat)
  | removeRegion (session : String) (id : Nat)
  | resume
  | elsewhere (name : String) (object : Option Nat)
deriving DecidableEq, Repr

def Process.step (process : Process) : ManagerCall → Process
  | .createRegion session size id => (process.createRegion session size id).2
  | .getRemoteRegion session id => (process.getRemoteRegion session id).2
  | .removeRegion _ id => process.removeRegion id
  | .resume => process.resume
  | .elsewhere name object => process.setObject name object

/-- A process starts without regions, on a machine with any objects. -/
def managerSystem : TransitionSystem Process ManagerCall where
  initial process := process.fRegions = []
  step process call := some (process.step call)

def HasRegion (process : Process) (session : String) (id : Nat) : Prop :=
  (∃ region, process.find id = some region ∧ region.session = session) ∨
    (process.objects (regionName session id)).isSome ∨
    (process.objects (queueName session id)).isSome

/-- The two calls on a manager of a session that depend on what is there already. -/
structure Isolated (process : Process) (session : String) (size id : Nat) : Prop where
  remote : ∀ region, (process.getRemoteRegion session id).1 = some region →
    region.session = session ∧ region.id = id
  create : (process.createRegion session size id).1 ≠ .created → HasRegion process session id

section Names

theorem name_cut {front front' : String} {id id' : Nat}
    (same : front ++ "_" ++ toString id = front' ++ "_" ++ toString id') :
    front = front' ∧ id = id' := by
  obtain ⟨fronts, ids⟩ := cut_injective rfl (digits_free (by decide) id)
    (digits_free (by decide) id') same
  exact ⟨fronts, toString_injective ids⟩

theorem regionName_ne_queueName (session session' : String) (id id' : Nat) :
    regionName session id ≠ queueName session' id' := by
  intro same
  obtain ⟨fronts, _⟩ := name_cut same
  have last := congrArg (fun text => text.toList.getLast?) fronts
  have region : "_rg".toList.getLast? = some 'g' := rfl
  have queue : "_rgq".toList.getLast? = some 'q' := rfl
  simp only [String.toList_append, List.getLast?_append, region, queue, Option.some_or,
    Option.some.injEq] at last
  exact absurd last (by decide)

end Names

section Calls

variable {process : Process} {session other : String} {size id otherId : Nat} {region : Region}

theorem find_id (found : process.find id = some region) : region.id = id := by
  simpa using List.find?_some found

theorem setObject_ne {name kept : String} (object : Option Nat) (different : kept ≠ name) :
    (process.setObject name object).objects kept = process.objects kept :=
  Function.update_of_ne different _ _

theorem getRemoteRegion_found (found : process.find id = some region) :
    (process.getRemoteRegion session id).1 = some region := by
  simp only [Process.getRemoteRegion, found]

theorem getRemoteRegion_opened (absent : process.find id = none)
    (opened : (process.getRemoteRegion session id).1 = some region) :
    region = ⟨session, id, true⟩ := by
  simp only [Process.getRemoteRegion, absent] at opened
  split at opened
  · split at opened <;> cases opened
    rfl
  · cases opened

theorem createRegion_fails (failed : (process.createRegion session size id).1 ≠ .created) :
    (∃ region, process.find id = some region) ∨
      (process.objects (regionName session id)).isSome ∨
      (process.objects (queueName session id)).isSome ∨ size = 0 := by
  unfold Process.createRegion at failed
  split at failed
  · rename_i region found
    exact .inl ⟨region, found⟩
  · split at failed
    · rename_i taken
      simp [taken]
    · dsimp only at failed
      rw [setObject_ne _ (regionName_ne_queueName _ _ _ _).symm] at failed
      split at failed
      · rename_i taken
        simp [taken]
      · split at failed
        · rename_i empty
          simp [empty]
        · exact absurd rfl failed

theorem createRegion_empty : (process.createRegion session 0 id).1 ≠ .created := by
  unfold Process.createRegion
  split
  · simp
  · split
    · simp
    · simp only
      split <;> simp

end Calls

/-- Whatever the managers of a process have done before: a call for an id sees its own
session exactly when the table holds no region of another session under this id.  An
empty region cannot be created. -/
theorem sessions_isolated_iff (process : Process) (session : String) (size id : Nat) :
    Isolated process session size id ↔
      (∀ region, process.find id = some region → region.session = session) ∧
        (size = 0 → HasRegion process session id) := by
  constructor
  · intro isolated
    constructor
    · intro region found
      exact (isolated.remote region (getRemoteRegion_found found)).1
    · intro empty
      apply isolated.create
      rw [empty]
      exact createRegion_empty
  · rintro ⟨own, empty⟩
    constructor
    · intro region returned
      cases found : process.find id with
      | some entry =>
          rw [getRemoteRegion_found found] at returned
          cases returned
          exact ⟨own region found, find_id found⟩
      | none =>
          rw [getRemoteRegion_opened found returned]
          exact ⟨rfl, rfl⟩
    · intro failed
      rcases createRegion_fails failed with ⟨region, found⟩ | named | queued | isEmpty
      · exact .inl ⟨region, found, own region found⟩
      · exact .inr (.inl named)
      · exact .inr (.inr queued)
      · exact empty isEmpty

def bareProcess : Process := ⟨[], fun _ => none⟩

/-- Session `a` has a region 1; session `b` is given it as its own and cannot create one. -/
theorem foreign_region_returned : ∃ process,
    managerSystem.Reaches process ∧
    (process.getRemoteRegion "b" 1).1 = some ⟨"a", 1, false⟩ ∧
    (process.createRegion "b" 1000 1).1 = .nullptr ∧
    process.objects (regionName "b" 1) = none ∧ process.objects (queueName "b" 1) = none ∧
    ¬ Isolated process "b" 1000 1 := by
  obtain ⟨process, reached, returned, refused, object, queue⟩ :
      ∃ process, managerSystem.ReachesUnder (fun _ _ => True) process ∧
        (process.getRemoteRegion "b" 1).1 = some ⟨"a", 1, false⟩ ∧
        (process.createRegion "b" 1000 1).1 = .nullptr ∧
        process.objects (regionName "b" 1) = none ∧ process.objects (queueName "b" 1) = none :=
    TransitionSystem.reaches_of_runUnder bareProcess [.createRegion "a" 1000 1] rfl (by decide)
  refine ⟨process, reached, returned, refused, object, queue, ?_⟩
  intro isolated
  have own := (isolated.remote _ returned).1
  exact absurd own (by decide)

end FairMQ.Shmem
