import Mathlib.Data.List.Nodup
import Mathlib.Data.List.Perm.Basic

namespace FairMQ.Data

universe u v

structure UnorderedMap (κ : Type u) (ν : Type v) where
  entries : List (κ × ν)
  distinct : (entries.map Prod.fst).Nodup
deriving DecidableEq

/-- How an implementation iterates over a map. -/
structure Traversal (κ : Type u) where
  order : List κ → List κ
  perm : ∀ keys, (order keys).Perm keys

namespace Traversal

variable {κ : Type u}

def oldestFirst : Traversal κ := ⟨id, fun _ => .refl _⟩

def newestFirst : Traversal κ := ⟨List.reverse, List.reverse_perm⟩

end Traversal

namespace UnorderedMap

variable {κ : Type u} {ν : Type v}

def empty : UnorderedMap κ ν where
  entries := []
  distinct := .nil

def keys (map : UnorderedMap κ ν) : List κ :=
  map.entries.map Prod.fst

def size (map : UnorderedMap κ ν) : Nat :=
  map.entries.length

variable [DecidableEq κ] (map : UnorderedMap κ ν)

def get? (key : κ) : Option ν :=
  (map.entries.find? fun entry => entry.1 = key).map Prod.snd

/-- `insert`: an existing entry stays as it is. -/
def insert (key : κ) (value : ν) : UnorderedMap κ ν :=
  if fresh : key ∈ map.keys then map
  else
    { entries := map.entries ++ [(key, value)]
      distinct := by
        rw [List.map_append]
        apply List.nodup_append.mpr ⟨map.distinct, List.nodup_singleton _, _⟩
        intro old member new isNew same
        have isKey : old = key := same.trans (List.mem_singleton.mp isNew)
        exact fresh (isKey ▸ member) }

def insertAll (entries : List (κ × ν)) : UnorderedMap κ ν :=
  entries.foldl (fun map entry => map.insert entry.1 entry.2) map

def modify (key : κ) (change : ν → ν) : UnorderedMap κ ν where
  entries := map.entries.map fun entry =>
    (entry.1, if entry.1 = key then change entry.2 else entry.2)
  distinct := by
    rw [List.map_map]
    exact map.distinct

def erase (key : κ) : UnorderedMap κ ν where
  entries := map.entries.filter fun entry => entry.1 ≠ key
  distinct := map.distinct.sublist (List.filter_sublist.map _)

def traverse (traversal : Traversal κ) : List (κ × ν) :=
  (traversal.order map.keys).filterMap fun key => (map.get? key).map (Prod.mk key)

variable {map} {key : κ} {value : ν}

theorem get?_eq_some_iff : map.get? key = some value ↔ (key, value) ∈ map.entries := by
  unfold get?
  constructor
  · intro found
    obtain ⟨entry, isEntry, rfl⟩ := Option.map_eq_some_iff.mp found
    have isKey : entry.1 = key := by simpa using List.find?_some isEntry
    rw [← isKey]
    exact List.mem_of_find?_eq_some isEntry
  · intro member
    cases found : map.entries.find? fun entry => entry.1 = key with
    | none => simpa using List.find?_eq_none.mp found _ member
    | some entry =>
        have isKey : entry.1 = key := by simpa using List.find?_some found
        have same := List.inj_on_of_nodup_map map.distinct (List.mem_of_find?_eq_some found)
          member isKey
        rw [same]
        rfl

theorem get?_modify_self (found : map.get? key = some value) (change : ν → ν) :
    (map.modify key change).get? key = some (change value) := by
  rw [get?_eq_some_iff] at found ⊢
  exact List.mem_map.mpr ⟨(key, value), found, by simp⟩

theorem get?_erase_ne {other : κ} (apart : other ≠ key) :
    (map.erase key).get? other = map.get? other := by
  apply Option.ext
  intro value
  rw [get?_eq_some_iff, get?_eq_some_iff]
  simp [erase, apart]

theorem insert_of_mem (known : key ∈ map.keys) : map.insert key value = map :=
  dif_pos known

theorem insert_entries (fresh : key ∉ map.keys) :
    (map.insert key value).entries = map.entries ++ [(key, value)] := by
  rw [insert, dif_neg fresh]

theorem mem_keys_iff : key ∈ map.keys ↔ (map.get? key).isSome := by
  rw [Option.isSome_iff_exists]
  simp only [get?_eq_some_iff, keys, List.mem_map, Prod.exists, exists_and_right, exists_eq_right]

theorem get?_insert_self (fresh : map.get? key = none) :
    (map.insert key value).get? key = some value := by
  have absent : key ∉ map.keys := by simp [mem_keys_iff, fresh]
  rw [get?_eq_some_iff, insert_entries absent]
  simp

theorem get?_insert_ne {other : κ} (apart : other ≠ key) :
    (map.insert key value).get? other = map.get? other := by
  by_cases known : key ∈ map.keys
  · rw [insert_of_mem known]
  · apply Option.ext
    intro found
    rw [get?_eq_some_iff, get?_eq_some_iff, insert_entries known]
    simp [apart]

theorem insert_of_get? {stored : ν} (found : map.get? key = some stored) :
    map.insert key value = map :=
  insert_of_mem (by simp [mem_keys_iff, found])

theorem get?_insert (map : UnorderedMap κ ν) (key other : κ) (value : ν) :
    (map.insert key value).get? other =
      (map.get? other).or (if other = key then some value else none) := by
  by_cases same : other = key
  · subst same
    cases found : map.get? other with
    | none => simp [get?_insert_self found]
    | some stored => simp [insert_of_get? found, found]
  · simp [get?_insert_ne same, same]

theorem mem_keys_insert {other : κ} :
    other ∈ (map.insert key value).keys ↔ other ∈ map.keys ∨ other = key := by
  rw [mem_keys_iff, mem_keys_iff, get?_insert, Option.isSome_or, Bool.or_eq_true]
  by_cases same : other = key <;> simp [same]

theorem get?_erase_self : (map.erase key).get? key = none := by
  apply Option.eq_none_iff_forall_ne_some.mpr
  intro value found
  rw [get?_eq_some_iff] at found
  simp [erase] at found

theorem insertAll_append (map : UnorderedMap κ ν) (first second : List (κ × ν)) :
    map.insertAll (first ++ second) = (map.insertAll first).insertAll second :=
  List.foldl_append ..

theorem get?_insertAll (map : UnorderedMap κ ν) (entries : List (κ × ν)) (key : κ) :
    (map.insertAll entries).get? key =
      (map.get? key).or ((entries.find? fun entry => entry.1 = key).map Prod.snd) := by
  induction entries generalizing map with
  | nil => simp [insertAll]
  | cons entry rest ih =>
      change ((map.insert entry.1 entry.2).insertAll rest).get? key = _
      rw [ih, get?_insert, Option.or_assoc]
      by_cases same : key = entry.1
      · simp [same]
      · simp [same, Ne.symm same]

theorem mem_entries_insertAll {map : UnorderedMap κ ν} {entries : List (κ × ν)}
    {entry : κ × ν} (member : entry ∈ (map.insertAll entries).entries) :
    entry ∈ map.entries ∨ entry ∈ entries := by
  induction entries generalizing map with
  | nil => exact .inl member
  | cons first rest ih =>
      have stored : entry ∈ ((map.insert first.1 first.2).insertAll rest).entries := member
      rcases ih stored with old | later
      · by_cases known : first.1 ∈ map.keys
        · rw [insert_of_mem known] at old
          exact .inl old
        · rw [insert_entries known, List.mem_append, List.mem_singleton] at old
          exact old.imp_right fun same => List.mem_cons.mpr (.inl same)
      · exact .inr (List.mem_cons_of_mem _ later)

theorem insertAll_cases (map : UnorderedMap κ ν) (entries : List (κ × ν)) :
    (map.keys ++ entries.map Prod.fst).Nodup ∧
        (map.insertAll entries).entries = map.entries ++ entries ∨
      ¬ (map.keys ++ entries.map Prod.fst).Nodup ∧
        (map.insertAll entries).size < map.size + entries.length := by
  induction entries generalizing map with
  | nil =>
      left
      simpa [insertAll, keys] using map.distinct
  | cons entry rest ih =>
      by_cases known : entry.1 ∈ map.keys
      · right
        constructor
        · intro distinct
          exact (List.nodup_append.mp distinct).2.2 entry.1 known entry.1 (by simp) rfl
        · have same : map.insertAll (entry :: rest) = map.insertAll rest := by
            change (map.insert entry.1 entry.2).insertAll rest = _
            rw [insert_of_mem known]
          rw [same, List.length_cons]
          rcases ih map with ⟨_, all⟩ | ⟨_, fewer⟩
          · simp only [size, all, List.length_append]
            omega
          · omega
      · have stored : (map.insert entry.1 entry.2).entries = map.entries ++ [entry] :=
          insert_entries known
        have keys : (map.insert entry.1 entry.2).keys ++ rest.map Prod.fst =
            map.keys ++ (entry :: rest).map Prod.fst := by
          simp [UnorderedMap.keys, stored]
        have size : (map.insert entry.1 entry.2).size + rest.length =
            map.size + (entry :: rest).length := by
          simp only [UnorderedMap.size, stored, List.length_append, List.length_cons,
            List.length_nil]
          omega
        have step := ih (map.insert entry.1 entry.2)
        rw [keys, size, stored, List.append_assoc] at step
        exact step

theorem empty_insertAll {entries : List (κ × ν)} (distinct : (entries.map Prod.fst).Nodup) :
    ((empty : UnorderedMap κ ν).insertAll entries).entries = entries := by
  rcases (empty : UnorderedMap κ ν).insertAll_cases entries with ⟨_, all⟩ | ⟨repeated, _⟩
  · exact all
  · exact absurd distinct repeated

theorem insertAll_size_le (map : UnorderedMap κ ν) (entries : List (κ × ν)) :
    (map.insertAll entries).size ≤ map.size + entries.length := by
  rcases map.insertAll_cases entries with ⟨_, all⟩ | ⟨_, fewer⟩
  · simp [size, all]
  · omega

theorem traverse_oldestFirst (map : UnorderedMap κ ν) :
    map.traverse .oldestFirst = map.entries := by
  change (map.entries.map Prod.fst).filterMap _ = _
  rw [List.filterMap_map]
  have each : ∀ entry ∈ map.entries,
      ((fun key => (map.get? key).map (Prod.mk key)) ∘ Prod.fst) entry = some entry := by
    intro entry member
    simp [get?_eq_some_iff.mpr member]
  rw [List.filterMap_congr each, List.filterMap_some]

theorem traverse_perm (map : UnorderedMap κ ν) (traversal : Traversal κ) :
    (map.traverse traversal).Perm map.entries := by
  have reordered := (traversal.perm map.keys).filterMap
    fun key => (map.get? key).map (Prod.mk key)
  rw [← map.traverse_oldestFirst]
  exact reordered

theorem entries_of_only (only : ∀ other ∈ map.keys, other = key) :
    map.entries = ((map.get? key).map (Prod.mk key)).toList := by
  have distinct := map.distinct
  cases isEntries : map.entries with
  | nil => simp [get?, isEntries]
  | cons entry entries =>
      have isKey : entry.1 = key := only entry.1 (by simp [keys, isEntries])
      have single : entries = [] := by
        cases entries with
        | nil => rfl
        | cons second entries =>
            have isSecond : second.1 = key := only second.1 (by simp [keys, isEntries])
            rw [isEntries] at distinct
            simp [isKey, isSecond] at distinct
      subst isKey
      simp [get?, isEntries, single]

theorem traverse_of_only (only : ∀ other ∈ map.keys, other = key) (traversal : Traversal κ) :
    map.traverse traversal = ((map.get? key).map (Prod.mk key)).toList := by
  have same := map.traverse_perm traversal
  rw [entries_of_only only] at same
  cases found : map.get? key with
  | none => simpa [found] using same
  | some value => simpa [found] using same

end UnorderedMap

end FairMQ.Data
