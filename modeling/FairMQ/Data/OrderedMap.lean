import Mathlib.Order.Lattice

namespace FairMQ.Data

universe u v

structure OrderedMap (κ : Type u) (ν : Type v) [LinearOrder κ] where
  entries : List (κ × ν)
  sorted : entries.Pairwise fun earlier later => earlier.1 < later.1

namespace OrderedMap

variable {κ : Type u} {ν : Type v} [LinearOrder κ]

def empty : OrderedMap κ ν where
  entries := []
  sorted := .nil

/-- `insert` of `std::map`: an existing entry stays as it is. -/
def insertEntry (key : κ) (value : ν) : List (κ × ν) → List (κ × ν)
  | [] => [(key, value)]
  | entry :: rest =>
      if key < entry.1 then (key, value) :: entry :: rest
      else if entry.1 < key then entry :: insertEntry key value rest
      else entry :: rest

def modifyEntry (key : κ) (change : ν → ν) (entry : κ × ν) : κ × ν :=
  if entry.1 = key then (entry.1, change entry.2) else entry

theorem mem_insertEntry {key : κ} {value : ν} {entries : List (κ × ν)} {entry : κ × ν}
    (member : entry ∈ insertEntry key value entries) :
    entry = (key, value) ∨ entry ∈ entries := by
  induction entries with
  | nil =>
      simp only [insertEntry, List.mem_singleton] at member
      exact .inl member
  | cons first rest ih =>
      simp only [insertEntry] at member
      split at member
      · rcases List.mem_cons.mp member with new | old
        · exact .inl new
        · exact .inr old
      · split at member
        · rcases List.mem_cons.mp member with same | later
          · exact .inr (by simp [same])
          · rcases ih later with new | old
            · exact .inl new
            · exact .inr (List.mem_cons_of_mem _ old)
        · exact .inr member

theorem insertEntry_sorted {key : κ} {value : ν} {entries : List (κ × ν)}
    (sorted : entries.Pairwise fun earlier later => earlier.1 < later.1) :
    (insertEntry key value entries).Pairwise fun earlier later => earlier.1 < later.1 := by
  induction entries with
  | nil => simp [insertEntry]
  | cons first rest ih =>
      obtain ⟨below, sortedRest⟩ := List.pairwise_cons.mp sorted
      unfold insertEntry
      split
      · rename_i before
        refine List.pairwise_cons.mpr ⟨?_, sorted⟩
        intro entry member
        rcases List.mem_cons.mp member with same | later
        · rw [same]
          exact before
        · exact lt_trans before (below entry later)
      · split
        · rename_i after
          refine List.pairwise_cons.mpr ⟨?_, ih sortedRest⟩
          intro entry member
          rcases mem_insertEntry member with new | old
          · rw [new]
            exact after
          · exact below entry old
        · exact sorted

theorem insertEntry_of_lt {key : κ} (value : ν) {entries : List (κ × ν)}
    (above : ∀ entry ∈ entries, entry.1 < key) :
    insertEntry key value entries = entries ++ [(key, value)] := by
  induction entries with
  | nil => rfl
  | cons entry rest ih =>
      have below := above entry (by simp)
      rw [insertEntry, if_neg (not_lt_of_gt below), if_pos below,
        ih fun later member => above later (List.mem_cons_of_mem _ member)]
      rfl

theorem modifyEntry_key (key : κ) (change : ν → ν) (entry : κ × ν) :
    (modifyEntry key change entry).1 = entry.1 := by
  unfold modifyEntry
  split <;> rfl

variable (map : OrderedMap κ ν)

def get? (key : κ) : Option ν :=
  (map.entries.find? fun entry => entry.1 = key).map (·.2)

def insert (key : κ) (value : ν) : OrderedMap κ ν where
  entries := insertEntry key value map.entries
  sorted := insertEntry_sorted map.sorted

def modify (key : κ) (change : ν → ν) : OrderedMap κ ν where
  entries := map.entries.map (modifyEntry key change)
  sorted := by
    refine List.pairwise_map.mpr (map.sorted.imp ?_)
    intro earlier later below
    rw [modifyEntry_key, modifyEntry_key]
    exact below

def keys : List κ :=
  map.entries.map (·.1)

def first? : Option (κ × ν) :=
  map.entries.head?

def last? : Option (κ × ν) :=
  map.entries.getLast?

def eraseFirst : OrderedMap κ ν where
  entries := map.entries.tail
  sorted := map.sorted.tail

def erase (key : κ) : OrderedMap κ ν where
  entries := map.entries.filter fun entry => entry.1 ≠ key
  sorted := map.sorted.filter _

theorem insert_ne_nil (key : κ) (value : ν) : (map.insert key value).entries ≠ [] := by
  unfold insert insertEntry
  cases map.entries with
  | nil => simp
  | cons entry rest =>
      dsimp only
      split
      · simp
      · split <;> simp

theorem insert_entries_of_lt {key : κ} (value : ν)
    (above : ∀ entry ∈ map.entries, entry.1 < key) :
    (map.insert key value).entries = map.entries ++ [(key, value)] :=
  insertEntry_of_lt value above

theorem keys_sorted : map.keys.Pairwise (· < ·) :=
  List.pairwise_map.mpr map.sorted

theorem mem_keys {key : κ} : key ∈ map.keys ↔ ∃ value, (key, value) ∈ map.entries := by
  simp [keys]

theorem keys_modify (key : κ) (change : ν → ν) : (map.modify key change).keys = map.keys := by
  simp [keys, modify, modifyEntry_key]

theorem mem_keys_insert (key : κ) (value : ν) : key ∈ (map.insert key value).keys := by
  change key ∈ (insertEntry key value map.entries).map Prod.fst
  induction map.entries with
  | nil => simp [insertEntry]
  | cons first rest ih =>
      unfold insertEntry
      split
      · exact List.mem_cons_self ..
      · split
        · exact List.mem_cons_of_mem _ ih
        · rename_i notBefore notAfter
          have same : key = first.1 := le_antisymm (not_lt.mp notAfter) (not_lt.mp notBefore)
          simp [same]

theorem keys_insert_of_lt {key : κ} (value : ν) (above : ∀ entry ∈ map.entries, entry.1 < key) :
    (map.insert key value).keys = map.keys ++ [key] := by
  rw [keys, map.insert_entries_of_lt value above, List.map_append]
  rfl

theorem last?_modify {key : κ} {value : ν} (last : map.last? = some (key, value))
    (change : ν → ν) : (map.modify key change).last? = some (key, change value) := by
  change (map.entries.map _).getLast? = _
  rw [List.getLast?_map, show map.entries.getLast? = some (key, value) from last]
  simp [modifyEntry]

theorem mem_of_get? {key : κ} {value : ν} (found : map.get? key = some value) :
    (key, value) ∈ map.entries := by
  obtain ⟨entry, isEntry, isValue⟩ := Option.map_eq_some_iff.mp found
  have isKey : entry.1 = key := by simpa using List.find?_some isEntry
  have member := List.mem_of_find?_eq_some isEntry
  rw [← isKey, ← isValue]
  exact member

theorem get?_eq_none_iff {key : κ} :
    map.get? key = none ↔ ∀ entry ∈ map.entries, entry.1 ≠ key := by
  simp [get?, List.find?_eq_none]

theorem le_last {key : κ} {value : ν} (last : map.last? = some (key, value)) :
    ∀ other ∈ map.keys, other ≤ key := by
  intro other member
  obtain ⟨front, split⟩ := List.getLast?_eq_some_iff.mp last
  have sorted := map.keys_sorted
  rw [keys, split, List.map_append] at sorted member
  cases List.mem_append.mp member with
  | inl earlier =>
      exact le_of_lt ((List.pairwise_append.mp sorted).2.2 other earlier key (by simp))
  | inr same => exact le_of_eq (List.mem_singleton.mp same)

theorem last?_of_le {key : κ} {value : ν} (member : (key, value) ∈ map.entries)
    (largest : ∀ entry ∈ map.entries, entry.1 ≤ key) : map.last? = some (key, value) := by
  obtain ⟨front, back, split⟩ := List.append_of_mem member
  have sorted := map.sorted
  rw [split] at sorted
  cases back with
  | nil => simp [last?, split]
  | cons next rest =>
      have above : key < next.1 :=
        (List.pairwise_cons.mp (List.pairwise_append.mp sorted).2.1).1 next (by simp)
      have below := largest next (by simp [split])
      exact absurd above (not_lt_of_ge below)

theorem keys_of_first {key : κ} {value : ν} (first : map.first? = some (key, value)) :
    map.keys = key :: map.eraseFirst.keys := by
  obtain ⟨rest, split⟩ := List.head?_eq_some_iff.mp first
  simp [keys, eraseFirst, split]

theorem first?_le {key : κ} {value : ν} (first : map.first? = some (key, value)) :
    ∀ other ∈ map.keys, key ≤ other := by
  intro other member
  have sorted := map.keys_sorted
  rw [map.keys_of_first first] at sorted member
  cases List.mem_cons.mp member with
  | inl same => exact le_of_eq same.symm
  | inr later => exact le_of_lt ((List.pairwise_cons.mp sorted).1 other later)

theorem exists_first {key : κ} (present : key ∈ map.keys) :
    ∃ first value, map.first? = some (first, value) := by
  obtain ⟨value, member⟩ := map.mem_keys.mp present
  have nonempty : map.first? ≠ none := by
    simpa [first?] using List.ne_nil_of_mem member
  obtain ⟨⟨first, value⟩, found⟩ := Option.ne_none_iff_exists'.mp nonempty
  exact ⟨first, value, found⟩

theorem last?_eraseFirst {second : κ × ν} (isSecond : map.eraseFirst.first? = some second) :
    map.eraseFirst.last? = map.last? := by
  obtain ⟨rest, split⟩ := List.head?_eq_some_iff.mp isSecond
  change map.entries.tail = second :: rest at split
  change map.entries.tail.getLast? = map.entries.getLast?
  cases isEntries : map.entries with
  | nil => simp [isEntries] at split
  | cons first tail =>
      rw [isEntries, List.tail_cons] at split
      rw [List.tail_cons, split, List.getLast?_cons_cons]

theorem erase_first {key : κ} {value : ν} (first : map.first? = some (key, value)) :
    map.erase key = map.eraseFirst := by
  obtain ⟨rest, split⟩ := List.head?_eq_some_iff.mp first
  have sorted := map.sorted
  rw [split] at sorted
  have kept : ∀ entry ∈ rest, entry.1 ≠ key := by
    intro entry member
    exact ne_of_gt ((List.pairwise_cons.mp sorted).1 entry member)
  unfold erase eraseFirst
  congr 1
  rw [split, List.filter_cons_of_neg (by simp), List.tail_cons]
  exact List.filter_eq_self.mpr (by simpa using kept)

theorem get?_erase_self (key : κ) : (map.erase key).get? key = none := by
  rw [get?_eq_none_iff]
  intro entry member
  simpa using (List.mem_filter.mp member).2

def All (property : ν → Prop) : Prop :=
  ∀ entry ∈ map.entries, property entry.2

variable {map} {property : ν → Prop}

theorem All.last {key : κ} {value : ν} (all : map.All property)
    (last : map.last? = some (key, value)) : property value :=
  all (key, value) (List.mem_of_getLast? last)

theorem All.insert {key : κ} {value : ν} (all : map.All property) (new : property value) :
    (map.insert key value).All property := by
  intro entry member
  rcases mem_insertEntry member with rfl | old
  · exact new
  · exact all entry old

theorem All.modify {key : κ} {change : ν → ν} (all : map.All property)
    (kept : ∀ value, property value → property (change value)) :
    (map.modify key change).All property := by
  intro entry member
  obtain ⟨old, isOld, rfl⟩ := List.mem_map.mp member
  unfold modifyEntry
  split
  · exact kept _ (all old isOld)
  · exact all old isOld

theorem All.eraseFirst (all : map.All property) : map.eraseFirst.All property := by
  intro entry member
  exact all entry (List.mem_of_mem_tail member)

end OrderedMap

end FairMQ.Data
