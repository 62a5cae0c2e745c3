import FairMQ.Data.FirstMax
import FairMQ.Data.MachineInt
import FairMQ.SchedulerFlpEpn.History
import Mathlib.Data.Finset.Card
import Mathlib.Data.Finset.Range

namespace FairMQ.SchedulerFlpEpn

open FairMQ.Data

/-- An entry of `generateArray1`: the reported slots, converted to `int`, of an
EPN whose last report is at most five seconds older than the latest row. -/
def slotsOf (latestKey : Nat) (info : EpnInfo) : Int :=
  if latestKey ≤ uint64Add info.ts 5000 then toInt32 info.memVal else -1

def Scheduler.generateArray1 (scheduler : Scheduler) : Option (List Int) :=
  match scheduler.history.last? with
  | none => none
  | some (latestKey, row) =>
      if scheduler.numEPNS ≤ row.length then
        some ((row.take scheduler.numEPNS).map (slotsOf latestKey))
      else none

/-- The loop of `maxSearch` with its `max` and its `int index`; the loop
variable is a `uint64_t`. -/
def maxScan : List Int → Nat → Int × Int → Int × Int
  | [], _, state => state
  | value :: rest, i, (max, index) =>
      if max < value then maxScan rest (i + 1) (value, toInt32 i)
      else maxScan rest (i + 1) (max, index)

/-- The end of `maxSearch`; `none` is an access outside the array or an overflow
of `index + 1`. -/
def takeAt (arr : List Int) (index : Int) : Option (Int × List Int) :=
  if index < 0 then none
  else
    match arr[index.toNat]? with
    | none => none
    | some value =>
        if value = -1 then some (-1, arr)
        else if index + 1 < 2 ^ 31 then some (index + 1, arr.set index.toNat (-1))
        else none

def maxSearch (arr : List Int) : Option (Int × List Int) :=
  match arr with
  | [] => none
  | first :: rest => takeAt arr (maxScan rest 1 (first, 0)).2

def pushMaxima : Nat → List Int → Option (List Nat)
  | 0, _ => some []
  | count + 1, arr =>
      match maxSearch arr with
      | none => none
      | some (maxIndex, rest) => (pushMaxima count rest).map (toUint64 maxIndex :: ·)

def Scheduler.generateSchedule (scheduler : Scheduler) (amountEPNs : Nat) : Option (List Nat) :=
  match scheduler.generateArray1 with
  | none => none
  | some arr => pushMaxima amountEPNs arr

/-- `flp::Run` converts the entry to `int` and uses it as the number of one of
the `numEPNS` sub-channels of `data`. -/
def InRange (numEPNS : Nat) (entry : Nat) : Prop :=
  1 ≤ toInt32 entry ∧ toInt32 entry ≤ numEPNS

def Executable (numEPNS : Nat) (schedule : Option (List Nat)) : Prop :=
  ∃ entries, schedule = some entries ∧ ∀ entry ∈ entries, InRange numEPNS entry

/-- The entry can be chosen: it holds slots, its number fits into an `int`, and
no entry beyond the range of `int` is searched first. -/
def usable (arr : List Int) (i : Nat) : Bool :=
  decide (i + 1 < 2 ^ 31) &&
    arr[i]?.any fun value => decide (0 ≤ value) && (arr.drop (2 ^ 31 - 1)).all (· ≤ value)

def usableCount (arr : List Int) : Nat :=
  ((Finset.range arr.length).filter fun i => usable arr i = true).card

def leftover (arr : List Int) : List Int :=
  arr.mapIdx fun i value => if usable arr i then -1 else value

/-- `maxSearch` chooses entry `q`: the first maximum, its position taken as an
`int`, leads to an entry other than `-1`. -/
def Picks (arr : List Int) (q : Nat) : Prop :=
  (∃ position best, IsFirstMax arr position best ∧ toInt32 position = q) ∧
    q + 1 < 2 ^ 31 ∧ ∃ value, arr[q]? = some value ∧ value ≠ -1

/-- `amountEPNs` does not exceed the usable EPNs, or exceeds them by one and the
leftover (slots below `-1`, or an EPN number beyond `int`) passes for an EPN. -/
def Coverable (arr : List Int) (amountEPNs : Nat) : Prop :=
  amountEPNs ≤ usableCount arr ∨
    amountEPNs = usableCount arr + 1 ∧ ∃ q, Picks (leftover arr) q

theorem maxScan_isFirstMax {scanned : List Int} {position : Nat} {best : Int}
    (isMax : IsFirstMax scanned position best) (rest : List Int) :
    ∃ position' best', IsFirstMax (scanned ++ rest) position' best' ∧
      maxScan rest scanned.length (best, toInt32 position) = (best', toInt32 position') := by
  induction rest generalizing scanned position best with
  | nil => exact ⟨position, best, by simpa using isMax, rfl⟩
  | cons value rest ih =>
      by_cases greater : best < value
      · obtain ⟨position', best', isMax', scan⟩ := ih (isMax.replace greater)
        refine ⟨position', best', by simpa using isMax', ?_⟩
        rw [maxScan, if_pos greater]
        simpa using scan
      · obtain ⟨position', best', isMax', scan⟩ := ih (isMax.keep greater)
        refine ⟨position', best', by simpa using isMax', ?_⟩
        rw [maxScan, if_neg greater]
        simpa using scan

theorem maxSearch_isFirstMax (first : Int) (rest : List Int) :
    ∃ position best, IsFirstMax (first :: rest) position best ∧
      maxSearch (first :: rest) = takeAt (first :: rest) (toInt32 position) := by
  obtain ⟨position, best, isMax, scan⟩ := maxScan_isFirstMax (.singleton first) rest
  refine ⟨position, best, isMax, ?_⟩
  have start : toInt32 0 = 0 := by decide
  simp only [List.length_singleton, start] at scan
  rw [maxSearch, scan]

theorem takeAt_eq_some {arr rest : List Int} {index result : Int}
    (taken : takeAt arr index = some (result, rest)) :
    result = -1 ∧ rest = arr ∨ ∃ q : Nat, index = q ∧ q + 1 < 2 ^ 31 ∧
      (∃ value, arr[q]? = some value ∧ value ≠ -1) ∧ result = q + 1 ∧ rest = arr.set q (-1) := by
  unfold takeAt at taken
  split at taken
  · contradiction
  · rename_i nonnegative
    split at taken
    · contradiction
    · rename_i value found
      split at taken
      · simp only [Option.some.injEq, Prod.mk.injEq] at taken
        exact .inl ⟨taken.1.symm, taken.2.symm⟩
      · rename_i marked
        split at taken
        · rename_i fits
          simp only [Option.some.injEq, Prod.mk.injEq] at taken
          refine .inr ⟨index.toNat, by omega, by omega, ⟨value, found, marked⟩, by omega, ?_⟩
          exact taken.2.symm
        · contradiction

theorem Picks.maxSearch {arr : List Int} {q : Nat} (picks : Picks arr q) :
    maxSearch arr = some ((q : Int) + 1, arr.set q (-1)) := by
  obtain ⟨⟨position, best, isMax, index⟩, fits, value, found, marked⟩ := picks
  cases arr with
  | nil => simp at found
  | cons first rest =>
      obtain ⟨position', best', isMax', search⟩ := maxSearch_isFirstMax first rest
      rw [search, isMax'.unique isMax, index]
      have nonnegative : ¬ ((q : Int) < 0) := by omega
      rw [takeAt, if_neg nonnegative]
      simp only [Int.toNat_natCast, found, marked, if_false]
      rw [if_pos (by omega)]

theorem inRange_of_picked {numEPNS q : Nat} (fits : q + 1 < 2 ^ 31) (inside : q < numEPNS) :
    InRange numEPNS (toUint64 ((q : Int) + 1)) := by
  unfold InRange
  rw [toInt32_toUint64 (by omega) (by omega)]
  omega

theorem not_inRange_sentinel (numEPNS : Nat) : ¬ InRange numEPNS (toUint64 (-1)) := by
  unfold InRange
  rw [toInt32_toUint64 (by omega) (by omega)]
  omega

theorem executable_succ {arr : List Int} {count : Nat} :
    Executable arr.length (pushMaxima (count + 1) arr) ↔
      ∃ q, Picks arr q ∧ Executable arr.length (pushMaxima count (arr.set q (-1))) := by
  refine ⟨?_, ?_⟩
  · intro executable
    obtain ⟨entries, pushed, inRange⟩ := executable
    rw [pushMaxima] at pushed
    cases arr with
    | nil => simp [maxSearch] at pushed
    | cons first tail =>
        obtain ⟨position, best, isMax, search⟩ := maxSearch_isFirstMax first tail
        split at pushed
        · contradiction
        · rename_i result rest found
          obtain ⟨later, laterPushed, rfl⟩ := Option.map_eq_some_iff.mp pushed
          rcases takeAt_eq_some (search.symm.trans found) with
            ⟨sentinel, _⟩ | ⟨q, index, fits, chosen, rfl, rfl⟩
          · have bad := inRange _ (List.mem_cons_self ..)
            rw [sentinel] at bad
            exact absurd bad (not_inRange_sentinel _)
          · refine ⟨q, ⟨⟨position, best, isMax, index⟩, fits, chosen⟩, later, laterPushed, ?_⟩
            intro entry member
            exact inRange entry (List.mem_cons_of_mem _ member)
  · intro picked
    obtain ⟨q, picks, entries, pushed, inRange⟩ := picked
    have inside : q < arr.length := by
      obtain ⟨_, _, value, found, _⟩ := picks
      exact (List.getElem?_eq_some_iff.mp found).1
    refine ⟨toUint64 (q + 1) :: entries, ?_, ?_⟩
    · simp [pushMaxima, picks.maxSearch, pushed]
    · intro entry member
      rcases List.mem_cons.mp member with rfl | later
      · exact inRange_of_picked picks.2.1 inside
      · exact inRange entry later

theorem usable_iff {arr : List Int} {i : Nat} :
    usable arr i = true ↔ i + 1 < 2 ^ 31 ∧ ∃ value, arr[i]? = some value ∧ 0 ≤ value ∧
      ∀ (j : Nat) (other : Int), 2 ^ 31 ≤ j + 1 → arr[j]? = some other → other ≤ value := by
  have beyond : ∀ value, (arr.drop (2 ^ 31 - 1)).all (· ≤ value) = true ↔
      ∀ (j : Nat) (other : Int), 2 ^ 31 ≤ j + 1 → arr[j]? = some other → other ≤ value := by
    intro value
    simp only [List.all_eq_true, decide_eq_true_eq]
    refine ⟨?_, ?_⟩
    · intro bounded j other high found
      refine bounded other (List.mem_of_getElem? (i := j - (2 ^ 31 - 1)) ?_)
      rw [List.getElem?_drop]
      rw [show 2 ^ 31 - 1 + (j - (2 ^ 31 - 1)) = j by omega]
      exact found
    · intro bounded other member
      obtain ⟨k, found⟩ := List.mem_iff_getElem?.mp member
      rw [List.getElem?_drop] at found
      exact bounded _ other (by omega) found
  simp only [usable, Bool.and_eq_true, decide_eq_true_eq, Option.any_eq_true, beyond]

section Selection

variable {arr : List Int} {position : Nat} {best : Int}

theorem usable_firstMax {i : Nat} (isMax : IsFirstMax arr position best)
    (isUsable : usable arr i = true) : usable arr position = true ∧ Picks arr position := by
  obtain ⟨fits, value, found, nonnegative, dominates⟩ := usable_iff.mp isUsable
  have atLeast := isMax.greatest i value found
  have low : position + 1 < 2 ^ 31 := by
    by_contra high
    have notGreater := dominates position best (by omega) isMax.found
    have earlier := isMax.first i value (by omega) found
    omega
  refine ⟨usable_iff.mpr ⟨low, best, isMax.found, by omega, ?_⟩, ?_⟩
  · intro j other _ otherFound
    exact isMax.greatest j other otherFound
  · have same : toInt32 position = position := toInt32_of_lt (by omega)
    exact ⟨⟨position, best, isMax, same⟩, low, best, isMax.found, by omega⟩

theorem exists_usable_firstMax {i : Nat} (isUsable : usable arr i = true) :
    ∃ position best, IsFirstMax arr position best ∧ usable arr position = true ∧
      Picks arr position := by
  obtain ⟨_, value, found, _⟩ := usable_iff.mp isUsable
  cases arr with
  | nil => simp at found
  | cons first rest =>
      obtain ⟨position, best, isMax, _⟩ := maxSearch_isFirstMax first rest
      exact ⟨position, best, isMax, usable_firstMax isMax isUsable⟩

theorem usable_set (low : position + 1 < 2 ^ 31) (i : Nat) :
    usable (arr.set position (-1)) i = true ↔ usable arr i = true ∧ i ≠ position := by
  have same : ∀ j, j ≠ position → (arr.set position (-1))[j]? = arr[j]? := by
    intro j other
    exact List.getElem?_set_ne (fun equal => other equal.symm)
  have beyond : ∀ j, 2 ^ 31 ≤ j + 1 → (arr.set position (-1))[j]? = arr[j]? := by
    intro j high
    exact same j (by omega)
  rw [usable_iff, usable_iff]
  by_cases isPosition : i = position
  · subst isPosition
    refine ⟨?_, fun absent => absurd rfl absent.2⟩
    intro isUsable
    obtain ⟨_, value, found, nonnegative, _⟩ := isUsable
    rw [List.getElem?_set_self'] at found
    obtain ⟨_, _, marked⟩ := Option.map_eq_some_iff.mp found
    simp only [Function.const_apply] at marked
    omega
  · rw [same i isPosition]
    refine ⟨?_, ?_⟩
    · intro isUsable
      obtain ⟨fits, value, found, nonnegative, dominates⟩ := isUsable
      refine ⟨⟨fits, value, found, nonnegative, ?_⟩, isPosition⟩
      intro j other high otherFound
      exact dominates j other high ((beyond j high).trans otherFound)
    · intro isUsable
      obtain ⟨⟨fits, value, found, nonnegative, dominates⟩, _⟩ := isUsable
      refine ⟨fits, value, found, nonnegative, ?_⟩
      intro j other high otherFound
      exact dominates j other high ((beyond j high).symm.trans otherFound)

theorem card_filter_erase {counts countsLeft : Nat → Bool} {length : Nat}
    (inside : position < length) (counted : counts position = true)
    (others : ∀ i, countsLeft i = true ↔ counts i = true ∧ i ≠ position) :
    ((Finset.range length).filter fun i => counts i = true).card =
      ((Finset.range length).filter fun i => countsLeft i = true).card + 1 := by
  have removed : (Finset.range length).filter (fun i => countsLeft i = true) =
      ((Finset.range length).filter fun i => counts i = true).erase position := by
    ext i
    simp only [Finset.mem_filter, Finset.mem_range, others, Finset.mem_erase]
    tauto
  have member : position ∈ (Finset.range length).filter fun i => counts i = true := by
    simp [inside, counted]
  rw [removed, Finset.card_erase_of_mem member]
  have positive := Finset.card_pos.mpr ⟨position, member⟩
  omega

theorem usableCount_set (isUsable : usable arr position = true) :
    usableCount arr = usableCount (arr.set position (-1)) + 1 := by
  obtain ⟨low, value, found, _⟩ := usable_iff.mp isUsable
  unfold usableCount
  rw [List.length_set]
  exact card_filter_erase (List.getElem?_eq_some_iff.mp found).1 isUsable (usable_set low)

theorem leftover_set (isUsable : usable arr position = true) :
    leftover (arr.set position (-1)) = leftover arr := by
  obtain ⟨low, _⟩ := usable_iff.mp isUsable
  refine List.ext_getElem? fun i => ?_
  simp only [leftover, List.getElem?_mapIdx]
  by_cases isPosition : i = position
  · subst isPosition
    rw [List.getElem?_set_self']
    cases arr[i]? with
    | none => rfl
    | some value => simp [isUsable]
  · have same : usable (arr.set position (-1)) i = usable arr i := by
      rw [Bool.eq_iff_iff, usable_set low]
      tauto
    rw [List.getElem?_set_ne (fun equal => isPosition equal.symm), same]

theorem leftover_of_unusable (unusable : ∀ i, usable arr i = false) : leftover arr = arr := by
  refine List.ext_getElem? fun i => ?_
  simp [leftover, List.getElem?_mapIdx, unusable]

theorem Picks.exhausted {q : Nat} (unusable : ∀ i, usable arr i = false) (picks : Picks arr q) :
    FairMQ.SchedulerFlpEpn.maxSearch (arr.set q (-1)) = some (-1, arr.set q (-1)) := by
  obtain ⟨⟨position, best, isMax, index⟩, fits, value, found, unmarked⟩ := picks
  have inside : q < arr.length := (List.getElem?_eq_some_iff.mp found).1
  have marked : (arr.set q (-1))[q]? = some (-1) := List.getElem?_set_self inside
  have other : ∀ j, j ≠ q → (arr.set q (-1))[j]? = arr[j]? := by
    intro j distinct
    exact List.getElem?_set_ne (fun equal => distinct equal.symm)
  -- an entry that is chosen without being the maximum stands before it
  have before : position ≠ q → q < position := by
    intro distinct
    by_contra notBefore
    rw [toInt32_of_lt (by omega)] at index
    omega
  have leads : ∃ position' best', IsFirstMax (arr.set q (-1)) position' best' ∧
      toInt32 position' = q := by
    by_cases negative : best < 0
    · refine ⟨q, -1, ⟨marked, ?_, ?_⟩, toInt32_of_lt (by omega)⟩
      · intro j value' found'
        by_cases isMarked : j = q
        · rw [isMarked, marked] at found'
          cases found'
          exact le_rfl
        · rw [other j isMarked] at found'
          have atMost := isMax.greatest j value' found'
          omega
      · intro j value' earlier found'
        rw [other j (by omega)] at found'
        by_cases isPosition : position = q
        · have less := isMax.first j value' (by omega) found'
          omega
        · have less := isMax.first j value' (earlier.trans (before isPosition)) found'
          omega
    · have distinct : position ≠ q := by
        intro same
        have isUsable := usable_iff.mpr ⟨by omega, best, isMax.found, by omega,
          fun j other _ otherFound => isMax.greatest j other otherFound⟩
        simp [unusable position] at isUsable
      refine ⟨position, best, ⟨(other position distinct).trans isMax.found, ?_, ?_⟩, index⟩
      · intro j value' found'
        by_cases isMarked : j = q
        · rw [isMarked, marked] at found'
          cases found'
          omega
        · rw [other j isMarked] at found'
          exact isMax.greatest j value' found'
      · intro j value' earlier found'
        by_cases isMarked : j = q
        · rw [isMarked, marked] at found'
          cases found'
          omega
        · rw [other j isMarked] at found'
          exact isMax.first j value' earlier found'
  obtain ⟨position', best', isMax', index'⟩ := leads
  cases rest : arr.set q (-1) with
  | nil => simp [rest] at marked
  | cons first tail =>
      rw [rest] at marked isMax'
      obtain ⟨position'', best'', isMax'', search⟩ := maxSearch_isFirstMax first tail
      have nonnegative : ¬ ((q : Int) < 0) := by omega
      rw [search, isMax''.unique isMax', index', takeAt, if_neg nonnegative]
      simp only [Int.toNat_natCast, marked, if_true]

theorem Picks.last {q next : Nat} (unusable : ∀ i, usable arr i = false) (picks : Picks arr q) :
    ¬ Picks (arr.set q (-1)) next := by
  intro again
  have search := (picks.exhausted unusable).symm.trans again.maxSearch
  simp only [Option.some.injEq, Prod.mk.injEq] at search
  omega

theorem executable_iff_coverable (amountEPNs : Nat) :
    Executable arr.length (pushMaxima amountEPNs arr) ↔ Coverable arr amountEPNs := by
  induction amountEPNs generalizing arr with
  | zero =>
      refine ⟨fun _ => .inl (Nat.zero_le _), fun _ => ⟨[], rfl, ?_⟩⟩
      intro entry member
      cases member
  | succ count ih =>
      rw [executable_succ]
      by_cases some : ∃ i, usable arr i = true
      · obtain ⟨i, isUsable⟩ := some
        obtain ⟨position, best, isMax, chosenUsable, picks⟩ := exists_usable_firstMax isUsable
        have rest : Executable (arr.set position (-1)).length
            (pushMaxima count (arr.set position (-1))) ↔
            Coverable (arr.set position (-1)) count := ih
        rw [List.length_set] at rest
        have one := usableCount_set chosenUsable
        have covers : Coverable (arr.set position (-1)) count ↔ Coverable arr (count + 1) := by
          unfold Coverable
          rw [leftover_set chosenUsable, one, Nat.add_le_add_iff_right, Nat.add_right_cancel_iff]
        refine ⟨?_, fun coverable => ⟨position, picks, rest.mpr (covers.mpr coverable)⟩⟩
        intro executable
        obtain ⟨q, picksQ, later⟩ := executable
        have same : q = position := by
          have first := picksQ.maxSearch.symm.trans picks.maxSearch
          simp only [Option.some.injEq, Prod.mk.injEq] at first
          omega
        rw [same] at later
        exact covers.mp (rest.mp later)
      · have unusable : ∀ i, usable arr i = false := by
          intro i
          cases isUsable : usable arr i with
          | false => rfl
          | true => exact absurd ⟨i, isUsable⟩ some
        have none : usableCount arr = 0 := by
          simp [usableCount, unusable]
        unfold Coverable
        rw [leftover_of_unusable unusable, none]
        refine ⟨?_, ?_⟩
        · intro executable
          obtain ⟨q, picks, later⟩ := executable
          cases count with
          | zero => exact .inr ⟨rfl, q, picks⟩
          | succ count =>
              have length : arr.length = (arr.set q (-1)).length := (List.length_set ..).symm
              rw [length, executable_succ] at later
              obtain ⟨next, again, _⟩ := later
              exact absurd again (picks.last unusable)
        · intro covered
          rcases covered with impossible | ⟨single, q, picks⟩
          · omega
          · have noMore : count = 0 := by omega
            subst noMore
            exact ⟨q, picks, [], rfl, by simp⟩

end Selection

/-- In a system whose EPN numbers and slots fit into an `int`, the schedule may
ask for as many EPNs as have reported recently enough. -/
theorem coverable_iff_valid {arr : List Int} (small : arr.length < 2 ^ 31)
    (reported : ∀ value ∈ arr, -1 ≤ value) (amountEPNs : Nat) :
    Coverable arr amountEPNs ↔ amountEPNs ≤
      ((Finset.range arr.length).filter fun i => arr[i]?.any (0 ≤ ·) = true).card := by
  have beyond : arr.drop (2 ^ 31 - 1) = [] := List.drop_eq_nil_iff.mpr (by omega)
  have valid : ∀ i, usable arr i = arr[i]?.any (0 ≤ ·) := by
    intro i
    cases found : arr[i]? with
    | none => simp [usable, found]
    | some value =>
        have inside := (List.getElem?_eq_some_iff.mp found).1
        have fits : i + 1 < 2 ^ 31 := by omega
        simp only [usable, found, beyond, Option.any_some, List.all_nil, Bool.and_true, fits,
          decide_true, Bool.true_and]
  have count : usableCount arr =
      ((Finset.range arr.length).filter fun i => arr[i]?.any (0 ≤ ·) = true).card := by
    simp only [usableCount, valid]
  rw [← count]
  refine ⟨?_, .inl⟩
  intro coverable
  rcases coverable with covered | ⟨_, q, _, _, value, found, unmarked⟩
  · exact covered
  · -- every entry of the leftover is `-1`
    simp only [leftover, List.getElem?_mapIdx, Option.map_eq_some_iff] at found
    obtain ⟨old, oldFound, rfl⟩ := found
    have lower := reported old (List.mem_of_getElem? oldFound)
    simp only [valid, oldFound, Option.any_some, decide_eq_true_eq] at unmarked
    split at unmarked
    · exact absurd rfl unmarked
    · omega

theorem WellFormed.generateArray1 {scheduler : Scheduler} (wellFormed : WellFormed scheduler) :
    ∃ arr, scheduler.generateArray1 = some arr ∧ arr.length = scheduler.numEPNS := by
  cases latest : scheduler.history.last? with
  | none =>
      have empty := List.getLast?_eq_none_iff.mp latest
      exact absurd empty wellFormed.nonempty
  | some entry =>
      obtain ⟨latestKey, row⟩ := entry
      have full := wellFormed.full.last latest
      simp only [Scheduler.generateArray1, latest, full, le_refl, if_true]
      exact ⟨_, rfl, by simp [full]⟩

/-- After any reports of known EPNs, a schedule is executable exactly when it
asks for no more EPNs than the latest row can cover. -/
theorem schedule_executable_iff {scheduler : Scheduler}
    (reached : historySystem.ReachesUnder ValidId scheduler) (amountEPNs : Nat) :
    ∃ arr, scheduler.generateArray1 = some arr ∧
      (Executable scheduler.numEPNS (scheduler.generateSchedule amountEPNs) ↔
        Coverable arr amountEPNs) := by
  obtain ⟨arr, generated, length⟩ := (wellFormed_of_reaches reached).generateArray1
  refine ⟨arr, generated, ?_⟩
  simp only [Scheduler.generateSchedule, generated]
  rw [← length]
  exact executable_iff_coverable amountEPNs

def oneReport : List Report :=
  [⟨1500000001000, 1, 4⟩]

def twoEpns : Scheduler :=
  (Scheduler.configured 2 1500000000000).initializeHistory 1500000000000

theorem one_report_covers_one :
    ∃ scheduler, historySystem.ReachesUnder ValidId scheduler ∧
      scheduler.generateArray1 = some [4, -1] ∧ Coverable [4, -1] 1 ∧
      Executable scheduler.numEPNS (scheduler.generateSchedule 1) := by
  obtain ⟨scheduler, reached, generated⟩ :
      ∃ scheduler, historySystem.ReachesUnder ValidId scheduler ∧
        scheduler.generateArray1 = some [4, -1] :=
    TransitionSystem.reaches_of_runUnder twoEpns oneReport
      ⟨2, 1500000000000, 1500000000000, rfl⟩ (by decide)
  obtain ⟨arr, same, iff⟩ := schedule_executable_iff reached 1
  rw [generated] at same
  cases same
  have coverable : Coverable [4, -1] 1 := .inl (by decide)
  exact ⟨scheduler, reached, generated, coverable, iff.mpr coverable⟩

/-- Asked for two EPNs, the scheduler sends the sentinel `2 ^ 64 - 1` to the
FLPs, which read it as EPN number `-1`. -/
theorem sentinel_reaches_flps :
    ∃ scheduler, historySystem.ReachesUnder ValidId scheduler ∧
      scheduler.generateSchedule 2 = some [1, 2 ^ 64 - 1] ∧
      ¬ Executable scheduler.numEPNS (scheduler.generateSchedule 2) := by
  obtain ⟨scheduler, reached, two, generated⟩ :
      ∃ scheduler, historySystem.ReachesUnder ValidId scheduler ∧ scheduler.numEPNS = 2 ∧
        scheduler.generateSchedule 2 = some [1, 2 ^ 64 - 1] :=
    TransitionSystem.reaches_of_runUnder twoEpns oneReport
      ⟨2, 1500000000000, 1500000000000, rfl⟩ (by decide)
  refine ⟨scheduler, reached, generated, ?_⟩
  intro executable
  obtain ⟨entries, same, inRange⟩ := executable
  rw [generated] at same
  cases same
  have bad := inRange (2 ^ 64 - 1) (by simp)
  exact absurd bad (not_inRange_sentinel _)

end FairMQ.SchedulerFlpEpn
