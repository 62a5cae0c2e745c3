import FairMQ.SchedulerFlpEpn.Schedule

namespace FairMQ.SchedulerFlpEpn

open FairMQ.Data

/-- The slots of an entry; `-1` also stands for a position beyond the array. -/
def slotsAt (arr : List Int) (i : Nat) : Int :=
  (arr[i]?).getD (-1)

def validCount (arr : List Int) : Nat :=
  arr.countP (· ≠ -1)

/-- The entry the FLPs read as "no EPN". -/
def sentinel : Nat := 2 ^ 64 - 1

/-- The schedule names the `amountEPNs` best valid EPNs, or all of them and then the
sentinel. -/
def StableTopK (arr : List Int) (amountEPNs : Nat) (schedule : List Nat) : Prop :=
  ∃ chosen, schedule = chosen.map (· + 1) ++
      List.replicate (amountEPNs - min amountEPNs (validCount arr)) sentinel ∧
    chosen.length = min amountEPNs (validCount arr) ∧
    StableTop (slotsAt arr) (fun i => slotsAt arr i ≠ -1) chosen

section Round

variable {arr : List Int} {position : Nat} {best : Int}

theorem slotsAt_set_ne {i : Nat} (other : i ≠ position) :
    slotsAt (arr.set position (-1)) i = slotsAt arr i := by
  rw [slotsAt, List.getElem?_set_ne (fun same => other same.symm)]
  rfl

theorem slotsAt_set_self : slotsAt (arr.set position (-1)) position = -1 := by
  rw [slotsAt, List.getElem?_set_self']
  cases arr[position]? with
  | none => rfl
  | some value => rfl

theorem slotsAt_of_found {value : Int} (found : arr[position]? = some value) :
    slotsAt arr position = value := by
  rw [slotsAt, found]
  rfl

theorem found_of_slotsAt {i : Nat} (valid : slotsAt arr i ≠ -1) :
    arr[i]? = some (slotsAt arr i) := by
  cases found : arr[i]? with
  | none =>
      rw [slotsAt, found] at valid
      exact absurd rfl valid
  | some value => rw [slotsAt_of_found found]

theorem valid_set {i : Nat} :
    slotsAt (arr.set position (-1)) i ≠ -1 ↔ slotsAt arr i ≠ -1 ∧ i ≠ position := by
  by_cases same : i = position
  · rw [same, slotsAt_set_self]
    simp
  · rw [slotsAt_set_ne same]
    simp [same]

theorem lower_set (lower : ∀ value ∈ arr, -1 ≤ value) :
    ∀ value ∈ arr.set position (-1), -1 ≤ value := by
  intro value member
  rcases List.mem_or_eq_of_mem_set member with old | new
  · exact lower value old
  · exact new.ge

theorem countP_set_marked {counts : Int → Bool} (found : arr[position]? = some best)
    (counted : counts best = true) (dropped : counts (-1) = false) :
    arr.countP counts = (arr.set position (-1)).countP counts + 1 := by
  obtain ⟨inside, isBest⟩ := List.getElem?_eq_some_iff.mp found
  have positive : 0 < arr.countP counts :=
    List.countP_pos_iff.mpr ⟨best, List.mem_of_getElem? found, counted⟩
  rw [List.countP_set inside, isBest, counted, dropped]
  simp only [if_true, Bool.false_eq_true, if_false]
  omega

theorem validCount_set (found : arr[position]? = some best) (valid : best ≠ -1) :
    validCount arr = validCount (arr.set position (-1)) + 1 :=
  countP_set_marked found (by simpa using valid) (by simp)

theorem toUint64_succ {q : Nat} (fits : q + 1 < 2 ^ 31) : toUint64 ((q : Int) + 1) = q + 1 := by
  unfold toUint64
  omega

theorem toUint64_neg_one : toUint64 (-1) = sentinel := by decide

theorem pushMaxima_picks {q : Nat} (picks : Picks arr q) (count : Nat) :
    pushMaxima (count + 1) arr =
      (pushMaxima count (arr.set q (-1))).map ((q + 1) :: ·) := by
  rw [pushMaxima, picks.maxSearch]
  simp only [toUint64_succ picks.2.1]

theorem pushMaxima_exhausted (exhausted : maxSearch arr = some (-1, arr)) (count : Nat) :
    pushMaxima count arr = some (List.replicate count sentinel) := by
  induction count with
  | zero => rfl
  | succ count ih =>
      rw [pushMaxima, exhausted]
      simp only [ih, Option.map_some, toUint64_neg_one, List.replicate_succ]

theorem exhausted_of_invalid (nonempty : arr ≠ []) (invalid : validCount arr = 0) :
    maxSearch arr = some (-1, arr) := by
  have marked : ∀ value ∈ arr, value = -1 := by
    intro value member
    have notValid := List.countP_eq_zero.mp invalid value member
    simpa using notValid
  cases arr with
  | nil => exact absurd rfl nonempty
  | cons first rest =>
      obtain ⟨position, best, isMax, search⟩ := maxSearch_isFirstMax first rest
      have isFirst : position = 0 := by
        by_contra later
        have less := isMax.first 0 first (by omega) rfl
        have isMarked := marked first (by simp)
        have bestMarked := marked best (List.mem_of_getElem? isMax.found)
        omega
      rw [search, isFirst, toInt32_of_lt (by omega)]
      simp [takeAt, marked first (by simp)]

theorem stableTopK_succ (isMax : IsFirstMax arr position best) (valid : best ≠ -1)
    (amountEPNs : Nat) (schedule : List Nat) :
    StableTopK arr (amountEPNs + 1) ((position + 1) :: schedule) ↔
      StableTopK (arr.set position (-1)) amountEPNs schedule := by
  have one := validCount_set isMax.found valid
  have isBest := slotsAt_of_found isMax.found
  have rounds : min (amountEPNs + 1) (validCount arr) =
      min amountEPNs (validCount (arr.set position (-1))) + 1 := by omega
  have others : ∀ i, slotsAt (arr.set position (-1)) i ≠ -1 ↔
      slotsAt arr i ≠ -1 ∧ i ≠ position := fun i => valid_set
  have kept : ∀ i, i ≠ position → slotsAt (arr.set position (-1)) i = slotsAt arr i :=
    fun i other => slotsAt_set_ne other
  unfold StableTopK
  rw [rounds, Nat.add_sub_add_right]
  constructor
  · rintro ⟨chosen, split, length, selected⟩
    cases chosen with
    | nil => simp at length
    | cons head chosen =>
        simp only [List.map_cons, List.cons_append, List.cons.injEq, Nat.add_right_cancel_iff]
          at split
        obtain ⟨rfl, rfl⟩ := split
        exact ⟨chosen, rfl, by simpa using length, selected.tail others kept⟩
  · rintro ⟨chosen, rfl, length, selected⟩
    refine ⟨position :: chosen, by simp, by simp [length], ?_⟩
    apply StableTop.cons others kept
    · simpa [isBest] using valid
    · intro j isValid
      rw [isBest]
      exact isMax.greatest j _ (found_of_slotsAt isValid)
    · intro j before isValid
      rw [isBest]
      exact isMax.first j _ before (found_of_slotsAt isValid)
    · exact selected

theorem not_stableTopK_of_unusable (lower : ∀ value ∈ arr, -1 ≤ value)
    (allocated : arr.length < 2 ^ 63) (unusable : ∀ i, usable arr i = false)
    (valid : 0 < validCount arr) {count : Nat} {schedule : List Nat}
    (pushed : pushMaxima (count + 1) arr = some schedule) :
    ¬ StableTopK arr (count + 1) schedule := by
  rintro ⟨chosen, split, length, selected⟩
  obtain ⟨value, member, isValid⟩ := List.countP_pos_iff.mp valid
  cases arr with
  | nil => cases member
  | cons first rest =>
      obtain ⟨position, best, isMax, search⟩ := maxSearch_isFirstMax first rest
      have nonnegative : 0 ≤ best := by
        obtain ⟨i, found⟩ := List.mem_iff_getElem?.mp member
        have atMost := isMax.greatest i value found
        have atLeast := lower value member
        have marked : value ≠ -1 := by simpa using isValid
        omega
      have high : 2 ^ 31 ≤ position + 1 := by
        by_contra low
        have isUsable := usable_iff.mpr ⟨by omega, best, isMax.found, nonnegative,
          fun j other _ otherFound => isMax.greatest j other otherFound⟩
        simp [unusable position] at isUsable
      cases chosen with
      | nil =>
          simp only [List.length_nil] at length
          omega
      | cons head chosen =>
          have headValid := selected.candidates head (by simp)
          have headFound := found_of_slotsAt headValid
          have inside := (List.getElem?_eq_some_iff.mp headFound).1
          -- the head is a maximum, too
          have isBest : best ≤ slotsAt (first :: rest) head := by
            rw [← slotsAt_of_found isMax.found]
            apply selected.le_head
            rw [slotsAt_of_found isMax.found]
            omega
          rw [pushMaxima, search] at pushed
          split at pushed
          · cases pushed
          · rename_i result left taken
            obtain ⟨later, _, rfl⟩ := Option.map_eq_some_iff.mp pushed
            simp only [List.map_cons, List.cons_append, List.cons.injEq] at split
            rcases takeAt_eq_some taken with ⟨isMark, _⟩ | ⟨q, index, fits, _, rfl, _⟩
            · rw [isMark, toUint64_neg_one, sentinel] at split
              omega
            · rw [toUint64_succ fits] at split
              have isHead : q = head := by omega
              rw [isHead] at fits
              have less := isMax.first head _ (by omega) headFound
              omega

theorem stableTopK_iff (nonempty : arr ≠ []) (lower : ∀ value ∈ arr, -1 ≤ value)
    (allocated : arr.length < 2 ^ 63) (amountEPNs : Nat) :
    (∃ schedule, pushMaxima amountEPNs arr = some schedule ∧
        StableTopK arr amountEPNs schedule) ↔
      min amountEPNs (validCount arr) ≤ usableCount arr := by
  induction amountEPNs generalizing arr with
  | zero =>
      simp only [Nat.zero_min, Nat.zero_le, iff_true]
      exact ⟨[], rfl, [], by simp, by simp, .nil⟩
  | succ count ih =>
      by_cases some : ∃ i, usable arr i = true
      · obtain ⟨i, isUsable⟩ := some
        obtain ⟨position, best, isMax, chosenUsable, picks⟩ := exists_usable_firstMax isUsable
        have valid : best ≠ -1 := by
          obtain ⟨_, value, found, nonnegative, _⟩ := usable_iff.mp chosenUsable
          rw [isMax.found] at found
          cases found
          omega
        have left : (∃ schedule, pushMaxima count (arr.set position (-1)) = some schedule ∧
            StableTopK (arr.set position (-1)) count schedule) ↔ _ :=
          ih (by simpa using nonempty) (lower_set lower) (by simpa using allocated)
        have one := validCount_set isMax.found valid
        have oneUsable := usableCount_set chosenUsable
        have rounds : min (count + 1) (validCount arr) ≤ usableCount arr ↔
            min count (validCount (arr.set position (-1))) ≤
              usableCount (arr.set position (-1)) := by omega
        rw [rounds, ← left]
        constructor
        · rintro ⟨schedule, pushed, selected⟩
          rw [pushMaxima_picks picks] at pushed
          obtain ⟨later, laterPushed, rfl⟩ := Option.map_eq_some_iff.mp pushed
          exact ⟨later, laterPushed, (stableTopK_succ isMax valid count later).mp selected⟩
        · rintro ⟨later, laterPushed, selected⟩
          refine ⟨(position + 1) :: later, ?_, (stableTopK_succ isMax valid count later).mpr selected⟩
          rw [pushMaxima_picks picks, laterPushed, Option.map_some]
      · have unusable : ∀ i, usable arr i = false := by
          intro i
          cases isUsable : usable arr i with
          | false => rfl
          | true => exact absurd ⟨i, isUsable⟩ some
        have none : usableCount arr = 0 := by simp [usableCount, unusable]
        rw [none]
        constructor
        · rintro ⟨schedule, pushed, selected⟩
          by_contra tooMany
          exact not_stableTopK_of_unusable lower allocated unusable (by omega) pushed selected
        · intro enough
          have invalid : validCount arr = 0 := by omega
          refine ⟨_, pushMaxima_exhausted (exhausted_of_invalid nonempty invalid) _, [], ?_, ?_,
            .nil⟩
          · simp [invalid]
          · simp [invalid]

theorem usable_of_small {i : Nat} {value : Int} (small : arr.length < 2 ^ 31)
    (found : arr[i]? = some value) (valid : 0 ≤ value) : usable arr i = true := by
  have inside := (List.getElem?_eq_some_iff.mp found).1
  refine usable_iff.mpr ⟨by omega, value, found, valid, ?_⟩
  intro j other high otherFound
  have within := (List.getElem?_eq_some_iff.mp otherFound).1
  omega

theorem usableCount_eq_validCount (small : arr.length < 2 ^ 31)
    (lower : ∀ value ∈ arr, -1 ≤ value) : usableCount arr = validCount arr := by
  induction count : validCount arr generalizing arr with
  | zero =>
      apply Finset.card_eq_zero.mpr
      apply Finset.filter_eq_empty_iff.mpr
      intro i _ isUsable
      obtain ⟨_, value, found, nonnegative, _⟩ := usable_iff.mp isUsable
      have marked := List.countP_eq_zero.mp count value (List.mem_of_getElem? found)
      simp only [ne_eq, decide_not, Bool.not_eq_true', decide_eq_false_iff_not, not_not] at marked
      omega
  | succ n ih =>
      obtain ⟨value, member, isValid⟩ := List.countP_pos_iff.mp (by
        rw [← validCount]
        omega : 0 < arr.countP (· ≠ -1))
      obtain ⟨i, found⟩ := List.mem_iff_getElem?.mp member
      have atLeast := lower value member
      have marked : value ≠ -1 := by simpa using isValid
      have one := validCount_set found marked
      rw [usableCount_set (usable_of_small small found (by omega))]
      exact congrArg (· + 1) (ih (by simpa using small) (lower_set lower) (by omega))

end Round

theorem generateArray1_eq {scheduler : Scheduler} {latestKey : Nat} {row : List EpnInfo}
    (last : scheduler.history.last? = some (latestKey, row))
    (full : row.length = scheduler.numEPNS) :
    scheduler.generateArray1 = some (row.map (slotsOf latestKey)) := by
  rw [Scheduler.generateArray1, last]
  simp only
  rw [if_pos full.ge, ← full, List.take_length]

theorem slotsOf_lower {latestKey : Nat} {row : List EpnInfo}
    (bounded : ∀ info ∈ row, latestKey ≤ uint64Add info.ts 5000 → info.memVal ≤ 2 ^ 31 - 1) :
    ∀ value ∈ row.map (slotsOf latestKey), -1 ≤ value := by
  intro value member
  obtain ⟨info, isInfo, rfl⟩ := List.mem_map.mp member
  unfold slotsOf
  split
  · rename_i recent
    have small := bounded info isInfo recent
    rw [toInt32_of_lt (by omega)]
    omega
  · exact le_rfl

/-- For a row of any number of EPNs, the schedule is the stable selection of the best
valid EPNs exactly when the selection does not run into EPN numbers beyond `int`.  A
`vector` of `EpnInfo` has fewer than `2 ^ 59` entries. -/
theorem schedule_stable_topK_iff {scheduler : Scheduler} {latestKey : Nat} {row : List EpnInfo}
    (last : scheduler.history.last? = some (latestKey, row))
    (full : row.length = scheduler.numEPNS) (epns : 1 ≤ scheduler.numEPNS)
    (allocated : scheduler.numEPNS < 2 ^ 59)
    (bounded : ∀ info ∈ row, latestKey ≤ uint64Add info.ts 5000 → info.memVal ≤ 2 ^ 31 - 1)
    (amountEPNs : Nat) :
    ∃ arr, scheduler.generateArray1 = some arr ∧
      ((∃ schedule, scheduler.generateSchedule amountEPNs = some schedule ∧
          StableTopK arr amountEPNs schedule) ↔
        min amountEPNs (validCount arr) ≤ usableCount arr) ∧
      (scheduler.numEPNS < 2 ^ 31 → validCount arr ≤ usableCount arr) := by
  have generated := generateArray1_eq last full
  have lower := slotsOf_lower bounded
  have length : (row.map (slotsOf latestKey)).length = scheduler.numEPNS := by simp [full]
  have nonempty : row.map (slotsOf latestKey) ≠ [] := by
    intro empty
    simp only [empty, List.length_nil] at length
    omega
  refine ⟨_, generated, ?_, ?_⟩
  · simp only [Scheduler.generateSchedule, generated]
    exact stableTopK_iff nonempty lower (by omega) amountEPNs
  · intro small
    exact (usableCount_eq_validCount (by omega) lower).ge

def threeEpns : Scheduler :=
  { Scheduler.configured 3 0 with
    history := OrderedMap.empty.insert 10000 [⟨10000, 2⟩, ⟨0, 9⟩, ⟨9000, 2⟩] }

theorem three_epns_selected : ∃ schedule, threeEpns.generateSchedule 3 = some schedule ∧
    StableTopK [2, -1, 2] 3 schedule := by
  have last : threeEpns.history.last? = some (10000, [⟨10000, 2⟩, ⟨0, 9⟩, ⟨9000, 2⟩]) := rfl
  obtain ⟨arr, generated, iff, small⟩ := schedule_stable_topK_iff last rfl (by decide)
    (by decide) (by decide) 3
  cases generated
  exact iff.mpr ((Nat.min_le_right _ _).trans (small (by decide)))

def lastRow (silent : Nat) : List EpnInfo :=
  List.replicate silent .zero ++ [⟨10000, 4⟩]

def lastReports (silent : Nat) : Scheduler :=
  { Scheduler.configured (silent + 1) 0 with
    history := OrderedMap.empty.insert 10000 (lastRow silent) }

theorem lastReports_last (silent : Nat) :
    (lastReports silent).history.last? = some (10000, lastRow silent) :=
  rfl

theorem lastRow_length (silent : Nat) :
    (lastRow silent).length = (lastReports silent).numEPNS := by
  simp [lastRow, lastReports, Scheduler.configured]

theorem lastReports_generateArray1 (silent : Nat) :
    (lastReports silent).generateArray1 = some (List.replicate silent (-1) ++ [4]) := by
  have silentSlots : slotsOf 10000 .zero = -1 := by decide
  have lastSlots : slotsOf 10000 ⟨10000, 4⟩ = 4 := by decide
  rw [generateArray1_eq (lastReports_last silent) (lastRow_length silent)]
  simp [lastRow, silentSlots, lastSlots]

theorem isFirstMax_last (silent : Nat) :
    IsFirstMax (List.replicate silent (-1) ++ [(4 : Int)]) silent 4 where
  found := by simp
  greatest := by
    intro other value found
    have member := List.mem_of_getElem? found
    simp only [List.mem_append, List.mem_replicate, List.mem_singleton] at member
    omega
  first := by
    intro earlier value before found
    rw [List.getElem?_append_left (by simpa using before), List.getElem?_replicate,
      if_pos before] at found
    cases found
    decide

theorem lastReports_overflows {silent : Nat} (beyond : silent + 1 = 2 ^ 31) :
    (lastReports silent).generateSchedule 1 = none := by
  have isMax := isFirstMax_last silent
  have overflows : maxSearch (List.replicate silent (-1) ++ [4]) = none := by
    cases split : List.replicate silent (-1) ++ [(4 : Int)] with
    | nil => rfl
    | cons first rest =>
        rw [split] at isMax
        obtain ⟨position, best, isMax', search⟩ := maxSearch_isFirstMax first rest
        have nonnegative : ¬ ((silent : Int) < 0) := by omega
        rw [search, isMax'.unique isMax, toInt32_of_lt (by omega), takeAt, if_neg nonnegative]
        simp only [Int.toNat_natCast, isMax.found]
        rw [if_neg (by decide), if_neg (by omega)]
  rw [Scheduler.generateSchedule, lastReports_generateArray1]
  simp only [pushMaxima, overflows]

/-- Of `2 ^ 31` EPNs only the last has reported: the schedule of one EPN should name it,
but `index + 1` overflows. -/
theorem last_of_many_epns_not_selected :
    ∃ (scheduler : Scheduler) (latestKey : Nat) (row : List EpnInfo) (arr : List Int),
    scheduler.history.last? = some (latestKey, row) ∧ row.length = scheduler.numEPNS ∧
    scheduler.numEPNS = 2 ^ 31 ∧
    (∀ info ∈ row, latestKey ≤ uint64Add info.ts 5000 → info.memVal ≤ 2 ^ 31 - 1) ∧
    scheduler.generateArray1 = some arr ∧ validCount arr = 1 ∧
    ¬ ∃ schedule, scheduler.generateSchedule 1 = some schedule ∧ StableTopK arr 1 schedule := by
  obtain ⟨silent, beyond⟩ : ∃ silent, silent + 1 = 2 ^ 31 := ⟨2 ^ 31 - 1, by omega⟩
  refine ⟨lastReports silent, _, _, _, lastReports_last silent, lastRow_length silent, beyond, ?_,
    lastReports_generateArray1 silent, ?_, ?_⟩
  · intro info member _
    simp only [lastRow, List.mem_append, List.mem_replicate, List.mem_singleton] at member
    rcases member with ⟨_, rfl⟩ | rfl
    · simp [EpnInfo.zero]
    · simp
  · simp [validCount]
  · rintro ⟨schedule, generated, _⟩
    rw [lastReports_overflows beyond] at generated
    cases generated

end FairMQ.SchedulerFlpEpn
