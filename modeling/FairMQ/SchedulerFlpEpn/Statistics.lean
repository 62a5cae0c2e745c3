import FairMQ.SchedulerFlpEpn.Selection

namespace FairMQ.SchedulerFlpEpn

open FairMQ.Data

/-- The loop of `availableEpns`; `none` is an overflow of its `int c`. -/
def countAvailable : List Int → Int → Option Int
  | [], c => some c
  | value :: rest, c =>
      if 0 < value then
        if c + 1 < 2 ^ 31 then countAvailable rest (c + 1) else none
      else countAvailable rest c

def availableEpns (arr : List Int) : Option Int :=
  countAvailable arr 0

/-- The comparison converts `aE` to `uint64_t`, the result `amountEPNs` to `int`. -/
def epnsInSchedule (amountEPNs : Nat) (aE : Int) : Int :=
  if amountEPNs ≤ toUint64 aE then toInt32 amountEPNs else aE

def positives (arr : List Int) : Nat :=
  arr.countP (0 < ·)

def positiveUsable (arr : List Int) : Nat :=
  ((Finset.range arr.length).filter fun i =>
    (usable arr i && decide (0 < slotsAt arr i)) = true).card

/-- The schedule has as many EPNs as are available, up to `amountEPNs`, and all of them
have slots. -/
def Describes (hasSlot : Nat → Prop) (arr : List Int) (amountEPNs : Nat) : Prop :=
  ∃ schedule, pushMaxima amountEPNs arr = some schedule ∧
    schedule.countP (· ≠ sentinel) = min amountEPNs (positives arr) ∧
    ∀ id ∈ schedule, id ≠ sentinel → ∃ i, id = i + 1 ∧ hasSlot i

/-- The usable EPNs with slots are enough; or all usable EPNs have slots, and what is
left of the array ends the search or passes for exactly one more EPN. -/
def Describable (hasSlot : Nat → Prop) (arr : List Int) (amountEPNs : Nat) : Prop :=
  amountEPNs ≤ positiveUsable arr ∨
    positiveUsable arr = usableCount arr ∧ usableCount arr < amountEPNs ∧
      (positives arr = usableCount arr ∧
          maxSearch (leftover arr) = some (-1, leftover arr) ∨
        min amountEPNs (positives arr) = usableCount arr + 1 ∧
          ∃ q, Picks (leftover arr) q ∧ hasSlot q)

theorem countAvailable_eq (arr : List Int) {c : Nat} (small : c < 2 ^ 31) :
    countAvailable arr c =
      if c + positives arr < 2 ^ 31 then some ((c + positives arr : Nat) : Int) else none := by
  induction arr generalizing c with
  | nil => exact (if_pos small).symm
  | cons value rest ih =>
      rw [countAvailable]
      by_cases positive : 0 < value
      · have one : positives (value :: rest) = positives rest + 1 := by
          simp [positives, positive]
        rw [if_pos positive, one]
        by_cases fits : (c : Int) + 1 < 2 ^ 31
        · rw [if_pos fits]
          have next : c + 1 < 2 ^ 31 := by omega
          have same : c + 1 + positives rest = c + (positives rest + 1) := by omega
          rw [← same]
          exact ih next
        · rw [if_neg fits, if_neg (by omega)]
      · have none : positives (value :: rest) = positives rest := by
          simp [positives, positive]
        rw [if_neg positive, none]
        exact ih small

theorem availableEpns_eq (arr : List Int) :
    availableEpns arr =
      if positives arr < 2 ^ 31 then some (positives arr : Int) else none := by
  have counted := countAvailable_eq arr (by decide : 0 < 2 ^ 31)
  rw [Nat.zero_add] at counted
  exact counted

theorem epnsInSchedule_eq {available : Nat} (small : available < 2 ^ 31) (amountEPNs : Nat) :
    epnsInSchedule amountEPNs available = (min amountEPNs available : Nat) := by
  have same : toUint64 available = available := by
    unfold toUint64
    omega
  unfold epnsInSchedule
  rw [same]
  split
  · rw [toInt32_of_lt (by omega)]
    omega
  · omega

section Round

variable {arr : List Int} {position q : Nat} {best : Int} {hasSlot : Nat → Prop}

theorem positives_set (found : arr[position]? = some best) (positive : 0 < best) :
    positives arr = positives (arr.set position (-1)) + 1 :=
  countP_set_marked found (by simpa using positive) (by simp)

theorem positives_eq_zero (isMax : IsFirstMax arr position best) (full : best ≤ 0) :
    positives arr = 0 := by
  apply List.countP_eq_zero.mpr
  intro value member
  obtain ⟨i, found⟩ := List.mem_iff_getElem?.mp member
  have atMost := isMax.greatest i value found
  simp only [decide_eq_true_eq]
  omega

theorem positiveUsable_set (isUsable : usable arr position = true)
    (positive : 0 < slotsAt arr position) :
    positiveUsable arr = positiveUsable (arr.set position (-1)) + 1 := by
  obtain ⟨low, value, found, _⟩ := usable_iff.mp isUsable
  unfold positiveUsable
  rw [List.length_set]
  apply card_filter_erase (List.getElem?_eq_some_iff.mp found).1
  · simp [isUsable, positive]
  · intro i
    simp only [Bool.and_eq_true, decide_eq_true_eq, usable_set low]
    by_cases same : i = position
    · simp [same]
    · simp [slotsAt_set_ne same, same]

theorem positiveUsable_eq_zero (isMax : IsFirstMax arr position best) (full : best ≤ 0) :
    positiveUsable arr = 0 := by
  apply Finset.card_eq_zero.mpr
  apply Finset.filter_eq_empty_iff.mpr
  intro i _
  simp only [Bool.and_eq_true, decide_eq_true_eq, not_and, not_lt]
  intro isUsable
  obtain ⟨_, value, found, _⟩ := usable_iff.mp isUsable
  rw [slotsAt_of_found found]
  exact (isMax.greatest i value found).trans full

theorem describes_picks (picks : Picks arr q) (count : Nat) :
    Describes hasSlot arr (count + 1) ↔ hasSlot q ∧
      ∃ later, pushMaxima count (arr.set q (-1)) = some later ∧
        later.countP (· ≠ sentinel) + 1 = min (count + 1) (positives arr) ∧
        ∀ id ∈ later, id ≠ sentinel → ∃ i, id = i + 1 ∧ hasSlot i := by
  have isId : q + 1 ≠ sentinel := by
    have fits := picks.2.1
    unfold sentinel
    omega
  have counted : ∀ later : List Nat, ((q + 1) :: later).countP (· ≠ sentinel) =
      later.countP (· ≠ sentinel) + 1 := by
    intro later
    exact List.countP_cons_of_pos (by simpa using isId)
  unfold Describes
  rw [pushMaxima_picks picks]
  constructor
  · rintro ⟨schedule, pushed, count, slots⟩
    obtain ⟨later, laterPushed, rfl⟩ := Option.map_eq_some_iff.mp pushed
    rw [counted] at count
    obtain ⟨i, same, slot⟩ := slots (q + 1) (by simp) isId
    have isPicked : i = q := by omega
    rw [isPicked] at slot
    refine ⟨slot, later, laterPushed, count, ?_⟩
    intro id member
    exact slots id (List.mem_cons_of_mem _ member)
  · rintro ⟨slot, later, laterPushed, count, slots⟩
    refine ⟨(q + 1) :: later, by rw [laterPushed, Option.map_some], ?_, ?_⟩
    · rw [counted]
      exact count
    · intro id member notSentinel
      rcases List.mem_cons.mp member with rfl | isLater
      · exact ⟨q, rfl, slot⟩
      · exact slots id isLater notSentinel

theorem countP_sentinels (count : Nat) :
    (List.replicate count sentinel).countP (· ≠ sentinel) = 0 := by
  simp [List.countP_replicate]

theorem describes_unusable (unusable : ∀ i, usable arr i = false) (count : Nat) :
    Describes hasSlot arr (count + 1) ↔
      positives arr = 0 ∧ maxSearch arr = some (-1, arr) ∨
        min (count + 1) (positives arr) = 1 ∧ ∃ q, Picks arr q ∧ hasSlot q := by
  constructor
  · intro describes
    have ⟨schedule, pushed, counted, _⟩ := describes
    have search := pushed
    rw [pushMaxima] at search
    cases arr with
    | nil => simp [maxSearch] at search
    | cons first rest =>
        obtain ⟨position, best, isMax, found⟩ := maxSearch_isFirstMax first rest
        split at search
        · cases search
        · rename_i result left taken
          rcases takeAt_eq_some (found.symm.trans taken) with
            ⟨rfl, rfl⟩ | ⟨q, index, fits, chosen, rfl, rfl⟩
          · rw [pushMaxima_exhausted taken, Option.some.injEq] at pushed
            rw [← pushed, countP_sentinels] at counted
            exact .inl ⟨by omega, taken⟩
          · have picks : Picks (first :: rest) q :=
              ⟨⟨position, best, isMax, index⟩, fits, chosen⟩
            obtain ⟨slot, later, laterPushed, laterCounted, _⟩ :=
              (describes_picks picks count).mp describes
            rw [pushMaxima_exhausted (picks.exhausted unusable), Option.some.injEq] at laterPushed
            rw [← laterPushed, countP_sentinels] at laterCounted
            exact .inr ⟨laterCounted.symm, q, picks, slot⟩
  · rintro (⟨none, exhausted⟩ | ⟨one, q, picks, slot⟩)
    · refine ⟨_, pushMaxima_exhausted exhausted _, ?_, ?_⟩
      · rw [countP_sentinels, none]
        rfl
      · intro id member notSentinel
        exact absurd (List.eq_of_mem_replicate member) notSentinel
    · refine (describes_picks picks count).mpr ⟨slot, _,
        pushMaxima_exhausted (picks.exhausted unusable) _, ?_, ?_⟩
      · rw [countP_sentinels, one]
      · intro id member notSentinel
        exact absurd (List.eq_of_mem_replicate member) notSentinel

theorem describable_set (isUsable : usable arr position = true)
    (found : arr[position]? = some best) (positive : 0 < best) (count : Nat) :
    Describable hasSlot (arr.set position (-1)) count ↔ Describable hasSlot arr (count + 1) := by
  have slots : 0 < slotsAt arr position := by
    rw [slotsAt_of_found found]
    exact positive
  have fewer : min (count + 1) (positives (arr.set position (-1)) + 1) =
      min count (positives (arr.set position (-1))) + 1 := by omega
  unfold Describable
  rw [leftover_set isUsable, positiveUsable_set isUsable slots, usableCount_set isUsable,
    positives_set found positive, fewer]
  simp only [Nat.add_le_add_iff_right, Nat.add_right_cancel_iff, Nat.add_lt_add_iff_right]

theorem describes_iff (honest : ∀ i, 0 < slotsAt arr i → hasSlot i) (amountEPNs : Nat) :
    Describes hasSlot arr amountEPNs ↔ Describable hasSlot arr amountEPNs := by
  induction amountEPNs generalizing arr with
  | zero =>
      refine ⟨fun _ => .inl (Nat.zero_le _), fun _ => ⟨[], rfl, by simp, ?_⟩⟩
      intro id member
      cases member
  | succ count ih =>
      by_cases some : ∃ i, usable arr i = true
      · obtain ⟨i, isUsable⟩ := some
        obtain ⟨position, best, isMax, chosenUsable, picks⟩ := exists_usable_firstMax isUsable
        rw [describes_picks picks]
        by_cases positive : 0 < best
        · have honestLeft : ∀ i, 0 < slotsAt (arr.set position (-1)) i → hasSlot i := by
            intro i left
            by_cases same : i = position
            · rw [same, slotsAt_set_self] at left
              omega
            · rw [slotsAt_set_ne same] at left
              exact honest i left
          have slot : hasSlot position := by
            apply honest
            rw [slotsAt_of_found isMax.found]
            exact positive
          have one := positives_set isMax.found positive
          rw [← describable_set chosenUsable isMax.found positive, ← ih honestLeft, Describes]
          have counted : ∀ found : Nat, found + 1 = min (count + 1) (positives arr) ↔
              found = min count (positives (arr.set position (-1))) := by omega
          simp only [slot, counted, true_and]
        · -- the best usable EPN is full: it is chosen, but nobody is available
          have none := positives_eq_zero isMax (by omega)
          have noneUsable := positiveUsable_eq_zero isMax (by omega)
          have oneUsable := usableCount_set chosenUsable
          constructor
          · rintro ⟨_, later, _, counted, _⟩
            omega
          · rintro (enough | ⟨all, _⟩)
            · omega
            · omega
      · have unusable : ∀ i, usable arr i = false := by
          intro i
          cases isUsable : usable arr i with
          | false => rfl
          | true => exact absurd ⟨i, isUsable⟩ some
        have none : usableCount arr = 0 := by simp [usableCount, unusable]
        have noneUsable : positiveUsable arr = 0 := by simp [positiveUsable, unusable]
        rw [describes_unusable unusable, Describable, leftover_of_unusable unusable, none,
          noneUsable]
        simp

theorem positiveUsable_eq_positives (small : arr.length < 2 ^ 31) :
    positiveUsable arr = positives arr := by
  induction count : positives arr generalizing arr with
  | zero =>
      apply Finset.card_eq_zero.mpr
      apply Finset.filter_eq_empty_iff.mpr
      intro i _
      simp only [Bool.and_eq_true, decide_eq_true_eq, not_and, not_lt]
      intro isUsable
      obtain ⟨_, value, found, _⟩ := usable_iff.mp isUsable
      rw [slotsAt_of_found found]
      have notPositive := List.countP_eq_zero.mp count value (List.mem_of_getElem? found)
      simpa using notPositive
  | succ n ih =>
      obtain ⟨value, member, isPositive⟩ := List.countP_pos_iff.mp (by
        rw [← positives]
        omega : 0 < arr.countP (0 < ·))
      have positive : 0 < value := by simpa using isPositive
      obtain ⟨i, found⟩ := List.mem_iff_getElem?.mp member
      have isUsable := usable_of_small small found (by omega)
      have one := positives_set found positive
      rw [positiveUsable_set isUsable (by rw [slotsAt_of_found found]; exact positive)]
      exact congrArg (· + 1) (ih (by simpa using small) (by omega))

/-- In a system whose EPN numbers and slots fit into an `int`: there are enough EPNs
with slots, or no EPN that has reported recently is full. -/
theorem describable_iff_of_small (nonempty : arr ≠ []) (small : arr.length < 2 ^ 31)
    (lower : ∀ value ∈ arr, -1 ≤ value) (amountEPNs : Nat) :
    Describable hasSlot arr amountEPNs ↔
      amountEPNs ≤ positives arr ∨ positives arr = validCount arr := by
  have marked : ∀ value ∈ leftover arr, value = -1 := by
    intro value member
    obtain ⟨i, found⟩ := List.mem_iff_getElem?.mp member
    simp only [leftover, List.getElem?_mapIdx, Option.map_eq_some_iff] at found
    obtain ⟨old, oldFound, rfl⟩ := found
    have atLeast := lower old (List.mem_of_getElem? oldFound)
    by_cases valid : 0 ≤ old
    · simp [usable_of_small small oldFound valid]
    · split
      · rfl
      · omega
  have exhausted : maxSearch (leftover arr) = some (-1, leftover arr) := by
    apply exhausted_of_invalid
    · simpa [leftover] using nonempty
    · apply List.countP_eq_zero.mpr
      intro value member
      simp [marked value member]
  have ended : ∀ q, ¬ Picks (leftover arr) q := by
    rintro q ⟨_, _, value, found, unmarked⟩
    exact unmarked (marked value (List.mem_of_getElem? found))
  unfold Describable
  rw [positiveUsable_eq_positives small, usableCount_eq_validCount small lower]
  simp only [exhausted, ended, false_and, exists_false, and_false, or_false, and_true]
  omega

end Round

def HasSlot (row : List EpnInfo) (i : Nat) : Prop :=
  ∃ info, row[i]? = some info ∧ 1 ≤ info.memVal

theorem hasSlot_of_positive {row : List EpnInfo} {latestKey : Nat} (i : Nat)
    (positive : 0 < slotsAt (row.map (slotsOf latestKey)) i) : HasSlot row i := by
  have found := found_of_slotsAt (by omega : slotsAt (row.map (slotsOf latestKey)) i ≠ -1)
  rw [List.getElem?_map, Option.map_eq_some_iff] at found
  obtain ⟨info, isInfo, slots⟩ := found
  refine ⟨info, isInfo, ?_⟩
  by_contra none
  have isZero : info.memVal = 0 := by omega
  rw [← slots, slotsOf, isZero] at positive
  split at positive
  · exact absurd positive (by decide)
  · omega

/-- In every history, the logged number describes the schedule exactly when the count
of available EPNs fits an `int` and the array is describable. -/
theorem schedule_statistics_iff {scheduler : Scheduler}
    (reached : historySystem.Reaches scheduler) (amountEPNs : Nat) :
    ∃ latestKey row arr, scheduler.history.last? = some (latestKey, row) ∧
      scheduler.generateArray1 = some arr ∧
      ((∃ schedule available, scheduler.generateSchedule amountEPNs = some schedule ∧
          availableEpns arr = some available ∧
          (schedule.countP (· ≠ sentinel) : Int) = epnsInSchedule amountEPNs available ∧
          ∀ id ∈ schedule, id ≠ sentinel → ∃ i, id = i + 1 ∧ HasSlot row i) ↔
        positives arr < 2 ^ 31 ∧ Describable (HasSlot row) arr amountEPNs) := by
  have wellFormed := wellFormed_of_reaches reached
  obtain ⟨⟨latestKey, row⟩, last⟩ : ∃ entry, scheduler.history.last? = some entry :=
    Option.ne_none_iff_exists'.mp (by simpa [OrderedMap.last?] using wellFormed.nonempty)
  have full : row.length = scheduler.numEPNS := wellFormed.full.last last
  have generated := generateArray1_eq last full
  refine ⟨latestKey, row, _, last, generated, ?_⟩
  rw [← describes_iff (fun i => hasSlot_of_positive i), availableEpns_eq]
  simp only [Scheduler.generateSchedule, generated]
  constructor
  · rintro ⟨schedule, available, pushed, isAvailable, counted, slots⟩
    split at isAvailable
    · rename_i small
      cases isAvailable
      rw [epnsInSchedule_eq small] at counted
      exact ⟨small, schedule, pushed, Int.ofNat_inj.mp counted, slots⟩
    · cases isAvailable
  · rintro ⟨small, schedule, pushed, counted, slots⟩
    refine ⟨schedule, _, pushed, if_pos small, ?_, slots⟩
    rw [epnsInSchedule_eq small, counted]

/-- The first of two EPNs has four slots, the second is silent; two EPNs are asked for. -/
theorem one_available_epn_described : ∃ scheduler,
    historySystem.Reaches scheduler ∧ scheduler.generateArray1 = some [4, -1] ∧
    ∃ schedule available, scheduler.generateSchedule 2 = some schedule ∧
      availableEpns [4, -1] = some available ∧
      (schedule.countP (· ≠ sentinel) : Int) = epnsInSchedule 2 available := by
  obtain ⟨scheduler, reached, generated⟩ :
      ∃ scheduler, historySystem.ReachesUnder (fun _ _ => True) scheduler ∧
        scheduler.generateArray1 = some [4, -1] :=
    TransitionSystem.reaches_of_runUnder twoEpns oneReport
      ⟨2, 1500000000000, 1500000000000, rfl⟩ (by decide)
  obtain ⟨latestKey, row, arr, _, same, iff⟩ := schedule_statistics_iff reached 2
  rw [generated] at same
  cases same
  obtain ⟨schedule, available, pushed, counted, described, _⟩ := iff.mpr ⟨by decide,
    (describable_iff_of_small (by decide) (by decide) (by decide) 2).mpr (.inr (by decide))⟩
  exact ⟨scheduler, reached, generated, schedule, available, pushed, counted, described⟩

/-- An EPN that reports no free slots is scheduled, though none is available. -/
theorem full_epn_scheduled : ∃ scheduler,
    historySystem.Reaches scheduler ∧ scheduler.generateArray1 = some [0, -1] ∧
    scheduler.generateSchedule 1 = some [1] ∧ availableEpns [0, -1] = some 0 ∧
    (List.countP (· ≠ sentinel) [1] : Int) ≠ epnsInSchedule 1 0 :=
  TransitionSystem.reaches_of_runUnder twoEpns [⟨1500000001000, 1, 0⟩]
    ⟨2, 1500000000000, 1500000000000, rfl⟩ (by decide)

end FairMQ.SchedulerFlpEpn
