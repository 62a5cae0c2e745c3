import FairMQ.SchedulerFlpEpn.History

namespace FairMQ.SchedulerFlpEpn

open FairMQ.Data

/-- The variables of the loop.  `firstKey` is an iterator: it stands for the row
it was obtained from, whether or not that row is still in the map. -/
structure Trimming where
  history : OrderedMap Nat (List EpnInfo)
  tooOld : Nat
  firstKey : Nat

inductive TrimResult where
  | finished (trimming : Trimming)
  | running (trimming : Trimming)
  /-- `history.erase(firstKey)` after the row of `firstKey` has been erased. -/
  | invalidErase
  /-- `newFirstKey->first` of an empty map. -/
  | pastEnd

/-- The loop, for at most the given number of evaluations of its condition. -/
def trimLoop (key : Nat) : Nat → Trimming → TrimResult
  | 0, trimming => .running trimming
  | rounds + 1, trimming =>
      if uint64Add trimming.tooOld historyMaxMs ≤ key then
        match trimming.history.get? trimming.firstKey with
        | none => .invalidErase
        | some _ =>
            match (trimming.history.erase trimming.firstKey).first? with
            | none => .pastEnd
            | some (newFirstKey, _) =>
                trimLoop key rounds
                  { trimming with
                    history := trimming.history.erase trimming.firstKey, tooOld := newFirstKey }
      else .finished trimming

def TrimResult.finished? : TrimResult → Option Trimming
  | .finished trimming => some trimming
  | _ => none

def Scheduler.trimmedTo (scheduler : Scheduler) (trimming : Trimming) : Scheduler :=
  { scheduler with history := trimming.history, tooOld := trimming.tooOld }

/-- The loop starts with `firstKey = history.begin()` and its key in `tooOld`. -/
def Scheduler.trimming (scheduler : Scheduler) : Option Trimming :=
  scheduler.history.first?.map fun first => ⟨scheduler.history, first.1, first.1⟩

section Loop

variable {history : OrderedMap Nat (List EpnInfo)} {key first second : Nat}
  {row secondRow : List EpnInfo}

theorem trimLoop_none (fresh : ¬ uint64Add first historyMaxMs ≤ key) (rounds : Nat) :
    trimLoop key (rounds + 1) ⟨history, first, first⟩ = .finished ⟨history, first, first⟩ := by
  rw [trimLoop, if_neg fresh]

theorem trimLoop_first (isFirst : history.first? = some (first, row))
    (due : uint64Add first historyMaxMs ≤ key) (rounds : Nat) :
    trimLoop key (rounds + 1) ⟨history, first, first⟩ =
      match history.eraseFirst.first? with
      | none => .pastEnd
      | some (second, _) => trimLoop key rounds ⟨history.eraseFirst, second, first⟩ := by
  obtain ⟨rest, split⟩ := List.head?_eq_some_iff.mp isFirst
  have present : history.get? first = some row := by simp [OrderedMap.get?, split]
  rw [trimLoop, if_pos due]
  simp only [present, history.erase_first isFirst]

theorem trimLoop_second (isFirst : history.first? = some (first, row))
    (due : uint64Add second historyMaxMs ≤ key) (rounds : Nat) :
    trimLoop key (rounds + 1) ⟨history.eraseFirst, second, first⟩ = .invalidErase := by
  have gone : history.eraseFirst.get? first = none := by
    rw [← history.erase_first isFirst]
    exact history.get?_erase_self first
  rw [trimLoop, if_pos due]
  simp only [gone]

theorem trimLoop_more {rounds : Nat} {trimming trimmed : Trimming}
    (finished : trimLoop key rounds trimming = .finished trimmed) (more : Nat) :
    trimLoop key (rounds + more) trimming = .finished trimmed := by
  induction rounds generalizing trimming with
  | zero => cases finished
  | succ rounds ih =>
      rw [Nat.succ_add_eq_add_succ, Nat.add_succ]
      simp only [trimLoop] at finished ⊢
      split at finished
      · rename_i due
        rw [if_pos due]
        split at finished
        · cases finished
        · split at finished
          · cases finished
          · exact ih finished
      · rename_i fresh
        rw [if_neg fresh]
        exact finished

end Loop

theorem trimming_eq {scheduler : Scheduler} {first : Nat} {row : List EpnInfo}
    (isFirst : scheduler.history.first? = some (first, row)) :
    scheduler.trimming = some ⟨scheduler.history, first, first⟩ := by
  rw [Scheduler.trimming, isFirst]
  rfl

theorem trim_eq_trimLoop {scheduler : Scheduler} {start : Trimming}
    (starts : scheduler.trimming = some start) (key rounds : Nat) :
    scheduler.trim key = (trimLoop key (rounds + 2) start).finished?.map scheduler.trimmedTo := by
  obtain ⟨⟨first, row⟩, isFirst, isStart⟩ := Option.map_eq_some_iff.mp starts
  subst isStart
  rw [Scheduler.trim, isFirst]
  dsimp only
  by_cases due : uint64Add first historyMaxMs ≤ key
  · rw [if_pos due, trimLoop_first isFirst due]
    cases isSecond : scheduler.history.eraseFirst.first? with
    | none => rfl
    | some entry =>
        obtain ⟨second, secondRow⟩ := entry
        dsimp only
        by_cases dueSecond : uint64Add second historyMaxMs ≤ key
        · rw [if_pos dueSecond, trimLoop_second isFirst dueSecond]
          rfl
        · rw [if_neg dueSecond, trimLoop, if_neg dueSecond]
          rfl
  · rw [if_neg due, trimLoop_none due]
    rfl

structure Trimmed (key : Nat) (scheduler trimmed : Scheduler) : Prop where
  numEPNS : trimmed.numEPNS = scheduler.numEPNS
  last : trimmed.history.last? = scheduler.history.last?
  fewer : ∀ row ∈ trimmed.history.keys, row ∈ scheduler.history.keys
  removed : ∀ row ∈ scheduler.history.keys,
    row ∈ trimmed.history.keys ∨ uint64Add row historyMaxMs ≤ key
  oldest : ∀ row ∈ trimmed.history.keys, trimmed.tooOld ≤ row

theorem trim_trimmed {scheduler trimmed : Scheduler} {key : Nat}
    (done : scheduler.trim key = some trimmed) : Trimmed key scheduler trimmed := by
  unfold Scheduler.trim at done
  cases isFirst : scheduler.history.first? with
  | none => simp [isFirst] at done
  | some entry =>
      obtain ⟨first, row⟩ := entry
      simp only [isFirst] at done
      split at done
      · rename_i due
        split at done
        · contradiction
        · rename_i second secondRow isSecond
          split at done <;> cases done
          have keys := scheduler.history.keys_of_first isFirst
          refine ⟨rfl, scheduler.history.last?_eraseFirst isSecond, ?_, ?_,
            scheduler.history.eraseFirst.first?_le isSecond⟩
          · intro row member
            exact keys ▸ List.mem_cons_of_mem first member
          · intro row member
            rw [keys] at member
            cases List.mem_cons.mp member with
            | inl same => exact .inr (same ▸ due)
            | inr later => exact .inl later
      · cases done
        exact ⟨rfl, rfl, fun _ member => member, fun _ member => .inl member,
          scheduler.history.first?_le isFirst⟩

/-- A call of `update` by a known EPN with the key of a clock that has not gone
back.  `getHistKey` converts a non-negative `int64_t`. -/
def Orderly (scheduler : Scheduler) (report : Report) : Prop :=
  ValidId scheduler report ∧ report.epnId < 2 ^ 64 ∧
    (∀ key ∈ scheduler.history.keys, key ≤ report.key) ∧ report.key < 2 ^ 63

instance (scheduler : Scheduler) (report : Report) : Decidable (Orderly scheduler report) :=
  inferInstanceAs (Decidable (_ ∧ _ ∧ _ ∧ _))

def Scheduler.due (scheduler : Scheduler) (key : Nat) : List Nat :=
  scheduler.history.keys.filter fun row => row + historyMaxMs ≤ key

/-- The loop ends without an invalid access, keeps the row of the current key,
leaves only rows inside the window, and `tooOld` is the oldest of them. -/
def WindowKept (key : Nat) (start : Trimming) : Prop :=
  ∃ rounds trimmed, trimLoop key rounds start = .finished trimmed ∧
    key ∈ trimmed.history.keys ∧
    (∀ row ∈ trimmed.history.keys, key < row + historyMaxMs) ∧
    trimmed.tooOld ∈ trimmed.history.keys ∧ ∀ row ∈ trimmed.history.keys, trimmed.tooOld ≤ row

structure Recorded (scheduler : Scheduler) (report : Report) (recorded : Scheduler) : Prop where
  numEPNS : recorded.numEPNS = scheduler.numEPNS
  tooOld : recorded.tooOld = scheduler.tooOld
  keys : recorded.history.keys = scheduler.history.keys ∧ report.key ∈ scheduler.history.keys ∨
    recorded.history.keys = scheduler.history.keys ++ [report.key]
  last : ∃ latest previous row, scheduler.history.last? = some (latest, previous) ∧
    (row = previous ∧ latest = report.key ∨
      row = scheduler.nextRow previous ∧ latest < report.key) ∧
    recorded.history.last? =
      some (report.key, row.set (report.epnId - 1) ⟨report.key, report.myMem⟩)

theorem uint64Add_pred {epnId : Nat} (positive : 1 ≤ epnId) (word : epnId < 2 ^ 64) :
    uint64Add epnId (2 ^ 64 - 1) = epnId - 1 := by
  unfold uint64Add
  omega

theorem uint64Add_clock {key offset : Nat} (clock : key < 2 ^ 63) (small : offset < 2 ^ 63) :
    uint64Add key offset = key + offset := by
  unfold uint64Add
  omega

def Scheduler.written (scheduler : Scheduler) (report : Report) : Scheduler :=
  { scheduler with
    history := scheduler.history.modify report.key fun row =>
      row.set (report.epnId - 1) ⟨report.key, report.myMem⟩ }

theorem overwrite_updated {scheduler : Scheduler} {row : List EpnInfo} {report : Report}
    (positive : 1 ≤ report.epnId) (word : report.epnId < 2 ^ 64)
    (known : report.epnId ≤ row.length) :
    scheduler.overwrite row report.key report.epnId report.myMem =
      .updated (scheduler.written report) := by
  have inside : report.epnId - 1 < row.length := by omega
  simp only [Scheduler.overwrite, uint64Add_pred positive word, if_pos inside, Scheduler.written]

theorem record_orderly {scheduler : Scheduler} {report : Report} (wellFormed : WellFormed scheduler)
    (orderly : Orderly scheduler report) :
    ∃ recorded, scheduler.record report.key report.epnId report.myMem = .updated recorded ∧
      Recorded scheduler report recorded := by
  obtain ⟨⟨positive, known⟩, word, later, _⟩ := orderly
  have largest : ∀ entry ∈ scheduler.history.entries, entry.1 ≤ report.key := by
    intro entry member
    exact later entry.1 (List.mem_map_of_mem member)
  cases found : scheduler.history.get? report.key with
  | some row =>
      have member := scheduler.history.mem_of_get? found
      have isLast := scheduler.history.last?_of_le member largest
      have full : row.length = scheduler.numEPNS := wellFormed.full _ member
      refine ⟨scheduler.written report, ?_, rfl, rfl, ?_, ?_⟩
      · simp only [Scheduler.record, found]
        exact overwrite_updated positive word (by omega)
      · exact .inl ⟨OrderedMap.keys_modify .., scheduler.history.mem_keys.mpr ⟨row, member⟩⟩
      · exact ⟨report.key, row, row, isLast, .inl ⟨rfl, rfl⟩,
          scheduler.history.last?_modify isLast _⟩
  | none =>
      obtain ⟨⟨latest, previous⟩, isLast⟩ : ∃ entry, scheduler.history.last? = some entry :=
        Option.ne_none_iff_exists'.mp (by simpa [OrderedMap.last?] using wellFormed.nonempty)
      have full : previous.length = scheduler.numEPNS := wellFormed.full.last isLast
      have above : ∀ entry ∈ scheduler.history.entries, entry.1 < report.key := by
        intro entry member
        have different := scheduler.history.get?_eq_none_iff.mp found entry member
        exact lt_of_le_of_ne (largest entry member) different
      let row := scheduler.nextRow previous
      let inserted := { scheduler with history := scheduler.history.insert report.key row }
      have insertedLast : inserted.history.last? = some (report.key, row) := by
        change (OrderedMap.entries _).getLast? = _
        rw [scheduler.history.insert_entries_of_lt row above, List.getLast?_concat]
      refine ⟨inserted.written report, ?_, rfl, rfl, ?_, ?_⟩
      · simp only [Scheduler.record, found, isLast]
        rw [if_neg (by omega)]
        exact overwrite_updated positive word (by rw [nextRow_length]; omega)
      · exact .inr ((OrderedMap.keys_modify ..).trans
          (scheduler.history.keys_insert_of_lt row above))
      · exact ⟨latest, previous, row, isLast,
          .inr ⟨rfl, above _ (List.mem_of_getLast? isLast)⟩,
          inserted.history.last?_modify insertedLast _⟩

section Window

variable {history : OrderedMap Nat (List EpnInfo)} {key first second : Nat}
  {row secondRow : List EpnInfo}

theorem trimLoop_invalid (isFirst : history.first? = some (first, row))
    (isSecond : history.eraseFirst.first? = some (second, secondRow))
    (due : uint64Add first historyMaxMs ≤ key) (dueSecond : uint64Add second historyMaxMs ≤ key)
    (rounds : Nat) :
    trimLoop key (rounds + 2) ⟨history, first, first⟩ = .invalidErase := by
  rw [trimLoop_first isFirst due]
  simp only [isSecond]
  exact trimLoop_second isFirst dueSecond rounds

theorem not_windowKept (isFirst : history.first? = some (first, row))
    (isSecond : history.eraseFirst.first? = some (second, secondRow))
    (due : uint64Add first historyMaxMs ≤ key) (dueSecond : uint64Add second historyMaxMs ≤ key) :
    ¬ WindowKept key ⟨history, first, first⟩ := by
  intro kept
  obtain ⟨rounds, trimmed, finished, _⟩ := kept
  have invalid := trimLoop_invalid isFirst isSecond due dueSecond rounds
  rw [trimLoop_more finished 2] at invalid
  cases invalid

theorem WindowKept.of_finished {start trimmed : Trimming} {rounds : Nat}
    (finished : trimLoop key rounds start = .finished trimmed)
    (isFirst : trimmed.history.first? = some (trimmed.tooOld, row))
    (current : key ∈ trimmed.history.keys) (fresh : key < trimmed.tooOld + historyMaxMs) :
    WindowKept key start := by
  have oldest := trimmed.history.first?_le isFirst
  have present : trimmed.tooOld ∈ trimmed.history.keys :=
    trimmed.history.mem_keys.mpr ⟨row, List.mem_of_head? isFirst⟩
  refine ⟨rounds, trimmed, finished, current, ?_, present, oldest⟩
  intro row member
  exact lt_of_lt_of_le fresh (Nat.add_le_add_right (oldest row member) _)

theorem due_eq_nil (isFirst : history.first? = some (first, row))
    (fresh : ¬ first + historyMaxMs ≤ key) :
    (history.keys.filter fun row => row + historyMaxMs ≤ key) = [] := by
  rw [List.filter_eq_nil_iff]
  intro row member
  have oldest := history.first?_le isFirst row member
  simp only [decide_eq_true_eq]
  omega

theorem windowKept_iff (isFirst : history.first? = some (first, row))
    (current : key ∈ history.keys) (largest : ∀ row ∈ history.keys, row ≤ key)
    (clock : key < 2 ^ 63) :
    WindowKept key ⟨history, first, first⟩ ↔
      (history.keys.filter fun row => row + historyMaxMs ≤ key).length ≤ 1 := by
  have keys := history.keys_of_first isFirst
  have noWrap : ∀ row ∈ history.keys, uint64Add row historyMaxMs = row + historyMaxMs := by
    intro row member
    exact uint64Add_clock (lt_of_le_of_lt (largest row member) clock) (by decide)
  have wrapFirst := noWrap first (by simp [keys])
  by_cases due : first + historyMaxMs ≤ key
  · -- the row of the current key is another one, so there is a second row
    have another : key ∈ history.eraseFirst.keys := by
      rw [keys] at current
      have positive : 0 < historyMaxMs := by decide
      exact (List.mem_cons.mp current).resolve_left (by omega)
    obtain ⟨second, secondRow, isSecond⟩ := history.eraseFirst.exists_first another
    have eraseKeys := history.eraseFirst.keys_of_first isSecond
    have wrapSecond := noWrap second (by simp [keys, eraseKeys])
    rw [keys, List.filter_cons_of_pos (by simpa using due), List.length_cons]
    by_cases dueSecond : second + historyMaxMs ≤ key
    · refine iff_of_false ?_ ?_
      · exact not_windowKept isFirst isSecond (by rwa [wrapFirst]) (by rwa [wrapSecond])
      · rw [eraseKeys, List.filter_cons_of_pos (by simpa using dueSecond), List.length_cons]
        omega
    · rw [due_eq_nil isSecond dueSecond]
      refine iff_of_true ?_ (le_refl 1)
      have finished : trimLoop key 2 ⟨history, first, first⟩ =
          .finished ⟨history.eraseFirst, second, first⟩ := by
        rw [trimLoop_first isFirst (by rwa [wrapFirst])]
        simp only [isSecond]
        rw [trimLoop, if_neg (by rwa [wrapSecond])]
      exact .of_finished finished isSecond another (Nat.lt_of_not_le dueSecond)
  · rw [due_eq_nil isFirst due]
    refine iff_of_true ?_ (Nat.zero_le 1)
    exact .of_finished (trimLoop_none (by rwa [wrapFirst]) 0) isFirst current (Nat.lt_of_not_le due)

end Window

namespace Recorded

variable {scheduler recorded : Scheduler} {report : Report}

theorem current (record : Recorded scheduler report recorded) :
    report.key ∈ recorded.history.keys := by
  cases record.keys with
  | inl old => exact old.1 ▸ old.2
  | inr new => simp [new]

theorem keeps (record : Recorded scheduler report recorded) {key : Nat}
    (present : key ∈ scheduler.history.keys) : key ∈ recorded.history.keys := by
  cases record.keys with
  | inl old => exact old.1 ▸ present
  | inr new => exact new ▸ List.mem_append_left _ present

theorem largest (record : Recorded scheduler report recorded)
    (later : ∀ key ∈ scheduler.history.keys, key ≤ report.key) :
    ∀ key ∈ recorded.history.keys, key ≤ report.key := by
  intro key member
  cases record.keys with
  | inl old => exact later key (old.1 ▸ member)
  | inr new =>
      rw [new] at member
      cases List.mem_append.mp member with
      | inl before => exact later key before
      | inr same => exact le_of_eq (List.mem_singleton.mp same)

theorem due (record : Recorded scheduler report recorded) :
    recorded.due report.key = scheduler.due report.key := by
  unfold Scheduler.due
  cases record.keys with
  | inl old => rw [old.1]
  | inr new =>
      have fresh : ¬ report.key + historyMaxMs ≤ report.key := by
        have positive : 0 < historyMaxMs := by decide
        omega
      rw [new, List.filter_append, List.filter_cons_of_neg (by simpa using fresh),
        List.filter_nil, List.append_nil]

theorem trimming (record : Recorded scheduler report recorded)
    (orderly : Orderly scheduler report) :
    ∃ start, recorded.trimming = some start ∧
      (WindowKept report.key start ↔ (scheduler.due report.key).length ≤ 1) := by
  obtain ⟨_, _, later, clock⟩ := orderly
  obtain ⟨first, row, isFirst⟩ := recorded.history.exists_first record.current
  refine ⟨⟨recorded.history, first, first⟩, trimming_eq isFirst, ?_⟩
  rw [← record.due]
  exact windowKept_iff isFirst record.current (record.largest later) clock

end Recorded

theorem update_of_due {scheduler : Scheduler} {report : Report} (wellFormed : WellFormed scheduler)
    (orderly : Orderly scheduler report) (few : (scheduler.due report.key).length ≤ 1) :
    ∃ after, scheduler.update report.key report.epnId report.myMem = .updated after := by
  obtain ⟨recorded, done, record⟩ := record_orderly wellFormed orderly
  obtain ⟨start, starts, kept⟩ := record.trimming orderly
  obtain ⟨rounds, trimmed, finished, _⟩ := kept.mpr few
  have trims := trim_eq_trimLoop starts report.key rounds
  rw [trimLoop_more finished 2] at trims
  refine ⟨(recorded.trimmedTo trimmed).writeOut report.key, ?_⟩
  simp only [Scheduler.update, done, trims, TrimResult.finished?, Option.map_some]

/-- In every run of `initialize` and `update` with known EPNs and keys that never
decrease, the next update records its report, and its trimming keeps the window
exactly when at most one row is due. -/
theorem history_window_iff {scheduler : Scheduler} {report : Report}
    (reached : historySystem.ReachesUnder Orderly scheduler) (orderly : Orderly scheduler report) :
    ∃ recorded start,
      scheduler.record report.key report.epnId report.myMem = .updated recorded ∧
      recorded.trimming = some start ∧
      (WindowKept report.key start ↔ (scheduler.due report.key).length ≤ 1) := by
  obtain ⟨recorded, done, record⟩ := record_orderly (wellFormed_of_reaches reached) orderly
  obtain ⟨start, starts, kept⟩ := record.trimming orderly
  exact ⟨recorded, start, done, starts, kept⟩

def oneEpn : Scheduler :=
  (Scheduler.configured 1 1000).initializeHistory 1000

theorem report_after_a_minute_keeps_window : ∃ scheduler recorded start,
    historySystem.ReachesUnder Orderly scheduler ∧
    scheduler.due 61000 = [1000] ∧
    scheduler.record 61000 1 4 = .updated recorded ∧
    recorded.trimming = some start ∧ WindowKept 61000 start := by
  obtain ⟨scheduler, reached, orderly, due⟩ :
      ∃ scheduler, historySystem.ReachesUnder Orderly scheduler ∧
        Orderly scheduler ⟨61000, 1, 4⟩ ∧
        scheduler.due 61000 = [1000] :=
    TransitionSystem.reaches_of_runUnder oneEpn [⟨2000, 1, 4⟩]
      ⟨1, 1000, 1000, rfl⟩ (by decide)
  obtain ⟨recorded, start, done, starts, kept⟩ := history_window_iff reached orderly
  exact ⟨scheduler, recorded, start, reached, due, done, starts, kept.mpr (by simp [due])⟩

/-- A minute after the first report two rows are due: the second round of the loop
erases the first row again. -/
theorem gap_erases_row_twice : ∃ scheduler recorded start,
    historySystem.ReachesUnder Orderly scheduler ∧ Orderly scheduler ⟨62000, 1, 4⟩ ∧
    scheduler.record 62000 1 4 = .updated recorded ∧ recorded.trimming = some start ∧
    (∀ rounds, trimLoop 62000 (rounds + 2) start = .invalidErase) ∧ ¬ WindowKept 62000 start := by
  obtain ⟨scheduler, reached, orderly, keys⟩ :
      ∃ scheduler, historySystem.ReachesUnder Orderly scheduler ∧
        Orderly scheduler ⟨62000, 1, 4⟩ ∧ scheduler.history.keys = [1000, 2000] :=
    TransitionSystem.reaches_of_runUnder oneEpn [⟨2000, 1, 4⟩] ⟨1, 1000, 1000, rfl⟩ (by decide)
  obtain ⟨recorded, done, record⟩ := record_orderly (wellFormed_of_reaches reached) orderly
  have recordedKeys : recorded.history.keys = [1000, 2000, 62000] := by
    simpa [keys] using record.keys
  obtain ⟨⟨_, row⟩, rest, split, rfl, restKeys⟩ := List.map_eq_cons_iff.mp recordedKeys
  obtain ⟨⟨_, secondRow⟩, rest, rfl, rfl, _⟩ := List.map_eq_cons_iff.mp restKeys
  have isFirst : recorded.history.first? = some (1000, row) := by simp [OrderedMap.first?, split]
  have isSecond : recorded.history.eraseFirst.first? = some (2000, secondRow) := by
    simp [OrderedMap.first?, OrderedMap.eraseFirst, split]
  refine ⟨scheduler, recorded, ⟨recorded.history, 1000, 1000⟩, reached, orderly, done,
    trimming_eq isFirst, ?_, ?_⟩
  · exact trimLoop_invalid isFirst isSecond (by decide) (by decide)
  · exact not_windowKept isFirst isSecond (by decide) (by decide)

end FairMQ.SchedulerFlpEpn
