import FairMQ.Data.MachineInt
import FairMQ.Data.TransitionSystem

namespace FairMQ.Shmem

open FairMQ.Data

/-! # The watchdog of `fairmq-shmmonitor`

One thread of the monitor receives the heartbeats of the devices, the other one looks at the
segment every 100 milliseconds and cleans up when it has not heard of a device for too long.
They share `fHeartbeatTriggered` and `fLastHeartbeat` without a lock, so every access to these
and to the clock is a step.  `Cleanup` is also called for the key x of an interactive monitor,
and by the destructor.  The clock does not go back; its unit is a nanosecond. -/

/-- Program counter of `MonitorHeartbeats`. -/
inductive Listening where
  | waiting
  | triggered
  | stamped (time : Nat)
  | left
deriving DecidableEq, Repr

/-- Program counter of `Run`, `Interactive` and `CheckSegment`, up to the end of the destructor.
`sleeping` is also the `poll` of an interactive monitor, `pressed` comes after a key.  `present`
says that the segment could be opened.  `heard` is history: when the last heartbeat had come as
the clock was read. -/
inductive Checking where
  | loop
  | sleeping
  | pressed
  | opened (present : Bool)
  | timed (present : Bool) (now heard : Nat)
  | judged (present : Bool) (duration now heard : Nat)
  | cleaning (present : Bool)
  | finishing (present : Bool)
  | left
  | gone
deriving DecidableEq, Repr

/-- The calls of `Cleanup`: by a check, with what it had read, for the key x, and by the
destructor. -/
inductive Cleaned where
  | check (present : Bool) (now heard : Nat)
  | key
  | exit
deriving DecidableEq, Repr

def Cleaned.checked : Cleaned → Bool
  | .check _ _ _ => true
  | _ => false

def Cleaned.present : Cleaned → Bool
  | .check present _ _ => present
  | _ => false

/-- `clock` and `segment` belong to the machine; `heard`, `heartbeats` and `cleanups` are
history. -/
structure Monitor where
  fSelfDestruct : Bool
  fInteractive : Bool
  fIsDaemon : Bool
  fCleanOnExit : Bool
  fTimeoutInMS : Nat
  fSeenOnce : Bool
  fTerminating : Bool
  gSignalStatus : Bool
  fHeartbeatTriggered : Bool
  fLastHeartbeat : Nat
  listening : Listening
  checking : Checking
  clock : Nat
  segment : Bool
  heard : Nat
  heartbeats : Nat
  cleanups : List Cleaned
deriving DecidableEq, Repr

inductive MonitorAction where
  | tick (time : Nat)
  | segment (present : Bool)
  | signal
  | signalMonitor
  | receive
  | stamp
  | store
  | stopListening
  | sleep
  | press (key : Char)
  | openSegment
  | readClock
  | readLastHeartbeat
  | judge
  | cleaned
  | finish
  | destroy
deriving DecidableEq, Repr

def millisecond : Nat := 1000000

/-- `duration_cast<milliseconds>(now - fLastHeartbeat).count()` as an `unsigned int`. -/
def duration (now fLastHeartbeat : Nat) : Nat :=
  toUint32 (Int.tdiv ((now : Int) - fLastHeartbeat) millisecond)

namespace Monitor

def start (fSelfDestruct fInteractive fIsDaemon fCleanOnExit : Bool) (fTimeoutInMS clock : Nat)
    (segment : Bool) : Monitor where
  fSelfDestruct
  fInteractive
  fIsDaemon
  fCleanOnExit
  fTimeoutInMS
  fSeenOnce := false
  fTerminating := false
  gSignalStatus := false
  fHeartbeatTriggered := false
  fLastHeartbeat := clock
  listening := .waiting
  checking := .loop
  clock
  segment
  heard := clock
  heartbeats := 0
  cleanups := []

variable (monitor : Monitor)

/-- The number of milliseconds a check has to exceed; the product is an `unsigned int`. -/
def limit (present : Bool) : Nat :=
  if present then monitor.fTimeoutInMS else monitor.fTimeoutInMS * 2 % 2 ^ 32

def silent (present : Bool) (duration : Nat) : Bool :=
  (if present then monitor.fHeartbeatTriggered else monitor.fIsDaemon) &&
    decide (monitor.limit present < duration)

def judge : Option Monitor :=
  match monitor.checking with
  | .judged present duration now heard =>
      if monitor.silent present duration then
        some { monitor with
          checking := .cleaning present
          cleanups := monitor.cleanups ++ [.check present now heard] }
      else some { monitor with checking := .finishing present }
  | _ => none

/-- The keys of `Interactive`; the others only print. -/
def press (key : Char) : Monitor :=
  if monitor.fTerminating || monitor.gSignalStatus then { monitor with checking := .left }
  else if key = 'q' then { monitor with fTerminating := true, checking := .left }
  else if key = 'x' then
    { monitor with
      segment := false
      checking := .pressed
      cleanups := monitor.cleanups ++ [.key] }
  else { monitor with checking := .pressed }

/-- An interactive monitor looks at `fTerminating` before it checks. -/
def openSegment : Monitor :=
  if monitor.fInteractive && monitor.fTerminating then { monitor with checking := .left }
  else if monitor.segment then { monitor with fSeenOnce := true, checking := .opened true }
  else { monitor with fHeartbeatTriggered := false, checking := .opened false }

def step : MonitorAction → Option Monitor
  | .tick time => some { monitor with clock := monitor.clock + time }
  | .segment present => some { monitor with segment := present }
  | .signal => some { monitor with gSignalStatus := true }
  | .signalMonitor =>
      if monitor.gSignalStatus then some { monitor with fTerminating := true } else none
  | .receive =>
      match monitor.listening with
      | .waiting =>
          some { monitor with
            fHeartbeatTriggered := true, listening := .triggered
            heard := monitor.clock, heartbeats := monitor.heartbeats + 1 }
      | _ => none
  | .stamp =>
      match monitor.listening with
      | .triggered => some { monitor with listening := .stamped monitor.clock }
      | _ => none
  | .store =>
      match monitor.listening with
      | .stamped time => some { monitor with fLastHeartbeat := time, listening := .waiting }
      | _ => none
  | .stopListening =>
      match monitor.listening with
      | .waiting =>
          if monitor.fTerminating then some { monitor with listening := .left } else none
      | _ => none
  | .sleep =>
      match monitor.checking with
      | .loop =>
          some { monitor with checking := if monitor.fTerminating then .left else .sleeping }
      | _ => none
  | .press key =>
      match monitor.checking with
      | .sleeping => if monitor.fInteractive then some (monitor.press key) else none
      | _ => none
  | .openSegment =>
      match monitor.checking with
      | .sleeping | .pressed => some monitor.openSegment
      | _ => none
  | .readClock =>
      match monitor.checking with
      | .opened present =>
          some { monitor with checking := .timed present monitor.clock monitor.heard }
      | _ => none
  | .readLastHeartbeat =>
      match monitor.checking with
      | .timed present now heard =>
          some { monitor with
            checking := .judged present (duration now monitor.fLastHeartbeat) now heard }
      | _ => none
  | .judge => monitor.judge
  | .cleaned =>
      match monitor.checking with
      | .cleaning present =>
          some { monitor with
            segment := false
            fHeartbeatTriggered := false
            fTerminating := monitor.fTerminating || monitor.fSelfDestruct
            checking := .finishing present }
      | _ => none
  | .finish =>
      match monitor.checking with
      | .finishing present =>
          some { monitor with
            fTerminating := monitor.fTerminating ||
              (!present && monitor.fSelfDestruct && monitor.fSeenOnce)
            checking := .loop }
      | _ => none
  | .destroy =>
      match monitor.listening, monitor.checking with
      | .left, .left =>
          some { monitor with
            checking := .gone
            cleanups := if monitor.fCleanOnExit then monitor.cleanups ++ [.exit]
              else monitor.cleanups }
      | _, _ => none

end Monitor

/-- The timeout is an `unsigned int`. -/
def monitorSystem : TransitionSystem Monitor MonitorAction where
  initial monitor := ∃ fSelfDestruct fInteractive fIsDaemon fCleanOnExit fTimeoutInMS clock segment,
    fTimeoutInMS < 2 ^ 32 ∧ monitor =
      .start fSelfDestruct fInteractive fIsDaemon fCleanOnExit fTimeoutInMS clock segment
  step := Monitor.step

/-- The two threads do not overlap: no check reads the clock while a heartbeat has been
received and is not stored yet, and none of a later millisecond is stored between a check's
reading of the clock and of `fLastHeartbeat`. -/
def Ordered (monitor : Monitor) : MonitorAction → Prop
  | .readClock => monitor.listening = .waiting ∨ monitor.listening = .left
  | .store =>
      match monitor.listening, monitor.checking with
      | .stamped time, .timed _ now _ => time < now + millisecond
      | _, _ => True
  | _ => True

instance (monitor : Monitor) (action : MonitorAction) : Decidable (Ordered monitor action) := by
  unfold Ordered
  split
  · infer_instance
  · split <;> infer_instance
  · infer_instance

inductive MonitorEffect (monitor : Monitor) : MonitorAction → Monitor → Prop where
  | tick (time : Nat) :
      MonitorEffect monitor (.tick time) { monitor with clock := monitor.clock + time }
  | segment (present : Bool) :
      MonitorEffect monitor (.segment present) { monitor with segment := present }
  | signal : MonitorEffect monitor .signal { monitor with gSignalStatus := true }
  | signalMonitor : MonitorEffect monitor .signalMonitor { monitor with fTerminating := true }
  | receive (waiting : monitor.listening = .waiting) :
      MonitorEffect monitor .receive
        { monitor with
          fHeartbeatTriggered := true, listening := .triggered
          heard := monitor.clock, heartbeats := monitor.heartbeats + 1 }
  | stamp (triggered : monitor.listening = .triggered) :
      MonitorEffect monitor .stamp { monitor with listening := .stamped monitor.clock }
  | store {time : Nat} (stamped : monitor.listening = .stamped time) :
      MonitorEffect monitor .store
        { monitor with fLastHeartbeat := time, listening := .waiting }
  | stopListening (waiting : monitor.listening = .waiting) :
      MonitorEffect monitor .stopListening { monitor with listening := .left }
  | sleep (loop : monitor.checking = .loop) :
      MonitorEffect monitor .sleep
        { monitor with checking := if monitor.fTerminating then .left else .sleeping }
  | leave {action : MonitorAction} {terminating : Bool}
      (between : monitor.checking = .sleeping ∨ monitor.checking = .pressed)
      (kept : monitor.fTerminating = true → terminating = true) :
      MonitorEffect monitor action
        { monitor with fTerminating := terminating, checking := .left }
  | press {key : Char} (between : monitor.checking = .sleeping ∨ monitor.checking = .pressed) :
      MonitorEffect monitor (.press key) { monitor with checking := .pressed }
  | close {key : Char} (between : monitor.checking = .sleeping ∨ monitor.checking = .pressed)
      (interactive : monitor.fInteractive = true) :
      MonitorEffect monitor (.press key)
        { monitor with
          segment := false
          checking := .pressed
          cleanups := monitor.cleanups ++ [.key] }
  | openSegment (between : monitor.checking = .sleeping ∨ monitor.checking = .pressed) :
      MonitorEffect monitor .openSegment
        { monitor with fSeenOnce := true, checking := .opened true }
  | openMissing (between : monitor.checking = .sleeping ∨ monitor.checking = .pressed) :
      MonitorEffect monitor .openSegment
        { monitor with fHeartbeatTriggered := false, checking := .opened false }
  | readClock {present : Bool} (opened : monitor.checking = .opened present) :
      MonitorEffect monitor .readClock
        { monitor with checking := .timed present monitor.clock monitor.heard }
  | readLastHeartbeat {present : Bool} {now heard : Nat}
      (timed : monitor.checking = .timed present now heard) :
      MonitorEffect monitor .readLastHeartbeat
        { monitor with
          checking := .judged present (duration now monitor.fLastHeartbeat) now heard }
  | clean {present : Bool} {elapsed now heard : Nat}
      (judged : monitor.checking = .judged present elapsed now heard)
      (silent : monitor.silent present elapsed = true) :
      MonitorEffect monitor .judge
        { monitor with
          checking := .cleaning present
          cleanups := monitor.cleanups ++ [.check present now heard] }
  | spare {present : Bool} {elapsed now heard : Nat}
      (judged : monitor.checking = .judged present elapsed now heard) :
      MonitorEffect monitor .judge { monitor with checking := .finishing present }
  | cleaned {present : Bool} (cleaning : monitor.checking = .cleaning present) :
      MonitorEffect monitor .cleaned
        { monitor with
          segment := false
          fHeartbeatTriggered := false
          fTerminating := monitor.fTerminating || monitor.fSelfDestruct
          checking := .finishing present }
  | finish {present : Bool} (finishing : monitor.checking = .finishing present) :
      MonitorEffect monitor .finish
        { monitor with
          fTerminating := monitor.fTerminating ||
            (!present && monitor.fSelfDestruct && monitor.fSeenOnce)
          checking := .loop }
  | destroy (left : monitor.checking = .left) :
      MonitorEffect monitor .destroy
        { monitor with
          checking := .gone
          cleanups := if monitor.fCleanOnExit then monitor.cleanups ++ [.exit]
            else monitor.cleanups }

theorem Monitor.step_effect {monitor after : Monitor} {action : MonitorAction}
    (stepped : monitor.step action = some after) : MonitorEffect monitor action after := by
  cases action with
  | tick | segment | signal =>
      cases stepped
      constructor
  | receive | stamp | store | sleep | readClock | readLastHeartbeat | cleaned | finish =>
      simp only [Monitor.step] at stepped
      split at stepped <;> cases stepped
      constructor
      assumption
  | signalMonitor =>
      simp only [Monitor.step] at stepped
      split at stepped <;> cases stepped
      exact .signalMonitor
  | stopListening =>
      simp only [Monitor.step] at stepped
      split at stepped
      · rename_i waiting
        split at stepped <;> cases stepped
        exact .stopListening waiting
      · contradiction
  | press key =>
      simp only [Monitor.step] at stepped
      split at stepped
      · rename_i sleeping
        split at stepped <;> cases stepped
        rename_i interactive
        unfold Monitor.press
        split
        · exact .leave (.inl sleeping) id
        · split
          · exact .leave (.inl sleeping) fun _ => rfl
          · split
            · exact .close (.inl sleeping) interactive
            · exact .press (.inl sleeping)
      · contradiction
  | openSegment =>
      have between : (monitor.checking = .sleeping ∨ monitor.checking = .pressed) ∧
          after = monitor.openSegment := by
        simp only [Monitor.step] at stepped
        split at stepped <;> cases stepped
        · exact ⟨.inl ‹_›, rfl⟩
        · exact ⟨.inr ‹_›, rfl⟩
      obtain ⟨between, rfl⟩ := between
      unfold Monitor.openSegment
      split
      · exact .leave between id
      · split
        · exact .openSegment between
        · exact .openMissing between
  | destroy =>
      simp only [Monitor.step] at stepped
      split at stepped <;> cases stepped
      exact .destroy ‹_›
  | judge =>
      simp only [Monitor.step, Monitor.judge] at stepped
      split at stepped
      · rename_i judged
        split at stepped <;> cases stepped
        · exact .clean judged ‹_›
        · exact .spare judged
      · contradiction

theorem silence_of_duration {now last limit : Nat} (earlier : last < now + millisecond)
    (exceeds : limit < duration now last) : last + (limit + 1) * millisecond ≤ now := by
  unfold duration toUint32 at exceeds
  by_cases before : last ≤ now
  · have difference : ((now : Int) - last) = ((now - last : Nat) : Int) := by omega
    rw [difference, Int.tdiv_eq_ediv_of_nonneg (by omega)] at exceeds
    have whole : limit + 1 ≤ (now - last) / millisecond := by
      unfold millisecond at exceeds ⊢
      omega
    have product := (Nat.le_div_iff_mul_le (by decide)).mp whole
    omega
  · -- less than a millisecond is rounded to zero
    have zero : Int.tdiv ((now : Int) - last) millisecond = 0 := by
      have negative : ((now : Int) - last) = -((last - now : Nat) : Int) := by omega
      rw [negative, Int.neg_tdiv, Int.tdiv_eq_ediv_of_nonneg (by omega)]
      unfold millisecond at earlier ⊢
      omega
    rw [zero] at exceeds
    simp at exceeds

def Silence (monitor : Monitor) (present : Bool) (now heard : Nat) : Prop :=
  heard + (monitor.limit present + 1) * millisecond ≤ now

/-- What a cleanup needs: silence, a user or the option. -/
def Cleaned.Justified (monitor : Monitor) : Cleaned → Prop
  | .check present now heard => Silence monitor present now heard
  | .key => monitor.fInteractive = true
  | .exit => monitor.fCleanOnExit = true

def Checking.Sound (monitor : Monitor) : Checking → Prop
  | .timed _ now heard => heard ≤ monitor.fLastHeartbeat ∧
      monitor.fLastHeartbeat < now + millisecond
  | .judged present elapsed now heard =>
      monitor.limit present < elapsed → Silence monitor present now heard
  | _ => True

structure Attentive (monitor : Monitor) : Prop where
  heard : monitor.heard ≤ monitor.clock
  stored : monitor.fLastHeartbeat ≤ monitor.clock
  current : monitor.listening = .waiting ∨ monitor.listening = .left →
    monitor.heard ≤ monitor.fLastHeartbeat
  stamped : ∀ time, monitor.listening = .stamped time →
    monitor.heard ≤ time ∧ time ≤ monitor.clock
  older : ∀ present now heard, monitor.checking = .timed present now heard → heard ≤ monitor.heard
  checking : monitor.checking.Sound monitor
  cleanups : ∀ cleaned ∈ monitor.cleanups, cleaned.Justified monitor

section Steps

variable {monitor : Monitor}

theorem Attentive.moveCheck (attentive : Attentive monitor) {checking : Checking}
    {triggered seen terminating segment : Bool}
    (untimed : ∀ present now heard, checking ≠ .timed present now heard)
    (sound : checking.Sound monitor) :
    Attentive { monitor with
      fHeartbeatTriggered := triggered, fSeenOnce := seen, fTerminating := terminating
      segment, checking } := by
  refine { attentive with older := ?_, checking := ?_ }
  · exact fun present now heard timed => absurd timed (untimed present now heard)
  · cases checking with
    | timed present now heard => exact absurd rfl (untimed present now heard)
    | judged present elapsed now heard => exact sound
    | _ => trivial

theorem Attentive.receive (attentive : Attentive monitor) :
    Attentive { monitor with
      fHeartbeatTriggered := true, listening := .triggered
      heard := monitor.clock, heartbeats := monitor.heartbeats + 1 } :=
  { attentive with
    heard := Nat.le_refl _
    current := by simp
    stamped := by simp
    older := fun present now heard timed =>
      Nat.le_trans (attentive.older present now heard timed) attentive.heard }

theorem Attentive.store (attentive : Attentive monitor) {time : Nat}
    (stamped : monitor.listening = .stamped time)
    (ordered : ∀ present now heard, monitor.checking = .timed present now heard →
      time < now + millisecond) :
    Attentive { monitor with fLastHeartbeat := time, listening := .waiting } := by
  obtain ⟨since, upTo⟩ := attentive.stamped time stamped
  refine { attentive with
    stored := upTo, current := fun _ => since, stamped := by simp, checking := ?_ }
  have sound := attentive.checking
  cases checking : monitor.checking with
  | timed present now heard =>
      have before := attentive.older present now heard checking
      exact ⟨Nat.le_trans before since, ordered present now heard checking⟩
  | judged present elapsed now heard =>
      rw [checking] at sound
      exact sound
  | _ => trivial

theorem Attentive.tick (attentive : Attentive monitor) (time : Nat) :
    Attentive { monitor with clock := monitor.clock + time } :=
  { attentive with
    heard := Nat.le_add_right_of_le attentive.heard
    stored := Nat.le_add_right_of_le attentive.stored
    stamped := fun stamp stamped =>
      (attentive.stamped stamp stamped).imp_right Nat.le_add_right_of_le }

theorem Attentive.readClock (attentive : Attentive monitor) {present : Bool}
    (stored : monitor.listening = .waiting ∨ monitor.listening = .left) :
    Attentive { monitor with checking := .timed present monitor.clock monitor.heard } := by
  refine { attentive with older := ?_, checking := ⟨attentive.current stored, ?_⟩ }
  · intro _ _ heard timed
    cases timed
    exact Nat.le_refl _
  · have last := attentive.stored
    change monitor.fLastHeartbeat < monitor.clock + millisecond
    unfold millisecond
    omega

theorem Attentive.clean (attentive : Attentive monitor) {checking : Checking} {segment : Bool}
    {cleaned : Cleaned} (untimed : ∀ present now heard, checking ≠ .timed present now heard)
    (sound : checking.Sound monitor) (justified : cleaned.Justified monitor) :
    Attentive { monitor with
      segment, checking, cleanups := monitor.cleanups ++ [cleaned] } := by
  have moved := @Attentive.moveCheck monitor attentive checking monitor.fHeartbeatTriggered
    monitor.fSeenOnce monitor.fTerminating segment untimed sound
  refine { moved with cleanups := ?_ }
  exact List.forall_mem_append.mpr ⟨attentive.cleanups, List.forall_mem_singleton.mpr justified⟩

theorem Attentive.step {after : Monitor} {action : MonitorAction}
    (attentive : Attentive monitor) (ordered : Ordered monitor action)
    (stepped : monitor.step action = some after) : Attentive after := by
  cases Monitor.step_effect stepped with
  | tick time => exact attentive.tick time
  | segment _ | signal | signalMonitor => exact { attentive with }
  | receive _ => exact attentive.receive
  | stamp _ =>
      refine { attentive with current := by simp, stamped := ?_ }
      intro time stamped
      cases stamped
      exact ⟨attentive.heard, Nat.le_refl _⟩
  | store stamped =>
      refine attentive.store stamped ?_
      intro present now heard timed
      simpa [Ordered, stamped, timed] using ordered
  | stopListening waiting =>
      exact { attentive with
        current := fun _ => attentive.current (.inl waiting), stamped := by simp }
  | sleep _ =>
      cases monitor.fTerminating with
      | true => exact attentive.moveCheck (by simp) trivial
      | false => exact attentive.moveCheck (by simp) trivial
  | readClock _ => exact attentive.readClock ordered
  | readLastHeartbeat timed =>
      refine attentive.moveCheck (by simp) ?_
      intro exceeds
      have sound := attentive.checking
      rw [timed] at sound
      have silence := silence_of_duration sound.2 exceeds
      have older := sound.1
      unfold Silence
      omega
  | clean judged silent =>
      have sound := attentive.checking
      rw [judged] at sound
      simp only [Monitor.silent, Bool.and_eq_true, decide_eq_true_eq] at silent
      exact attentive.clean (by simp) trivial (sound silent.2)
  | close _ interactive => exact attentive.clean (by simp) trivial interactive
  | destroy _ =>
      split
      · exact attentive.clean (by simp) trivial ‹_›
      · exact attentive.moveCheck (by simp) trivial
  | leave _ _ | press _ | openSegment _ | openMissing _ | spare _ | cleaned _ | finish _ =>
      exact attentive.moveCheck (by simp) trivial

end Steps

def checkTrace : List MonitorAction :=
  [.sleep, .openSegment, .readClock, .readLastHeartbeat, .judge]

def heartbeatTrace : List MonitorAction :=
  [.receive, .stamp, .store]

/-- The first heartbeat of a session that starts long after the monitor: the check sees that
it has come and not yet when. -/
example : ((monitorSystem.run (Monitor.start true false true false 2000 0 false)
    ([.tick (60000 * millisecond), .segment true, .receive] ++ checkTrace)).map
      (fun monitor => monitor.cleanups)) =
    some [.check true (60000 * millisecond) (60000 * millisecond)] := by
  decide

/-- A heartbeat a millisecond after the clock was read: the negative difference becomes a
large `unsigned int`. -/
example : ((monitorSystem.run (Monitor.start true false true false 2000 0 true)
    (heartbeatTrace ++ [.tick (100 * millisecond), .sleep, .openSegment, .readClock,
      .tick millisecond] ++ heartbeatTrace ++ [.readLastHeartbeat, .judge])).map
      (fun monitor => monitor.cleanups)) =
    some [.check true (100 * millisecond) 0] := by
  decide

def Monitor.armed (monitor : Monitor) : Nat :=
  if monitor.fHeartbeatTriggered = true ∧ monitor.checking ≠ .cleaning true then 1 else 0

/-- After a check has cleaned up, a monitor that destroys itself only leaves its loop. -/
def Checking.ending : Checking → Bool
  | .finishing _ | .loop | .left | .gone => true
  | _ => false

structure Spent (monitor : Monitor) : Prop where
  timeouts : monitor.cleanups.countP Cleaned.present + monitor.armed ≤ monitor.heartbeats
  destroyed : monitor.fSelfDestruct = true → monitor.cleanups.countP Cleaned.checked = 0 ∨
    monitor.cleanups.countP Cleaned.checked = 1 ∧
      ((∃ present, monitor.checking = .cleaning present) ∨
        monitor.fTerminating = true ∧ monitor.checking.ending = true)
  keys : monitor.fInteractive = false → monitor.cleanups.count .key = 0
  exits : monitor.cleanups.count .exit ≤
    if monitor.fCleanOnExit = true ∧ monitor.checking = .gone then 1 else 0

theorem Monitor.armed_le (monitor : Monitor) : monitor.armed ≤ 1 := by
  unfold armed
  split <;> omega

theorem Monitor.armed_of_triggered {monitor : Monitor}
    (triggered : monitor.fHeartbeatTriggered = true)
    (other : ∀ present, monitor.checking ≠ .cleaning present) : monitor.armed = 1 :=
  if_pos ⟨triggered, other true⟩

theorem Spent.no_exit {monitor : Monitor} (spent : Spent monitor)
    (here : monitor.checking ≠ .gone) : monitor.cleanups.count .exit = 0 := by
  have exits := spent.exits
  rw [if_neg fun gone => here gone.2] at exits
  exact Nat.le_zero.mp exits

theorem Spent.moveCheck {monitor : Monitor} (spent : Spent monitor) {checking : Checking}
    {triggered seen terminating segment : Bool}
    (quiet : triggered = true → monitor.fHeartbeatTriggered = true)
    (outside : ∀ present, monitor.checking ≠ .cleaning present)
    (here : monitor.checking ≠ .gone)
    (ends : monitor.fTerminating = true → monitor.checking.ending = true →
      terminating = true ∧ checking.ending = true) :
    Spent { monitor with
      fHeartbeatTriggered := triggered, fSeenOnce := seen, fTerminating := terminating
      segment, checking } where
  timeouts := by
    refine Nat.le_trans (Nat.add_le_add_left ?_ _) spent.timeouts
    by_cases still : triggered = true
    · rw [Monitor.armed_of_triggered (quiet still) outside]
      exact Monitor.armed_le _
    · simp [Monitor.armed, still]
  destroyed := by
    intro self
    rcases spent.destroyed self with none | ⟨one, ⟨present, cleaning⟩ | ⟨terminates, ending⟩⟩
    · exact .inl none
    · exact absurd cleaning (outside present)
    · exact .inr ⟨one, .inr (ends terminates ending)⟩
  keys := spent.keys
  exits := Nat.le_trans (Nat.le_of_eq (spent.no_exit here)) (Nat.zero_le _)

theorem Spent.receive {monitor : Monitor} (spent : Spent monitor) :
    Spent { monitor with
      fHeartbeatTriggered := true, listening := .triggered
      heard := monitor.clock, heartbeats := monitor.heartbeats + 1 } where
  timeouts := by
    refine Nat.le_trans (Nat.add_le_add_left (Monitor.armed_le _) _) ?_
    exact Nat.add_le_add_right (Nat.le_of_add_right_le spent.timeouts) 1
  destroyed := spent.destroyed
  keys := spent.keys
  exits := spent.exits

theorem Spent.terminate {monitor : Monitor} (spent : Spent monitor) :
    Spent { monitor with fTerminating := true } where
  timeouts := spent.timeouts
  destroyed := by
    intro self
    rcases spent.destroyed self with none | ⟨one, cleaning | ⟨_, ending⟩⟩
    · exact .inl none
    · exact .inr ⟨one, .inl cleaning⟩
    · exact .inr ⟨one, .inr ⟨rfl, ending⟩⟩
  keys := spent.keys
  exits := spent.exits

theorem Spent.clean {monitor : Monitor} (spent : Spent monitor) {present : Bool}
    {elapsed now heard : Nat} (judged : monitor.checking = .judged present elapsed now heard)
    (silent : monitor.silent present elapsed = true) :
    Spent { monitor with
      checking := .cleaning present
      cleanups := monitor.cleanups ++ [.check present now heard] } where
  timeouts := by
    have before := spent.timeouts
    rw [List.countP_append]
    cases present with
    | true =>
        have triggered : monitor.fHeartbeatTriggered = true := by
          simp only [Monitor.silent, if_true, Bool.and_eq_true] at silent
          exact silent.1
        rw [Monitor.armed_of_triggered triggered (by simp [judged])] at before
        simpa [Monitor.armed, Cleaned.present] using before
    | false => simpa [Monitor.armed, Cleaned.present, judged] using before
  destroyed := by
    intro self
    rcases spent.destroyed self with none | ⟨_, ⟨_, cleaning⟩ | ⟨_, ending⟩⟩
    · exact .inr ⟨by simp [none, Cleaned.checked], .inl ⟨present, rfl⟩⟩
    · simp [judged] at cleaning
    · simp [judged, Checking.ending] at ending
  keys := fun alone => by simpa [List.count_append] using spent.keys alone
  exits := by simpa [List.count_append] using spent.no_exit (by simp [judged])

theorem Spent.close {monitor : Monitor} (spent : Spent monitor)
    (between : monitor.checking = .sleeping ∨ monitor.checking = .pressed)
    (interactive : monitor.fInteractive = true) :
    Spent { monitor with
      segment := false
      checking := .pressed
      cleanups := monitor.cleanups ++ [.key] } := by
  have here : (∀ present, monitor.checking ≠ .cleaning present) ∧ monitor.checking ≠ .gone ∧
      monitor.checking.ending = false := by
    rcases between with here | here <;> simp [here, Checking.ending]
  have moved := @Spent.moveCheck monitor spent .pressed monitor.fHeartbeatTriggered
    monitor.fSeenOnce monitor.fTerminating false id here.1 here.2.1 (by simp [here.2.2])
  refine ⟨?_, ?_, ?_, ?_⟩
  · simpa [List.countP_append, Cleaned.present, Monitor.armed] using moved.timeouts
  · simpa [List.countP_append, Cleaned.checked] using moved.destroyed
  · intro alone
    cases interactive.symm.trans alone
  · simpa [List.count_append] using moved.exits

theorem Spent.cleaned {monitor : Monitor} (spent : Spent monitor) {present : Bool}
    (cleaning : monitor.checking = .cleaning present) :
    Spent { monitor with
      segment := false
      fHeartbeatTriggered := false
      fTerminating := monitor.fTerminating || monitor.fSelfDestruct
      checking := .finishing present } where
  timeouts := by
    have before := spent.timeouts
    simp only [Monitor.armed, Bool.false_eq_true, false_and, if_false]
    omega
  destroyed := by
    intro self
    change monitor.fSelfDestruct = true at self
    rcases spent.destroyed self with none | ⟨one, _⟩
    · exact .inl none
    · exact .inr ⟨one, .inr ⟨by simp [self], rfl⟩⟩
  keys := spent.keys
  exits := Nat.le_trans (Nat.le_of_eq (spent.no_exit (by simp [cleaning]))) (Nat.zero_le _)

theorem Spent.destroy {monitor : Monitor} (spent : Spent monitor)
    (left : monitor.checking = .left) :
    Spent { monitor with
      checking := .gone
      cleanups := if monitor.fCleanOnExit then monitor.cleanups ++ [.exit]
        else monitor.cleanups } := by
  have moved := @Spent.moveCheck monitor spent .gone monitor.fHeartbeatTriggered
    monitor.fSeenOnce monitor.fTerminating monitor.segment id (by simp [left]) (by simp [left])
    (fun terminates _ => ⟨terminates, rfl⟩)
  have none := spent.no_exit (by simp [left])
  split
  · rename_i exits
    refine ⟨?_, ?_, ?_, ?_⟩
    · simpa [List.countP_append, Cleaned.present, Monitor.armed] using moved.timeouts
    · simpa [List.countP_append, Cleaned.checked] using moved.destroyed
    · simpa [List.count_append] using moved.keys
    · simp [List.count_append, none, exits]
  · exact moved

theorem Spent.step {monitor after : Monitor} {action : MonitorAction} (spent : Spent monitor)
    (stepped : monitor.step action = some after) : Spent after := by
  cases Monitor.step_effect stepped with
  | tick _ | segment _ | signal | stamp _ | store _ | stopListening _ =>
      exact ⟨spent.timeouts, spent.destroyed, spent.keys, spent.exits⟩
  | signalMonitor => exact spent.terminate
  | receive _ => exact spent.receive
  | sleep here | finish here =>
      refine spent.moveCheck id (by simp [here]) (by simp [here]) ?_
      intro terminates _
      simp [terminates, Checking.ending]
  | readClock here | readLastHeartbeat here | spare here =>
      exact spent.moveCheck id (by simp [here]) (by simp [here]) (by simp [here, Checking.ending])
  | leave between kept =>
      rcases between with here | here <;>
        exact spent.moveCheck id (by simp [here]) (by simp [here]) fun terminates _ =>
          ⟨kept terminates, rfl⟩
  | press between | openSegment between =>
      rcases between with here | here <;>
        exact spent.moveCheck id (by simp [here]) (by simp [here])
          (by simp [here, Checking.ending])
  | openMissing between =>
      rcases between with here | here <;>
        exact spent.moveCheck (by simp) (by simp [here]) (by simp [here])
          (by simp [here, Checking.ending])
  | close between interactive => exact spent.close between interactive
  | clean judged silent => exact spent.clean judged silent
  | cleaned cleaning => exact spent.cleaned cleaning
  | destroy left => exact spent.destroy left

/-- However the threads interleave, the checks clean up an existing segment at most once for
each heartbeat, and those of a monitor that destroys itself at most once altogether.  To these
come the cleanups that are asked for: by the keys of an interactive monitor, and one by the
destructor with the option for it. -/
theorem cleanups_bounded {monitor : Monitor} (reached : monitorSystem.Reaches monitor) :
    monitor.cleanups.countP Cleaned.present ≤ monitor.heartbeats ∧
      (monitor.fSelfDestruct = true → monitor.cleanups.countP Cleaned.checked ≤ 1) ∧
      (monitor.fInteractive = false → monitor.cleanups.count .key = 0) ∧
      monitor.cleanups.count .exit ≤ if monitor.fCleanOnExit then 1 else 0 := by
  have spent : Spent monitor := by
    refine reached.invariant ?_ ?_
    · rintro _ ⟨_, _, _, _, _, _, _, _, rfl⟩
      exact ⟨Nat.le_refl _, fun _ => .inl rfl, fun _ => rfl, Nat.zero_le _⟩
    · intro before action after spent _ stepped
      exact spent.step stepped
  refine ⟨Nat.le_of_add_right_le spent.timeouts, ?_, spent.keys, ?_⟩
  · intro self
    rcases spent.destroyed self with none | ⟨one, _⟩
    · omega
    · exact Nat.le_of_eq one
  · refine Nat.le_trans spent.exits ?_
    cases monitor.fCleanOnExit <;> simp
    split <;> simp

/-- A monitor of one heartbeat that goes on looking. -/
theorem one_heartbeat_one_cleanup : ∃ monitor, monitorSystem.Reaches monitor ∧
    monitor.heartbeats = 1 ∧ monitor.cleanups ≠ [] ∧
    monitor.cleanups.countP Cleaned.present ≤ monitor.heartbeats := by
  obtain ⟨monitor, reached, one, some⟩ :
      ∃ monitor, monitorSystem.Reaches monitor ∧ monitor.heartbeats = 1 ∧
        monitor.cleanups ≠ [] :=
    TransitionSystem.reaches_of_runUnder (Monitor.start false false false false 2000 0 true)
      (heartbeatTrace ++ [.tick (2001 * millisecond)] ++ checkTrace ++ [.cleaned, .finish,
        .segment true] ++ checkTrace)
      ⟨false, false, false, false, 2000, 0, true, by decide, rfl⟩ (by decide)
  exact ⟨monitor, reached, one, some, (cleanups_bounded reached).1⟩

/-- A monitor that destroys itself and cleans up on exit does so twice. -/
example : ((monitorSystem.run (Monitor.start true false false true 2000 0 true)
    (heartbeatTrace ++ [.tick (2001 * millisecond)] ++ checkTrace ++ [.cleaned, .finish, .sleep,
      .stopListening, .destroy])).map (fun monitor => monitor.cleanups)) =
    some [.check true (2001 * millisecond) 0, .exit] := by
  decide

end FairMQ.Shmem
