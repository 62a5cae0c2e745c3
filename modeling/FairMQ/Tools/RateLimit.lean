import FairMQ.Data.TransitionSystem
import Mathlib.Order.Lattice
import Mathlib.Order.MinMax

namespace FairMQ.Tools

open FairMQ.Data

/-! # `RateLimiter`

A limiter counts the calls of `maybe_sleep` down and reads the clock when it comes to zero.
What it has measured since the last reading makes it sleep, or makes it count further down.
Durations are whole nanoseconds, and no calculation overflows. -/

structure RateLimiter where
  tw : Int := 0
  ts : Int := 0
  twReq : Int
  startTime : Int
  skipCheckCount : Int
  count : Int
deriving DecidableEq

def minSkipCount (twReq : Int) : Int :=
  max 1 ((5000000 : Int).tdiv twReq)

namespace RateLimiter

def new (twReq now : Int) : RateLimiter where
  twReq := twReq
  startTime := now
  skipCheckCount := minSkipCount twReq
  count := minSkipCount twReq

variable (limiter : RateLimiter)

def measure (now : Int) : RateLimiter :=
  let elapsed := now - limiter.startTime
  { limiter with
    tw :=
      if limiter.tw = 0 then elapsed.tdiv limiter.skipCheckCount
      else (1 * limiter.tw + (3 * elapsed).tdiv limiter.skipCheckCount).tdiv 4 }

/-- The time between two calls is more than 1% too long, or more than 1% too short.  An
assertion that fails ends the process. -/
def adjust : Option RateLimiter :=
  if (limiter.twReq * 65).tdiv 64 < limiter.tw then
    if 0 < limiter.ts then
      let less := ((limiter.tw - limiter.twReq) * limiter.skipCheckCount * 1).tdiv 2
      some { limiter with ts := max 0 (limiter.ts - less) }
    else
      some { limiter with
        skipCheckCount := min ((1000000000 : Int).tdiv limiter.twReq)
          ((limiter.skipCheckCount * 5 + 3).tdiv 4) }
  else if limiter.tw < (limiter.twReq * 63).tdiv 64 then
    if minSkipCount limiter.twReq < limiter.skipCheckCount then
      if limiter.ts = 0 then
        some { limiter with
          skipCheckCount :=
            max (minSkipCount limiter.twReq) ((limiter.skipCheckCount * 3).tdiv 4) }
      else none
    else
      let more := ((limiter.twReq - limiter.tw) * (limiter.skipCheckCount * 7)).tdiv 8
      some { limiter with ts := limiter.ts + more }
  else some limiter

def restart (now : Int) : RateLimiter :=
  { limiter with startTime := now, count := limiter.skipCheckCount }

/-- `maybe_sleep`, at a time that matters only if the clock is read. -/
def maybeSleep (now : Int) : Option RateLimiter :=
  if limiter.count - 1 = 0 then
    ((limiter.measure now).adjust).map fun adjusted => adjusted.restart now
  else some { limiter with count := limiter.count - 1 }

end RateLimiter

def limiterSystem (twReq : Int) : TransitionSystem RateLimiter Int where
  initial limiter := ∃ now, limiter = .new twReq now
  step limiter now := limiter.maybeSleep now

def Steady (limiter : RateLimiter) (now : Int) : Prop :=
  limiter.startTime ≤ now

instance (limiter : RateLimiter) (now : Int) : Decidable (Steady limiter now) :=
  inferInstanceAs (Decidable (_ ≤ _))

inductive Adjusted (limiter : RateLimiter) : RateLimiter → Prop where
  | sleepLess (less : Int) (sleeping : 0 < limiter.ts) :
      Adjusted limiter { limiter with ts := max 0 (limiter.ts - less) }
  | workMore (awake : limiter.ts ≤ 0) :
      Adjusted limiter { limiter with
        skipCheckCount := min ((1000000000 : Int).tdiv limiter.twReq)
          ((limiter.skipCheckCount * 5 + 3).tdiv 4) }
  | workLess (working : minSkipCount limiter.twReq < limiter.skipCheckCount) :
      Adjusted limiter { limiter with
        skipCheckCount :=
          max (minSkipCount limiter.twReq) ((limiter.skipCheckCount * 3).tdiv 4) }
  | sleepMore (missing : Int) (short : 0 ≤ missing)
      (idle : limiter.skipCheckCount ≤ minSkipCount limiter.twReq) :
      Adjusted limiter { limiter with
        ts := limiter.ts + (missing * (limiter.skipCheckCount * 7)).tdiv 8 }
  | keep : Adjusted limiter limiter

section Adjust

variable {limiter after : RateLimiter}

theorem tdiv_le_self {number : Int} (nonnegative : 0 ≤ number) :
    (number * 63).tdiv 64 ≤ number := by
  rw [Int.tdiv_eq_ediv_of_nonneg (by omega)]
  omega

theorem adjust_adjusted (positive : 1 ≤ limiter.twReq) (adjusted : limiter.adjust = some after) :
    Adjusted limiter after := by
  simp only [RateLimiter.adjust] at adjusted
  split at adjusted
  · split at adjusted
    · rename_i sleeping
      cases adjusted
      exact .sleepLess _ sleeping
    · rename_i awake
      cases adjusted
      exact .workMore (by omega)
  · split at adjusted
    · rename_i short
      have below := tdiv_le_self (by omega : 0 ≤ limiter.twReq)
      split at adjusted
      · rename_i working
        split at adjusted
        · cases adjusted
          exact .workLess working
        · cases adjusted
      · rename_i idle
        cases adjusted
        exact .sleepMore _ (by omega) (by omega)
    · cases adjusted
      exact .keep

theorem adjust_isSome (awake : minSkipCount limiter.twReq < limiter.skipCheckCount →
    limiter.ts = 0) : limiter.adjust.isSome := by
  simp only [RateLimiter.adjust]
  split
  · split <;> rfl
  · split
    · split
      · rename_i working
        rw [if_pos (awake working)]
        rfl
      · rfl
    · rfl

theorem Adjusted.twReq (adjusted : Adjusted limiter after) : after.twReq = limiter.twReq := by
  cases adjusted <;> rfl

theorem maybeSleep_cases {now : Int} (positive : 1 ≤ limiter.twReq)
    (called : limiter.maybeSleep now = some after) :
    (limiter.count ≠ 1 ∧ after = { limiter with count := limiter.count - 1 }) ∨
      ∃ adjusted, limiter.count = 1 ∧ Adjusted (limiter.measure now) adjusted ∧
        after = adjusted.restart now := by
  simp only [RateLimiter.maybeSleep] at called
  split at called
  · obtain ⟨adjusted, went, rfl⟩ := Option.map_eq_some_iff.mp called
    exact .inr ⟨adjusted, by omega, adjust_adjusted positive went, rfl⟩
  · cases called
    exact .inl ⟨by omega, rfl⟩

end Adjust

/-- Sleeping and counting further than necessary exclude each other.  A limiter that counts
from zero never checks again. -/
structure RateLimiter.Exclusive (twReq : Int) (limiter : RateLimiter) : Prop where
  period : limiter.twReq = twReq
  sleep : 0 ≤ limiter.ts
  exclusive : minSkipCount twReq < limiter.skipCheckCount → limiter.ts = 0
  running : 1 ≤ limiter.skipCheckCount ∨ limiter.count ≤ 0

theorem one_le_minSkipCount (twReq : Int) : 1 ≤ minSkipCount twReq :=
  le_max_left _ _

theorem RateLimiter.Exclusive.adjusted {twReq : Int} {limiter after : RateLimiter}
    (exclusive : limiter.Exclusive twReq) (running : 1 ≤ limiter.skipCheckCount)
    (adjusted : Adjusted limiter after) :
    0 ≤ after.ts ∧ (minSkipCount twReq < after.skipCheckCount → after.ts = 0) := by
  have sleep := exclusive.sleep
  have period := exclusive.period
  cases adjusted with
  | sleepLess less sleeping =>
      refine ⟨le_max_left _ _, fun working => ?_⟩
      have awake := exclusive.exclusive working
      omega
  | workMore awake => exact ⟨sleep, fun _ => by dsimp only; omega⟩
  | workLess working =>
      rw [period] at working
      exact ⟨sleep, fun _ => exclusive.exclusive working⟩
  | sleepMore missing short idle =>
      have more : 0 ≤ (missing * (limiter.skipCheckCount * 7)).tdiv 8 :=
        Int.tdiv_nonneg (Int.mul_nonneg short (by omega)) (by decide)
      rw [period] at idle
      exact ⟨by dsimp only; omega, fun working => by dsimp only at working; omega⟩
  | keep => exact ⟨sleep, exclusive.exclusive⟩

theorem RateLimiter.Exclusive.maybeSleep {twReq now : Int} {limiter after : RateLimiter}
    (positive : 1 ≤ twReq) (exclusive : limiter.Exclusive twReq)
    (called : limiter.maybeSleep now = some after) : after.Exclusive twReq := by
  rcases maybeSleep_cases (exclusive.period ▸ positive) called with
    ⟨_, rfl⟩ | ⟨adjusted, checks, change, rfl⟩
  · refine ⟨exclusive.period, exclusive.sleep, exclusive.exclusive, ?_⟩
    rcases exclusive.running with running | stopped
    · exact .inl running
    · exact .inr (by dsimp only; omega)
  · have running : 1 ≤ limiter.skipCheckCount := by
      rcases exclusive.running with running | stopped <;> omega
    have measured : (limiter.measure now).Exclusive twReq :=
      ⟨exclusive.period, exclusive.sleep, exclusive.exclusive, exclusive.running⟩
    obtain ⟨sleep, without⟩ := measured.adjusted running change
    refine ⟨change.twReq.trans exclusive.period, sleep, without, ?_⟩
    dsimp only [RateLimiter.restart]
    omega

theorem exclusive_of_reaches {twReq : Int} {allowed : RateLimiter → Int → Prop}
    (positive : 1 ≤ twReq) {limiter : RateLimiter}
    (reached : (limiterSystem twReq).ReachesUnder allowed limiter) :
    limiter.Exclusive twReq := by
  induction reached with
  | initial start =>
      obtain ⟨now, rfl⟩ := start
      exact ⟨rfl, le_refl _, fun _ => rfl, .inl (one_le_minSkipCount twReq)⟩
  | step _ _ called ih => exact ih.maybeSleep positive called

/-- A limiter that counts further than it has to does not sleep, so that the assertion holds
in every check, whatever the clock shows. -/
theorem sleep_excludes_skipping {twReq : Int} (positive : 1 ≤ twReq) {limiter : RateLimiter}
    (reached : (limiterSystem twReq).Reaches limiter) :
    0 ≤ limiter.ts ∧ (minSkipCount twReq < limiter.skipCheckCount → limiter.ts = 0) ∧
      ∀ now, (limiter.maybeSleep now).isSome := by
  have exclusive := exclusive_of_reaches positive reached
  refine ⟨exclusive.sleep, exclusive.exclusive, ?_⟩
  intro now
  simp only [RateLimiter.maybeSleep]
  split
  · rw [Option.isSome_map]
    apply adjust_isSome
    intro working
    exact exclusive.exclusive (exclusive.period ▸ working)
  · rfl

/-- A period of a second and a call at once: the limiter has begun to sleep. -/
theorem early_call_sleeps :
    ∃ limiter, (limiterSystem 1000000000).Reaches limiter ∧ limiter.ts = 875000000 ∧
      (minSkipCount 1000000000 < limiter.skipCheckCount → limiter.ts = 0) := by
  have called : (limiterSystem 1000000000).step (.new 1000000000 0) 0 = some
      { ts := 875000000, twReq := 1000000000, startTime := 0, skipCheckCount := 1,
        count := 1 } := by decide
  have reached : (limiterSystem 1000000000).Reaches _ :=
    .step (.initial ⟨0, rfl⟩) trivial called
  exact ⟨_, reached, rfl, (sleep_excludes_skipping (by decide) reached).2.1⟩

/-- The clock is read again after at most `skip_check_count` calls. -/
structure RateLimiter.Active (limiter : RateLimiter) : Prop where
  skips : 1 ≤ limiter.skipCheckCount
  counts : 1 ≤ limiter.count
  bounded : limiter.count ≤ limiter.skipCheckCount

theorem run_countdown (twReq : Int) (nows : List Int) (limiter : RateLimiter)
    (few : nows.length < limiter.count) :
    (limiterSystem twReq).run limiter nows =
      some { limiter with count := limiter.count - nows.length } := by
  induction nows generalizing limiter with
  | nil => simp [TransitionSystem.runUnder]
  | cons now nows ih =>
      rw [List.length_cons] at few
      have counted : (limiterSystem twReq).step limiter now =
          some { limiter with count := limiter.count - 1 } :=
        if_neg (by omega)
      simp only [TransitionSystem.runUnder, if_true, counted, List.length_cons]
      refine (ih { limiter with count := limiter.count - 1 } (by dsimp only; omega)).trans ?_
      congr 2
      dsimp only
      omega

theorem one_le_tdiv {period whole : Int} (positive : 1 ≤ period) (short : period ≤ whole) :
    1 ≤ whole.tdiv period := by
  rw [Int.tdiv_eq_ediv_of_nonneg (by omega)]
  exact (Int.le_ediv_iff_mul_le (by omega)).mpr (by omega)

theorem Adjusted.skips {limiter after : RateLimiter} (adjusted : Adjusted limiter after)
    (positive : 1 ≤ limiter.twReq) (short : limiter.twReq ≤ 1000000000)
    (skips : 1 ≤ limiter.skipCheckCount) : 1 ≤ after.skipCheckCount := by
  cases adjusted with
  | workMore awake =>
      refine le_min (one_le_tdiv positive short) ?_
      exact one_le_tdiv (by decide) (by omega)
  | workLess working => exact le_max_of_le_left (one_le_minSkipCount _)
  | sleepLess less sleeping => exact skips
  | sleepMore missing enough idle => exact skips
  | keep => exact skips

theorem active_of_reaches {twReq : Int} {allowed : RateLimiter → Int → Prop}
    (positive : 1 ≤ twReq) (short : twReq ≤ 1000000000) {limiter : RateLimiter}
    (reached : (limiterSystem twReq).ReachesUnder allowed limiter) : limiter.Active := by
  induction reached with
  | initial start =>
      obtain ⟨now, rfl⟩ := start
      exact ⟨one_le_minSkipCount twReq, one_le_minSkipCount twReq, le_refl _⟩
  | @step before after now reached _ called ih =>
      have period := (exclusive_of_reaches positive reached).period
      rcases maybeSleep_cases (period ▸ positive) called with
        ⟨counts, rfl⟩ | ⟨adjusted, _, change, rfl⟩
      · have bounds := ih.counts
        have bounded := ih.bounded
        exact ⟨ih.skips, by dsimp only; omega, by dsimp only; omega⟩
      · have skips : 1 ≤ adjusted.skipCheckCount :=
          change.skips (period ▸ positive) (period ▸ short) ih.skips
        exact ⟨skips, skips, le_refl _⟩

theorem inactive_of_long {twReq : Int} (long : 1000000000 < twReq) :
    ∃ limiter, (limiterSystem twReq).ReachesUnder Steady limiter ∧
      limiter.skipCheckCount = 0 := by
  have minimal : minSkipCount twReq = 1 := by
    rw [minSkipCount, Int.tdiv_eq_ediv_of_nonneg (by decide), Int.ediv_eq_zero_of_lt] <;> omega
  have second : (1000000000 : Int).tdiv twReq = 0 := by
    rw [Int.tdiv_eq_ediv_of_nonneg (by decide), Int.ediv_eq_zero_of_lt] <;> omega
  have slow : (twReq * 65).tdiv 64 < 2 * twReq := by
    rw [Int.tdiv_eq_ediv_of_nonneg (by omega)]
    omega
  have called : (RateLimiter.new twReq 0).maybeSleep (2 * twReq) = some
      { tw := 2 * twReq, twReq := twReq, startTime := 2 * twReq, skipCheckCount := 0,
        count := 0 } := by
    simp only [RateLimiter.maybeSleep, RateLimiter.new, RateLimiter.measure, minimal,
      RateLimiter.adjust]
    simp [slow, second, RateLimiter.restart]
  refine ⟨_, .step (.initial ⟨0, rfl⟩) ?_ called, rfl⟩
  change 0 ≤ 2 * twReq
  omega

/-- The limiter stays active for all runs exactly if the period is at most a second. -/
theorem rate_limiter_active_iff {twReq : Int} (positive : 1 ≤ twReq) :
    (∀ limiter, (limiterSystem twReq).ReachesUnder Steady limiter →
      limiter.Active ∧ ∀ nows : List Int, nows.length + 1 = limiter.count →
        (limiterSystem twReq).run limiter nows = some { limiter with count := 1 }) ↔
      twReq ≤ 1000000000 := by
  constructor
  · intro active
    by_contra long
    obtain ⟨limiter, reached, stopped⟩ := inactive_of_long (by omega : 1000000000 < twReq)
    have skips := (active limiter reached).1.skips
    omega
  · intro short limiter reached
    refine ⟨active_of_reaches positive short reached, ?_⟩
    intro nows length
    rw [run_countdown twReq nows limiter (by omega)]
    congr 2
    omega

theorem second_limiter_active :
    (RateLimiter.new 1000000000 0).Active ∧
      ∀ limiter, (limiterSystem 1000000000).ReachesUnder Steady limiter → limiter.Active := by
  have active := (rate_limiter_active_iff (by decide : (1 : Int) ≤ 1000000000)).mpr (by decide)
  exact ⟨(active _ (.initial ⟨0, rfl⟩)).1, fun limiter reached => (active limiter reached).1⟩

/-- A period of two seconds and a first call after three. -/
theorem slow_call_stops_checks :
    ∃ limiter, (RateLimiter.new 2000000000 0).maybeSleep 3000000000 = some limiter ∧
      limiter.skipCheckCount = 0 ∧ limiter.count = 0 ∧
      ((limiterSystem 2000000000).run limiter [4000000000, 5000000000, 6000000000]).map
        (fun later => (later.startTime, later.count)) = some (3000000000, -3) :=
  ⟨{ tw := 3000000000, twReq := 2000000000, startTime := 3000000000, skipCheckCount := 0,
     count := 0 }, by decide, rfl, rfl, by decide⟩

end FairMQ.Tools
