import FairMQ.Data.MachineInt
import FairMQ.Options.ProgOptions
import Mathlib.Algebra.Order.Field.Rat
import Mathlib.Tactic.LinearCombination

namespace FairMQ.Device

open FairMQ.Data
open FairMQ.Options (FairMQChannel)

/-! # `LogSocketRates`

A thread passes over the sockets about once in a second.  Every socket has an interval: its
counters are sampled, and its rates are logged, in every pass of that number.  The time the
increase is divided by is that since the last pass.  Times are in nanoseconds, and quotients
are exact. -/

/-- The counters of a socket, of the type `unsigned long`. -/
@[ext]
structure Counters where
  bytesRx : UInt64
  messagesRx : UInt64
  bytesTx : UInt64
  messagesTx : UInt64
deriving DecidableEq

structure FilteredSocket where
  channelName : String
  logInterval : Nat
  positive : 0 < logInterval
deriving DecidableEq

def filterSockets (fChannels : List (String × List FairMQChannel)) : List FilteredSocket :=
  fChannels.flatMap fun (name, channels) =>
    channels.zipIdx.filterMap fun (channel, i) =>
      if logged : 0 < channel.fRateLogging then
        some
          { channelName := name ++ "[" ++ toString i ++ "]"
            logInterval := channel.fRateLogging.toNat
            positive := by omega }
      else none

/-- A division by zero gives no number. -/
def perSecond (increase : ℚ) (msSinceLastLog : Nat) : Option ℚ :=
  if msSinceLastLog = 0 then none else some (increase / msSinceLastLog * 1000)

structure Rates where
  msgPerSecIn : Option ℚ
  mbPerSecIn : Option ℚ
  msgPerSecOut : Option ℚ
  mbPerSecOut : Option ℚ
deriving DecidableEq

def increase (old new : UInt64) : ℚ :=
  ((new - old).toNat : ℚ)

def Rates.between (old new : Counters) (msSinceLastLog : Nat) : Rates where
  msgPerSecIn := perSecond (increase old.messagesRx new.messagesRx) msSinceLastLog
  mbPerSecIn := perSecond (increase old.bytesRx new.bytesRx / (1000 * 1000)) msSinceLastLog
  msgPerSecOut := perSecond (increase old.messagesTx new.messagesTx) msSinceLastLog
  mbPerSecOut := perSecond (increase old.bytesTx new.bytesTx / (1000 * 1000)) msSinceLastLog

/-- The time between two passes as `unsigned long long`, in whole milliseconds. -/
def msSinceLastLog (t0 t1 : Int) : Nat :=
  toUint64 ((t1 - t0).tdiv 1000000)

structure Sampling where
  intervalCounter : Nat
  counters : Counters
deriving DecidableEq

def Sampling.pass (socket : FilteredSocket) (ms : Nat) (new : Counters) (sampling : Sampling) :
    Sampling × Option Rates :=
  if sampling.intervalCounter + 1 = socket.logInterval then
    (⟨0, new⟩, some (.between sampling.counters new ms))
  else ({ sampling with intervalCounter := sampling.intervalCounter + 1 }, none)

structure LogLine where
  socket : Nat
  channelName : String
  rates : Rates
deriving DecidableEq

structure RateLoop where
  t0 : Int
  samplings : List (FilteredSocket × Sampling)
deriving DecidableEq

namespace RateLoop

variable (loop : RateLoop) (t1 : Int) (counters : Nat → Counters)

def pass : RateLoop where
  t0 := t1
  samplings := loop.samplings.mapIdx fun i (socket, sampling) =>
    (socket, (sampling.pass socket (msSinceLastLog loop.t0 t1) (counters i)).1)

def lines : List LogLine :=
  loop.samplings.zipIdx.filterMap fun ((socket, sampling), i) =>
    (sampling.pass socket (msSinceLastLog loop.t0 t1) (counters i)).2.map
      (LogLine.mk i socket.channelName)

end RateLoop

/-- The clock and the counters of the sockets in every pass; the first counters are read
before the loop. -/
structure Observation where
  time : Nat → Int
  counters : Nat → Nat → Counters

variable (observation : Observation) (sockets : List FilteredSocket)

def logSocketRates : Nat → RateLoop
  | 0 => ⟨observation.time 0, sockets.mapIdx fun i socket =>
      (socket, ⟨0, observation.counters 0 i⟩)⟩
  | n + 1 => (logSocketRates n).pass (observation.time (n + 1)) (observation.counters (n + 1))

def logged : Nat → List LogLine
  | 0 => []
  | n + 1 => (logSocketRates observation sockets n).lines (observation.time (n + 1))
      (observation.counters (n + 1))

theorem succ_mod_of_last {n k : Nat} (last : n % k + 1 = k) : (n + 1) % k = 0 := by
  rw [← Nat.mod_add_mod, last, Nat.mod_self]

theorem succ_mod_of_inner {n k : Nat} (positive : 0 < k) (inner : n % k + 1 ≠ k) :
    (n + 1) % k = n % k + 1 := by
  have below := Nat.mod_lt n positive
  rw [← Nat.mod_add_mod, Nat.mod_eq_of_lt (by omega)]

theorem dvd_succ_iff {n k : Nat} (positive : 0 < k) : k ∣ n + 1 ↔ n % k + 1 = k := by
  rw [Nat.dvd_iff_mod_eq_zero]
  constructor
  · intro none
    by_contra inner
    rw [succ_mod_of_inner positive inner] at none
    cases none
  · exact succ_mod_of_last

def samplingAfter (n i : Nat) (socket : FilteredSocket) : Sampling :=
  ⟨n % socket.logInterval, observation.counters (n - n % socket.logInterval) i⟩

theorem samplingAfter_pass (n i ms : Nat) (socket : FilteredSocket) :
    ((samplingAfter observation n i socket).pass socket ms (observation.counters (n + 1) i)).1 =
      samplingAfter observation (n + 1) i socket := by
  unfold Sampling.pass samplingAfter
  dsimp only
  split
  · rename_i last
    rw [succ_mod_of_last last]
    rfl
  · rename_i inner
    rw [succ_mod_of_inner socket.positive inner, Nat.add_sub_add_right]

theorem logSocketRates_state (n : Nat) :
    (logSocketRates observation sockets n).t0 = observation.time n ∧
      (logSocketRates observation sockets n).samplings = sockets.mapIdx fun i socket =>
        (socket, samplingAfter observation n i socket) := by
  induction n with
  | zero =>
      refine ⟨rfl, congrArg sockets.mapIdx (funext fun i => funext fun socket => ?_)⟩
      simp [samplingAfter]
  | succ n ih =>
      refine ⟨rfl, ?_⟩
      simp only [logSocketRates, RateLoop.pass, ih.2, List.mapIdx_mapIdx]
      refine congrArg sockets.mapIdx (funext fun i => funext fun socket => ?_)
      exact congrArg (Prod.mk socket) (samplingAfter_pass observation n i _ socket)

def lineOf (n i : Nat) (socket : FilteredSocket) : LogLine where
  socket := i
  channelName := socket.channelName
  rates := .between (observation.counters (n + 1 - socket.logInterval) i)
    (observation.counters (n + 1) i)
    (msSinceLastLog (observation.time n) (observation.time (n + 1)))

theorem samplingAfter_rates (n i ms : Nat) (socket : FilteredSocket) (new : Counters) :
    ((samplingAfter observation n i socket).pass socket ms new).2 =
      if socket.logInterval ∣ n + 1 then
        some (.between (observation.counters (n + 1 - socket.logInterval) i) new ms)
      else none := by
  unfold Sampling.pass samplingAfter
  dsimp only
  by_cases last : n % socket.logInterval + 1 = socket.logInterval
  · have start : n - n % socket.logInterval = n + 1 - socket.logInterval := by omega
    rw [if_pos last, if_pos ((dvd_succ_iff socket.positive).mpr last), start]
  · rw [if_neg last, if_neg ((dvd_succ_iff socket.positive).not.mpr last)]

variable {observation sockets}

theorem mem_logged_iff {n : Nat} {line : LogLine} :
    line ∈ logged observation sockets (n + 1) ↔
      ∃ i socket, sockets[i]? = some socket ∧ socket.logInterval ∣ n + 1 ∧
        line = lineOf observation n i socket := by
  obtain ⟨t0, samplings⟩ := logSocketRates_state observation sockets n
  simp only [logged, RateLoop.lines, t0, samplings, List.mem_filterMap, Prod.exists,
    List.mem_zipIdx_iff_getElem?, List.getElem?_mapIdx, Option.map_eq_some_iff, Prod.mk.injEq]
  constructor
  · rintro ⟨_, _, i, ⟨socket, found, rfl, rfl⟩, rates, isRates, rfl⟩
    rw [samplingAfter_rates] at isRates
    split at isRates
    · rename_i whole
      cases isRates
      exact ⟨i, socket, found, whole, rfl⟩
    · cases isRates
  · rintro ⟨i, socket, found, whole, rfl⟩
    refine ⟨socket, _, i, ⟨socket, found, rfl, rfl⟩, _, ?_, rfl⟩
    rw [samplingAfter_rates, if_pos whole]

def Sampled (observation : Observation) (sockets : List FilteredSocket) (i n : Nat) : Prop :=
  n = 0 ∨ ∃ line ∈ logged observation sockets n, line.socket = i

theorem sampled_iff {i n : Nat} {socket : FilteredSocket} (found : sockets[i]? = some socket) :
    Sampled observation sockets i n ↔ socket.logInterval ∣ n := by
  cases n with
  | zero => simp [Sampled]
  | succ n =>
      simp only [Sampled, Nat.succ_ne_zero, false_or, mem_logged_iff]
      constructor
      · rintro ⟨_, ⟨j, other, foundOther, whole, rfl⟩, rfl⟩
        cases found.symm.trans foundOther
        exact whole
      · intro whole
        exact ⟨lineOf observation n i socket, ⟨i, socket, found, whole, rfl⟩, rfl⟩

structure PreviousSample (observation : Observation) (sockets : List FilteredSocket)
    (i m n : Nat) : Prop where
  earlier : m < n
  sampled : Sampled observation sockets i m
  latest : ∀ j, m < j → j < n → ¬ Sampled observation sockets i j

theorem previousSample {i n : Nat} {socket : FilteredSocket} (found : sockets[i]? = some socket)
    (positive : 0 < n) (whole : socket.logInterval ∣ n) :
    PreviousSample observation sockets i (n - socket.logInterval) n where
  earlier := Nat.sub_lt positive socket.positive
  sampled := (sampled_iff found).mpr (Nat.dvd_sub whole (dvd_refl _))
  latest := by
    intro j after before sampled
    have difference := Nat.dvd_sub whole ((sampled_iff found).mp sampled)
    have large := Nat.le_of_dvd (by omega) difference
    omega

def IsRate (counted : ℚ) (elapsed : Int) (value : Option ℚ) : Prop :=
  elapsed ≠ 0 ∧ value = some (counted / ((elapsed : ℚ) / 1000000000))

theorem perSecond_isRate_iff {counted : ℚ} {elapsed : Int} {ms : Nat} :
    IsRate counted elapsed (perSecond counted ms) ↔
      ms ≠ 0 ∧ elapsed ≠ 0 ∧ (counted = 0 ∨ (ms : Int) * 1000000 = elapsed) := by
  unfold IsRate perSecond
  by_cases none : ms = 0
  · simp [none]
  · by_cases still : elapsed = 0
    · simp [still]
    · have msNonzero : (ms : ℚ) ≠ 0 := by exact_mod_cast none
      have elapsedNonzero : (elapsed : ℚ) ≠ 0 := by exact_mod_cast still
      have quotients : counted / ms * 1000 = counted / (elapsed / 1000000000) ↔
          counted * elapsed = counted * (ms * 1000000) := by
        rw [div_mul_eq_mul_div, div_div_eq_mul_div, div_eq_div_iff msNonzero elapsedNonzero]
        constructor
        · intro same
          linear_combination same / 1000
        · intro same
          linear_combination 1000 * same
      rw [if_neg none, Option.some.injEq, quotients, mul_eq_mul_left_iff, or_comm]
      have integral : (elapsed : ℚ) = ms * 1000000 ↔ (ms : Int) * 1000000 = elapsed := by
        rw [eq_comm]
        exact_mod_cast Iff.rfl
      simp only [integral, none, still, ne_eq, not_false_eq_true, true_and]

structure Rates.Correct (old new : Counters) (elapsed : Int) (rates : Rates) : Prop where
  msgPerSecIn : IsRate (increase old.messagesRx new.messagesRx) elapsed rates.msgPerSecIn
  mbPerSecIn : IsRate (increase old.bytesRx new.bytesRx / 1000000) elapsed rates.mbPerSecIn
  msgPerSecOut : IsRate (increase old.messagesTx new.messagesTx) elapsed rates.msgPerSecOut
  mbPerSecOut : IsRate (increase old.bytesTx new.bytesTx / 1000000) elapsed rates.mbPerSecOut

theorem increase_eq_zero_iff {old new : UInt64} : increase old new = 0 ↔ old = new := by
  unfold increase
  rw [Nat.cast_eq_zero]
  constructor
  · intro none
    have same : new - old = 0 := UInt64.toNat_inj.mp none
    rw [UInt64.sub_eq_iff_eq_add, UInt64.zero_add] at same
    exact same.symm
  · rintro rfl
    simp

theorem between_correct_iff {old new : Counters} {elapsed : Int} {ms : Nat} :
    (Rates.between old new ms).Correct old new elapsed ↔
      ms ≠ 0 ∧ elapsed ≠ 0 ∧ (old = new ∨ (ms : Int) * 1000000 = elapsed) := by
  have million : (1000 * 1000 : ℚ) = 1000000 := by norm_num
  have scaled : ∀ {counted : ℚ}, counted / 1000000 = 0 ↔ counted = 0 := by
    intro counted
    rw [div_eq_zero_iff, or_iff_left (by norm_num)]
  rw [Counters.ext_iff]
  constructor
  · rintro ⟨msgIn, mbIn, msgOut, mbOut⟩
    simp only [Rates.between, million, perSecond_isRate_iff, scaled, increase_eq_zero_iff]
      at msgIn mbIn msgOut mbOut
    refine ⟨msgIn.1, msgIn.2.1, ?_⟩
    by_cases same : (ms : Int) * 1000000 = elapsed
    · exact .inr same
    · exact .inl ⟨mbIn.2.2.resolve_right same, msgIn.2.2.resolve_right same,
        mbOut.2.2.resolve_right same, msgOut.2.2.resolve_right same⟩
  · rintro ⟨some, moved, same⟩
    constructor <;>
      simp only [Rates.between, million, perSecond_isRate_iff, scaled, increase_eq_zero_iff]
    · exact ⟨some, moved, same.imp_left (·.2.1)⟩
    · exact ⟨some, moved, same.imp_left (·.1)⟩
    · exact ⟨some, moved, same.imp_left (·.2.2.2)⟩
    · exact ⟨some, moved, same.imp_left (·.2.2.1)⟩

/-- A line holds rates exactly if nothing has been counted since the last sample of its socket,
or if all the time since then is that of the last pass, in whole milliseconds. -/
theorem logged_rates_iff (observation : Observation) (sockets : List FilteredSocket) {n : Nat}
    {line : LogLine} (member : line ∈ logged observation sockets n) :
    ∃ m, PreviousSample observation sockets line.socket m n ∧
      (line.rates.Correct (observation.counters m line.socket)
          (observation.counters n line.socket) (observation.time n - observation.time m) ↔
        msSinceLastLog (observation.time (n - 1)) (observation.time n) ≠ 0 ∧
        observation.time n - observation.time m ≠ 0 ∧
        (observation.counters m line.socket = observation.counters n line.socket ∨
          (msSinceLastLog (observation.time (n - 1)) (observation.time n) : Int) * 1000000 =
            observation.time n - observation.time m)) := by
  cases n with
  | zero => cases member
  | succ n =>
      obtain ⟨i, socket, found, whole, rfl⟩ := mem_logged_iff.mp member
      exact ⟨n + 1 - socket.logInterval, previousSample found n.succ_pos whole,
        between_correct_iff⟩

/-- The first pass comes at once and the others in whole seconds, and a message of a megabyte
comes in each. -/
def steadyInput : Observation where
  time n := (n - 1 : Nat) * 1000000000
  counters n _ := ⟨.ofNat ((n - 1) * 1000000), .ofNat (n - 1), 0, 0⟩

theorem every_pass_logged_correctly :
    ∃ line m, logged steadyInput (filterSockets [("in", [{ fRateLogging := 1 }])]) 2 = [line] ∧
      PreviousSample steadyInput (filterSockets [("in", [{ fRateLogging := 1 }])]) 0 m 2 ∧
      line.rates = ⟨some 1, some 1, some 0, some 0⟩ ∧
      line.rates.Correct (steadyInput.counters m 0) (steadyInput.counters 2 0)
        (steadyInput.time 2 - steadyInput.time m) := by
  have isLogged : logged steadyInput (filterSockets [("in", [{ fRateLogging := 1 }])]) 2 =
      [⟨0, "in[0]", ⟨some 1, some 1, some 0, some 0⟩⟩] := by decide +kernel
  have member : (⟨0, "in[0]", ⟨some 1, some 1, some 0, some 0⟩⟩ : LogLine) ∈
      logged steadyInput (filterSockets [("in", [{ fRateLogging := 1 }])]) 2 :=
    isLogged ▸ List.mem_singleton_self _
  obtain ⟨m, previous, law⟩ := logged_rates_iff steadyInput _ member
  have isOne : m = 1 := by
    have earlier := previous.earlier
    by_contra other
    exact previous.latest 1 (by omega) (by decide) (.inr ⟨_, List.mem_singleton_self _, rfl⟩)
  subst isOne
  exact ⟨_, 1, isLogged, previous, rfl, law.mpr ⟨by decide, by decide, .inr (by decide)⟩⟩

/-- With an interval of two passes the rates are twice as high. -/
theorem every_second_pass_doubled :
    (logged steadyInput (filterSockets [("in", [{ fRateLogging := 2 }])]) 2).length = 1 ∧
    logged steadyInput (filterSockets [("in", [{ fRateLogging := 2 }])]) 3 = [] ∧
    logged steadyInput (filterSockets [("in", [{ fRateLogging := 2 }])]) 4 =
      [⟨0, "in[0]", ⟨some 2, some 2, some 0, some 0⟩⟩] ∧
    ¬ Rates.Correct (steadyInput.counters 2 0) (steadyInput.counters 4 0)
      (steadyInput.time 4 - steadyInput.time 2) ⟨some 2, some 2, some 0, some 0⟩ := by
  refine ⟨by decide +kernel, by decide +kernel, by decide +kernel, ?_⟩
  rintro ⟨⟨_, isRate⟩, _⟩
  exact absurd isRate (by decide +kernel)

end FairMQ.Device
