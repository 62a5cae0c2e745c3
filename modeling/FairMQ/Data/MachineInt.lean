import Mathlib.Algebra.Group.Int.Defs
import Mathlib.Algebra.Group.Nat.Defs

namespace FairMQ.Data

/-- `uint64_t` to `int`: the low 32 bits, read as two's complement. -/
def toInt32 (value : Nat) : Int :=
  Int.bmod value (2 ^ 32)

/-- `int` to `uint64_t`: the value modulo `2 ^ 64`. -/
def toUint64 (value : Int) : Nat :=
  (value % 2 ^ 64).toNat

def toUint32 (value : Int) : Nat :=
  (value % 2 ^ 32).toNat

theorem toUint32_of_lt {value : Nat} (small : value < 2 ^ 32) : toUint32 value = value := by
  unfold toUint32
  omega

theorem toInt32_of_lt {value : Nat} (small : value < 2 ^ 31) : toInt32 value = value := by
  unfold toInt32
  rw [Int.bmod_def]
  omega

theorem toInt32_eq_natCast_iff {value number : Nat} :
    toInt32 value = number ↔ number < 2 ^ 31 ∧ value % 2 ^ 32 = number := by
  unfold toInt32
  rw [Int.bmod_def]
  omega

theorem toInt32_toUint64 {value : Int} (lower : -2 ^ 31 ≤ value) (upper : value < 2 ^ 31) :
    toInt32 (toUint64 value) = value := by
  unfold toInt32 toUint64
  rw [Int.bmod_def]
  omega

end FairMQ.Data
