import Mathlib.Algebra.Group.Nat.Defs

namespace FairMQ.Data

/-! # Non-negative binary64 arithmetic

Every operation rounds its exact result to 53 significant bits, ties to even.  The
exponent is unbounded: there are no infinities and no subnormal numbers. -/

/-- The number `mantissa * 2 ^ exponent`. -/
structure Binary64 where
  mantissa : Nat
  exponent : Int
deriving DecidableEq, Repr

namespace Binary64

def numerator (number : Binary64) : Nat :=
  number.mantissa * 2 ^ number.exponent.toNat

def denominator (number : Binary64) : Nat :=
  2 ^ (-number.exponent).toNat

def floorLog2 (numerator denominator : Nat) : Int :=
  let guess : Int := numerator.log2 - denominator.log2
  if numerator * 2 ^ (-guess).toNat < denominator * 2 ^ guess.toNat then guess - 1 else guess

def halfEven (numerator denominator : Nat) : Nat :=
  let quotient := numerator / denominator
  let rest := numerator % denominator
  if denominator < 2 * rest ∨ (2 * rest = denominator ∧ quotient % 2 = 1) then quotient + 1
  else quotient

def ofRatio (numerator denominator : Nat) : Binary64 :=
  if numerator = 0 then ⟨0, 0⟩
  else
    let exponent := floorLog2 numerator denominator - 52
    ⟨halfEven (numerator * 2 ^ (-exponent).toNat) (denominator * 2 ^ exponent.toNat), exponent⟩

def ofNat (number : Nat) : Binary64 :=
  ofRatio number 1

def mul (left right : Binary64) : Binary64 :=
  ofRatio (left.numerator * right.numerator) (left.denominator * right.denominator)

def div (left right : Binary64) : Binary64 :=
  ofRatio (left.numerator * right.denominator) (left.denominator * right.numerator)

def truncate (number : Binary64) : Nat :=
  number.numerator / number.denominator

example : (ofNat 1).div (ofNat 3) = ⟨6004799503160661, -54⟩ := by decide

end Binary64

end FairMQ.Data
