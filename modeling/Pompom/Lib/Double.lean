import Mathlib.Algebra.Ring.Int.Defs
import Mathlib.Algebra.Ring.Nat

/-!
# Double precision

The values of binary64: a mantissa of 53 bits, scaled by a power of two.  The product of
two values is the exact product, rounded to the nearest value, and to an even mantissa
where two values are equally near.  `Int` truncates a value and fails where the result
does not fit.

The exponent has no upper bound here.  What is too large for binary64 is infinite there,
and `Int` fails on it as on every large value.
-/

namespace Pompom.Lib

structure Double where
  mantissa : ℤ
  exponent : ℤ
  mantissa_lt : mantissa.natAbs < 2 ^ 53
  exponent_ge : -1074 ≤ exponent
  deriving DecidableEq, Repr

namespace Double

/-- How many bits of an exact mantissa are dropped: those beyond 53, and those below the
last place of the smallest values. -/
def droppedBits (mantissa : ℕ) (exponent : ℤ) : ℕ :=
  max (mantissa.log2 + 1 - 53) (-1074 - exponent).toNat

/-- A mantissa without its last bits, rounded to nearest, ties to even. -/
def dropBits (mantissa bits : ℕ) : ℕ :=
  let quotient := mantissa / 2 ^ bits
  let remainder := mantissa % 2 ^ bits
  if 2 ^ bits < 2 * remainder ∨ 2 * remainder = 2 ^ bits ∧ quotient % 2 = 1 then quotient + 1
  else quotient

theorem dropBits_le {mantissa bits : ℕ} (hbits : mantissa.log2 + 1 - 53 ≤ bits) :
    dropBits mantissa bits ≤ 2 ^ 53 := by
  have hquotient : mantissa / 2 ^ bits < 2 ^ 53 := by
    rw [Nat.div_lt_iff_lt_mul (Nat.two_pow_pos bits), ← Nat.pow_add]
    refine Nat.lt_of_lt_of_le Nat.lt_log2_self (Nat.pow_le_pow_right (by decide) ?_)
    omega
  unfold dropBits
  dsimp only
  split
  · exact hquotient
  · exact Nat.le_of_lt hquotient

theorem natAbs_sign_mul_le (mantissa : ℤ) (rounded : ℕ) :
    (mantissa.sign * rounded).natAbs ≤ rounded := by
  have hsign : mantissa.sign.natAbs ≤ 1 := by
    rcases Int.sign_trichotomy mantissa with hsign | hsign | hsign <;> simp [hsign]
  rw [Int.natAbs_mul, Int.natAbs_natCast]
  exact Nat.le_trans (Nat.mul_le_mul_right rounded hsign) (Nat.le_of_eq (Nat.one_mul rounded))

/-- The value that is nearest to an exact result. -/
def round (mantissa exponent : ℤ) : Double :=
  let bits := droppedBits mantissa.natAbs exponent
  let rounded := dropBits mantissa.natAbs bits
  have hexponent : -1074 ≤ exponent + bits := by
    have hbits : (-1074 - exponent).toNat ≤ bits := Nat.le_max_right _ _
    omega
  have hrounded : rounded ≤ 2 ^ 53 := dropBits_le (Nat.le_max_left _ _)
  if hfits : rounded < 2 ^ 53 then
    ⟨mantissa.sign * rounded, exponent + bits,
      Nat.lt_of_le_of_lt (natAbs_sign_mul_le mantissa rounded) hfits, hexponent⟩
  else
    -- the carry has reached a new bit, and the mantissa is even
    ⟨mantissa.sign * ↑(rounded / 2), exponent + bits + 1,
      Nat.lt_of_le_of_lt (natAbs_sign_mul_le mantissa (rounded / 2)) (by omega), by omega⟩

def mul (first second : Double) : Double :=
  round (first.mantissa * second.mantissa) (first.exponent + second.exponent)

/-- The value without its fraction. -/
def truncated (value : Double) : ℤ :=
  if 0 ≤ value.exponent then value.mantissa * 2 ^ value.exponent.toNat
  else value.mantissa.tdiv (2 ^ (-value.exponent).toNat)

/-- `Int` of a value, if it does not trap. -/
def toInt (value : Double) : Option ℤ :=
  if -2 ^ 63 ≤ value.truncated ∧ value.truncated < 2 ^ 63 then some value.truncated else none

/-- Half a second, a thousand times. -/
example : (mul ⟨1, -1, by decide, by decide⟩ ⟨1000, 0, by decide, by decide⟩).toInt = some 500 := by
  decide

end Double

end Pompom.Lib
