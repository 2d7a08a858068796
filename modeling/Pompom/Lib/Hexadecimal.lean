import Mathlib.Algebra.Ring.Nat
import Mathlib.Data.List.Induction

/-!
# Hexadecimal numerals

The value of a string of hexadecimal digits, and the upper-case numeral of a given
width.  Printing keeps a number modulo a power of 16 (`hexValue_toHex`), and an
upper-case numeral is what is printed for its value (`toHex_hexValue`).
-/

namespace Pompom.Lib

/-- The value of a digit, in either case. -/
def hexDigitValue (char : Char) : Option ℕ :=
  if '0' ≤ char ∧ char ≤ '9' then some (char.toNat - '0'.toNat)
  else if 'A' ≤ char ∧ char ≤ 'F' then some (char.toNat - 'A'.toNat + 10)
  else if 'a' ≤ char ∧ char ≤ 'f' then some (char.toNat - 'a'.toNat + 10)
  else none

/-- The upper-case digit of a value. -/
def hexDigit (value : ℕ) : Char :=
  value.digitChar.toUpper

/-- The number that a string of digits denotes. -/
def hexValue (chars : List Char) : ℕ :=
  chars.foldl (fun value char => 16 * value + (hexDigitValue char).getD 0) 0

/-- The last digits of a number, as many as the width says. -/
def toHex : ℕ → ℕ → List Char
  | 0, _ => []
  | width + 1, n => toHex width (n / 16) ++ [hexDigit (n % 16)]

theorem hexDigitValue_hexDigit {value : ℕ} (hvalue : value < 16) :
    hexDigitValue (hexDigit value) = some value := by
  have hall : ∀ digit < 16, hexDigitValue (hexDigit digit) = some digit := by decide
  exact hall value hvalue

@[simp] theorem length_toHex (width n : ℕ) : (toHex width n).length = width := by
  induction width generalizing n with
  | zero => rfl
  | succ width ih => simp [toHex, ih]

theorem exists_hexDigit_of_mem_toHex {width n : ℕ} {char : Char} (hmem : char ∈ toHex width n) :
    ∃ value < 16, char = hexDigit value := by
  induction width generalizing n with
  | zero => simp [toHex] at hmem
  | succ width ih =>
      rcases List.mem_append.mp hmem with hfirst | hlast
      · exact ih hfirst
      · exact ⟨n % 16, Nat.mod_lt _ (by decide), List.mem_singleton.mp hlast⟩

theorem hexValue_append_singleton (chars : List Char) (char : Char) :
    hexValue (chars ++ [char]) = 16 * hexValue chars + (hexDigitValue char).getD 0 := by
  simp [hexValue]

/-- Printing keeps a number modulo the power of 16 that the width gives. -/
theorem hexValue_toHex (width n : ℕ) : hexValue (toHex width n) = n % 16 ^ width := by
  induction width generalizing n with
  | zero => simp [toHex, hexValue, Nat.mod_one]
  | succ width ih =>
      have hlast : n % 16 < 16 := Nat.mod_lt n (by decide)
      have hsplit : n % (16 * 16 ^ width) = n % 16 + 16 * (n / 16 % 16 ^ width) := Nat.mod_mul
      rw [toHex, hexValue_append_singleton, hexDigitValue_hexDigit hlast, ih, Nat.pow_succ',
        hsplit, Option.getD_some, Nat.add_comm]

/-- An upper-case numeral is printed for its own value. -/
theorem toHex_hexValue {chars : List Char}
    (hdigits : ∀ char ∈ chars, ∃ value < 16, char = hexDigit value) :
    toHex chars.length (hexValue chars) = chars := by
  induction chars using List.reverseRecOn with
  | nil => rfl
  | append_singleton chars last ih =>
      obtain ⟨value, hvalue, rfl⟩ := hdigits last (by simp)
      have hfirst : (16 * hexValue chars + value) / 16 = hexValue chars := by omega
      have hlast : (16 * hexValue chars + value) % 16 = value := by omega
      rw [List.length_append, List.length_singleton, toHex, hexValue_append_singleton,
        hexDigitValue_hexDigit hvalue, Option.getD_some, hfirst, hlast,
        ih fun char hchar => hdigits char (by simp [hchar])]

theorem hexValue_lt {chars : List Char}
    (hdigits : ∀ char ∈ chars, ∃ value < 16, char = hexDigit value) :
    hexValue chars < 16 ^ chars.length := by
  have hvalue := hexValue_toHex chars.length (hexValue chars)
  rw [toHex_hexValue hdigits] at hvalue
  rw [hvalue]
  exact Nat.mod_lt _ (Nat.pow_pos (by decide))

/-- A numeral is printed in two parts. -/
theorem toHex_add (first second n : ℕ) :
    toHex (first + second) n = toHex first (n / 16 ^ second) ++ toHex second n := by
  induction second generalizing n with
  | zero => simp [toHex]
  | succ second ih =>
      rw [← Nat.add_assoc, toHex, ih, toHex, List.append_assoc, Nat.div_div_eq_div_mul,
        Nat.pow_succ']

/-- Only the last digits of a number are printed. -/
theorem toHex_mod (width n : ℕ) : toHex width (n % 16 ^ width) = toHex width n := by
  have hprinted := @toHex_hexValue (toHex width n) fun _ hmem => exists_hexDigit_of_mem_toHex hmem
  rw [length_toHex, hexValue_toHex] at hprinted
  exact hprinted

end Pompom.Lib
