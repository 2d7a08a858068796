import Mathlib.Data.Rat.Floor
import Mathlib.Tactic.NormNum
import Mathlib.Data.List.TakeWhile
import Pompom.Lib.Hexadecimal
import Pompom.Clothes.WornColors

/-!
# Colours and their hex strings

`Util/Extensions/Color.swift`: a colour is made of the number that
`Scanner.scanHexInt64` finds in a string, one byte to a channel, and printed as three
bytes again.  The channels are exact here, so a byte survives the division and the
multiplication by 255, and the printed string is the number modulo 2 ^ 24 in six
digits (`normalHex_eq`).  Printing what was parsed is therefore a normal form, and the
strings in normal form are the real colours of the picker
(`normalHex_is_normal_form`).
-/

namespace Pompom

open Lib

/-! ## The scanner -/

namespace Scanner

/-- `CharacterSet.whitespacesAndNewlines`, which a scanner skips: the tabulation, the
line ends and the separators of Unicode. -/
def isSkipped (char : Char) : Bool :=
  let code := char.toNat
  (0x9 ≤ code && code ≤ 0xD) || code == 0x20 || code == 0x85 || code == 0xA0 || code == 0x1680 ||
    (0x2000 ≤ code && code ≤ 0x200A) || code == 0x2028 || code == 0x2029 || code == 0x202F ||
    code == 0x205F || code == 0x3000

/-- The optional `0x` in front of the digits. -/
def afterZeroX : List Char → List Char
  | '0' :: 'x' :: rest => rest
  | '0' :: 'X' :: rest => rest
  | chars => chars

/-- The run of digits that is read. -/
def digits (string : String) : List Char :=
  (afterZeroX (string.toList.dropWhile isSkipped)).takeWhile fun char =>
    (hexDigitValue char).isSome

/-- One more digit; on overflow the value stays at its maximum. -/
def accumulate (value : ℕ) (char : Char) : ℕ :=
  min (16 * value + (hexDigitValue char).getD 0) (2 ^ 64 - 1)

/-- The value of `rgbValue`, initially 0, after `scanHexInt64(&rgbValue)`. -/
def scanHexInt64 (string : String) : UInt64 :=
  .ofNat ((digits string).foldl accumulate 0)

end Scanner

/-! ## Parsing and printing -/

/-- The components of a colour. -/
structure Color where
  red : ℚ
  green : ℚ
  blue : ℚ
  deriving DecidableEq, Repr

/-- `lroundf`: to the nearest integer, and away from zero half-way between two. -/
def lroundf (value : ℚ) : ℤ :=
  if 0 ≤ value then ⌊value + 1 / 2⌋ else ⌈value - 1 / 2⌉

/-- The conversion `%02lX`. -/
def format02lX (value : ℤ) : List Char :=
  ((Nat.toDigits 16 (value % 2 ^ 64).toNat).map Char.toUpper).leftpad 2 '0'

namespace Color

def init (hex : String) : Color :=
  let rgbValue := Scanner.scanHexInt64 hex
  let r := (rgbValue &&& 0xff0000) >>> 16
  let g := (rgbValue &&& 0xff00) >>> 8
  let b := rgbValue &&& 0xff
  { red := (r.toNat : ℚ) / 0xff
    green := (g.toNat : ℚ) / 0xff
    blue := (b.toNat : ℚ) / 0xff }

def hex (color : Color) : String :=
  .ofList (format02lX (lroundf (color.red * 255)) ++ format02lX (lroundf (color.green * 255)) ++
    format02lX (lroundf (color.blue * 255)))

end Color

/-- The hex string of the colour that a string stands for. -/
def normalHex (string : String) : String :=
  (Color.init string).hex

theorem lroundf_natCast (n : ℕ) : lroundf n = n := by
  have hhalf : ⌊(n : ℚ) + 1 / 2⌋ = n := by
    rw [Int.floor_eq_iff]
    constructor <;> push_cast <;> linarith
  rw [lroundf, if_pos (Nat.cast_nonneg n), hhalf]

/-- A byte survives the way through its channel. -/
theorem lroundf_channel (n : ℕ) : lroundf ((n : ℚ) / 0xff * 255) = n := by
  rw [div_mul_cancel₀ _ (by norm_num), lroundf_natCast]

theorem format02lX_of_lt {n : ℕ} (hn : n < 256) : format02lX n = toHex 2 n := by
  have hall : ∀ byte < 256, format02lX (byte : ℕ) = toHex 2 byte := by decide +kernel
  exact hall n hn

/-! ## The normal form -/

/-- A mask of eight ones that is shifted away leaves a byte. -/
theorem and_shiftRight_eq {mask shift : ℕ} (hmask : mask >>> shift = 0xff) (n : ℕ) :
    (n &&& mask) >>> shift = n / 2 ^ shift % 256 := by
  rw [Nat.shiftRight_and_distrib, hmask, Nat.shiftRight_eq_div_pow]
  exact Nat.and_two_pow_sub_one_eq_mod _ 8

/-- The masks and shifts take the three low bytes apart. -/
theorem toNat_channels (rgbValue : UInt64) :
    ((rgbValue &&& 0xff0000) >>> 16).toNat = rgbValue.toNat / 16 ^ 4 % 16 ^ 2 ∧
      ((rgbValue &&& 0xff00) >>> 8).toNat = rgbValue.toNat / 16 ^ 2 % 16 ^ 2 ∧
      (rgbValue &&& 0xff).toNat = rgbValue.toNat % 16 ^ 2 := by
  refine ⟨?_, ?_, ?_⟩
  · rw [UInt64.toNat_shiftRight, UInt64.toNat_and]
    exact and_shiftRight_eq (by decide) rgbValue.toNat
  · rw [UInt64.toNat_shiftRight, UInt64.toNat_and]
    exact and_shiftRight_eq (by decide) rgbValue.toNat
  · rw [UInt64.toNat_and]
    exact Nat.and_two_pow_sub_one_eq_mod _ 8

/-- What is printed are the last six digits of the number that was scanned. -/
theorem normalHex_eq (string : String) :
    normalHex string = .ofList (toHex 6 (Scanner.scanHexInt64 string).toNat) := by
  obtain ⟨hr, hg, hb⟩ := toNat_channels (Scanner.scanHexInt64 string)
  have hbyte : ∀ n, n % 16 ^ 2 < 256 := fun n => Nat.mod_lt n (by decide)
  set value := (Scanner.scanHexInt64 string).toNat with hvalue
  have hparts : toHex 6 value =
      toHex 2 (value / 16 ^ 4) ++ toHex 2 (value / 16 ^ 2) ++ toHex 2 value := by
    rw [toHex_add 4 2, toHex_add 2 2, Nat.div_div_eq_div_mul, ← Nat.pow_add]
  rw [normalHex, Color.hex, Color.init]
  simp only [hr, hg, hb, lroundf_channel, format02lX_of_lt (hbyte _), toHex_mod]
  rw [hparts]

theorem mem_hexDigits_iff {char : Char} :
    char ∈ hexDigits ↔ ∃ value < 16, char = hexDigit value := by
  have hlist : hexDigits = (List.range 16).map hexDigit := by decide
  simp only [hlist, List.mem_map, List.mem_range, eq_comm]

theorem realColor_iff {hex : String} :
    RealColor hex ↔ hex.toList.length = 6 ∧
      ∀ char ∈ hex.toList, ∃ value < 16, char = hexDigit value := by
  simp [RealColor, mem_hexDigits_iff, String.length_toList]

theorem realColor_normalHex (string : String) : RealColor (normalHex string) := by
  rw [realColor_iff, normalHex_eq, String.toList_ofList]
  exact ⟨length_toHex _ _, fun _ hmem => exists_hexDigit_of_mem_toHex hmem⟩

/-! ## Real colours -/

/-- No digit is skipped. -/
theorem isSkipped_hexDigit {value : ℕ} (hvalue : value < 16) :
    Scanner.isSkipped (hexDigit value) = false := by
  have hall : ∀ digit < 16, Scanner.isSkipped (hexDigit digit) = false := by decide
  exact hall value hvalue

/-- No upper-case numeral starts with `0x`. -/
theorem afterZeroX_eq_self {chars : List Char}
    (hdigits : ∀ char ∈ chars, ∃ value < 16, char = hexDigit value) :
    Scanner.afterZeroX chars = chars := by
  have hx : ∀ value < 16, hexDigit value ≠ 'x' ∧ hexDigit value ≠ 'X' := by decide
  unfold Scanner.afterZeroX
  split
  · obtain ⟨value, hvalue, heq⟩ := hdigits 'x' (by simp)
    exact absurd heq.symm (hx value hvalue).1
  · obtain ⟨value, hvalue, heq⟩ := hdigits 'X' (by simp)
    exact absurd heq.symm (hx value hvalue).2
  · rfl

/-- The scanner reads a real colour to its end. -/
theorem digits_of_realColor {hex : String} (hreal : RealColor hex) :
    Scanner.digits hex = hex.toList := by
  obtain ⟨_, hdigits⟩ := realColor_iff.mp hreal
  have hskip : hex.toList.dropWhile Scanner.isSkipped = hex.toList := by
    refine List.dropWhile_eq_self_iff.mpr ?_
    intro hlength
    obtain ⟨value, hvalue, heq⟩ := hdigits hex.toList[0] (List.getElem_mem hlength)
    simp [heq, isSkipped_hexDigit hvalue]
  rw [Scanner.digits, hskip, afterZeroX_eq_self hdigits]
  refine List.takeWhile_eq_self_iff.mpr ?_
  intro char hchar
  obtain ⟨value, hvalue, rfl⟩ := hdigits char hchar
  rw [hexDigitValue_hexDigit hvalue]
  rfl

/-- Digit by digit the value is that of the numeral, or the maximum. -/
theorem foldl_accumulate (chars : List Char) :
    chars.foldl Scanner.accumulate 0 = min (hexValue chars) (2 ^ 64 - 1) := by
  induction chars using List.reverseRecOn with
  | nil => rfl
  | append_singleton chars last ih =>
      rw [List.foldl_append, ih, hexValue_append_singleton, List.foldl_cons, List.foldl_nil,
        Scanner.accumulate]
      omega

theorem scanHexInt64_of_realColor {hex : String} (hreal : RealColor hex) :
    (Scanner.scanHexInt64 hex).toNat = hexValue hex.toList := by
  obtain ⟨hlength, hdigits⟩ := realColor_iff.mp hreal
  have hvalue := hexValue_lt hdigits
  rw [hlength] at hvalue
  rw [Scanner.scanHexInt64, digits_of_realColor hreal, foldl_accumulate, UInt64.toNat_ofNat']
  omega

/-- A real colour is its own normal form. -/
theorem normalHex_of_realColor {hex : String} (hreal : RealColor hex) : normalHex hex = hex := by
  obtain ⟨hlength, hdigits⟩ := realColor_iff.mp hreal
  have hprinted := toHex_hexValue hdigits
  rw [hlength] at hprinted
  rw [normalHex_eq, scanHexInt64_of_realColor hreal, hprinted, String.ofList_toList]

/-- Printing the colour of a string gives six digits, which denote the scanned number
modulo 2 ^ 24; it is idempotent, and the strings that it leaves alone are those of six
upper-case digits. -/
theorem normalHex_is_normal_form (string : String) :
    RealColor (normalHex string) ∧
      hexValue (normalHex string).toList = (Scanner.scanHexInt64 string).toNat % 2 ^ 24 ∧
      normalHex (normalHex string) = normalHex string ∧
      (normalHex string = string ↔ RealColor string) := by
  have hreal := realColor_normalHex string
  refine ⟨hreal, ?_, normalHex_of_realColor hreal, ?_, normalHex_of_realColor⟩
  · rw [normalHex_eq, String.toList_ofList, hexValue_toHex]
    rfl
  · intro hsame
    exact hsame ▸ hreal

-- the mark that `clearSelectedItem` stores is printed as black
example : normalHex " " = "000000" := by decide +kernel

end Pompom
