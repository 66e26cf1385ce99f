import FormReader.Byte

/-!
# Numerals

A token is a *numeral* when it consists of an optional sign, an optional radix
mark and at least one digit of that radix: `7`, `-0042`, `+0x1F`, `0b101`. Its
value is the exact integer that the digits denote, however many there are
(`FormReader.Numeral.value?`), and a numeral is accepted when this value fits into
64 bits with sign.

`FormReader.Numeral.read?` is the reading direction. It adds up the digits in 64
bits without a sign, which is enough for what is accepted in the end. It is total on byte
sequences and answers `none` for everything that is not a numeral in range: a
second sign, a radix mark without digits, a digit too large for the radix, or any
byte that is not ASCII. `FormReader.Numeral.text` is the writing direction, which
uses decimal digits alone.
-/

namespace FormReader

/-! ### Radixes and their digits -/

/-- The radixes a numeral can be written in. -/
inductive Radix where
  | binary
  | octal
  | decimal
  | hexadecimal
deriving DecidableEq, Repr

namespace Radix

/-- How many digits a radix has. -/
def base : Radix → Nat
  | binary => 2
  | octal => 8
  | decimal => 10
  | hexadecimal => 16

/-- The radix that a letter after a leading zero stands for. Decimal has none. -/
def ofMark? (b : Byte) : Option Radix :=
  if b = 'x'.toUInt8 || b = 'X'.toUInt8 then some hexadecimal
  else if b = 'o'.toUInt8 || b = 'O'.toUInt8 then some octal
  else if b = 'b'.toUInt8 || b = 'B'.toUInt8 then some binary
  else none

/-- The value of a byte among the sixteen hexadecimal digits, letters in either
case. -/
def digitValue? (b : Byte) : Option Nat :=
  if '0'.toUInt8 ≤ b && b ≤ '9'.toUInt8 then some (b.toNat - '0'.toNat)
  else if 'a'.toUInt8 ≤ b && b ≤ 'f'.toUInt8 then some (b.toNat - 'a'.toNat + 10)
  else if 'A'.toUInt8 ≤ b && b ≤ 'F'.toUInt8 then some (b.toNat - 'A'.toNat + 10)
  else none

/-- The value of a byte as a digit of the radix. -/
def digit? (r : Radix) (b : Byte) : Option Nat :=
  (digitValue? b).filter (· < r.base)

end Radix

namespace Numeral

/-! ### Reading -/

/-- Take the sign off a token: whether it is a minus, and what follows it. -/
def splitSign : List Byte → Bool × List Byte
  | [] => (false, [])
  | b :: rest =>
    if b = '-'.toUInt8 then (true, rest)
    else if b = '+'.toUInt8 then (false, rest)
    else (false, b :: rest)

/-- Take the radix mark off an unsigned token. Without one the radix is decimal
and nothing is taken off. -/
def splitRadix : List Byte → Radix × List Byte
  | zero :: mark :: rest =>
    if zero = '0'.toUInt8 then
      match Radix.ofMark? mark with
      | some radix => (radix, rest)
      | none => (.decimal, zero :: mark :: rest)
    else (.decimal, zero :: mark :: rest)
  | digits => (.decimal, digits)

/-- The number that follows `value` when one more digit is written behind it. -/
def appendDigit (radix : Radix) (value : Nat) (b : Byte) : Option Nat :=
  (radix.digit? b).map (value * radix.base + ·)

/-- The number that a nonempty sequence of digits denotes, of whatever size. -/
def magnitude? (radix : Radix) (digits : List Byte) : Option Nat :=
  if digits.isEmpty then none else digits.foldlM (appendDigit radix) 0

/-- The number that follows `value` in 64 bits, if it fits. -/
def appendDigit64 (radix : Radix) (value : UInt64) (b : Byte) : Option UInt64 :=
  ((appendDigit radix value.toNat b).filter (· < UInt64.size)).map UInt64.ofNat

/-- The number that a nonempty sequence of digits denotes, if none on the way to it is too
large for 64 bits. -/
def magnitude64? (radix : Radix) (digits : List Byte) : Option UInt64 :=
  if digits.isEmpty then none else digits.foldlM (appendDigit64 radix) 0

/-- The integer of a magnitude with a sign. -/
def signed (negative : Bool) (magnitude : Nat) : Int :=
  if negative then -(magnitude : Int) else (magnitude : Int)

/-- The integer that a token denotes, of whatever size. -/
def value? (token : List Byte) : Option Int :=
  let (negative, unsigned) := splitSign token
  let (radix, digits) := splitRadix unsigned
  (magnitude? radix digits).map (signed negative)

/-- Whether an integer fits into 64 bits with sign. -/
def fits (v : Int) : Bool :=
  Int64.minValue.toInt ≤ v && v ≤ Int64.maxValue.toInt

/-- **Reading a numeral**: the number that a token denotes, if it denotes one that
fits. -/
def read? (token : List Byte) : Option Int64 :=
  let (negative, unsigned) := splitSign token
  let (radix, digits) := splitRadix unsigned
  let value? := (magnitude64? radix digits).map fun m => signed negative m.toNat
  (value?.filter fits).map Int64.ofInt

/-! ### Writing -/

/-- **Writing a number**: decimal digits without leading zeros, behind a minus sign
where it is negative. -/
def text (n : Int64) : String :=
  if n.toInt < 0 then "-" ++ n.toInt.natAbs.repr else n.toInt.natAbs.repr

/-- A number that fits is not changed by its representation in 64 bits. -/
theorem toInt_ofInt_of_fits {v : Int} (h : fits v = true) : (Int64.ofInt v).toInt = v := by
  simp only [fits, Bool.and_eq_true, decide_eq_true_eq, Int64.toInt_minValue,
    Int64.toInt_maxValue] at h
  exact Int64.toInt_ofInt_of_le (by omega) (by omega)

end Numeral

end FormReader
