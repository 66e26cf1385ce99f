import FormReader.Numeral
import Mathlib.Data.Nat.Digits.Defs

/-!
# What numerals denote

Numerals told without reading them. One is written from left to right: a sign or none, the mark of
a radix or none, and then digits of this radix, of which there has to be one. What it denotes is
the number that has these digits (`Nat.ofDigits`, which begins with the last of them), with the
sign. There is no greatest number among those that numerals denote, and no least one.
-/

namespace FormReader

/-- A letter is written in either case. -/
def EitherCase (letter : Char) (b : Byte) : Prop :=
  b = letter.toUInt8 ∨ b = letter.toUpper.toUInt8

instance (letter : Char) (b : Byte) : Decidable (EitherCase letter b) :=
  inferInstanceAs (Decidable (_ ∨ _))

section Letters

variable {p : Char → Prop} [DecidablePred p] (letter? : Option Char)

-- there is one letter to be looked at, and not every character there is
instance decidableExistsLetter : Decidable (∃ c ∈ letter?, p c) :=
  Option.decidableExistsMem letter?

instance decidableForallLetter : Decidable (∀ c ∈ letter?, p c) :=
  Option.decidableForallMem letter?

end Letters

namespace Radix

/-- The digits of all radixes, in the order of their values. -/
def digitChars : List Char :=
  ['0', '1', '2', '3', '4', '5', '6', '7', '8', '9', 'a', 'b', 'c', 'd', 'e', 'f']

/-- **Digits**: a byte is written for a value that is less than the base. -/
def IsDigit (r : Radix) (b : Byte) (d : Nat) : Prop :=
  d < r.base ∧ ∃ c ∈ digitChars[d]?, EitherCase c b

instance (r : Radix) (b : Byte) (d : Nat) : Decidable (r.IsDigit b d) :=
  inferInstanceAs (Decidable (_ ∧ _))

/-- The letter that a radix is marked with. Decimal has none. -/
def markChar? : Radix → Option Char
  | binary => some 'b'
  | octal => some 'o'
  | decimal => none
  | hexadecimal => some 'x'

/-- **Marks**: what is written in front of the digits to tell their radix. -/
inductive Mark : List Byte → Radix → Prop where
  /-- Decimal digits have no mark. -/
  | bare : Mark [] decimal
  /-- The others have a zero and a letter. -/
  | marked {letter : Char} {b : Byte} {r : Radix} :
      r.markChar? = some letter → EitherCase letter b → Mark ['0'.toUInt8, b] r

end Radix

namespace Numeral

/-- **Signs**, with what they multiply by. -/
inductive Sign : List Byte → Int → Prop where
  | none : Sign [] 1
  | plus : Sign ['+'.toUInt8] 1
  | minus : Sign ['-'.toUInt8] (-1)

/-- Whether some bytes are digits of a radix, and how much each of them is worth. -/
def AreDigits (r : Radix) : List Byte → List Nat → Prop :=
  List.Forall₂ r.IsDigit

instance (r : Radix) (digits : List Byte) (values : List Nat) :
    Decidable (AreDigits r digits values) :=
  inferInstanceAs (Decidable (List.Forall₂ r.IsDigit digits values))

/-- **Denoting**: a token is a sign, a mark and digits, and the integer is the one that has these
digits and this sign, however many digits there are. -/
inductive Denotes : List Byte → Int → Prop where
  | intro {sign mark digits : List Byte} {factor : Int} {r : Radix} {values : List Nat} :
      Sign sign factor → Radix.Mark mark r → digits ≠ [] → AreDigits r digits values →
      Denotes (sign ++ (mark ++ digits)) (factor * (Nat.ofDigits r.base values.reverse : Nat))

end Numeral

end FormReader
