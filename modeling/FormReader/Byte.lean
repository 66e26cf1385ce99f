/-!
# Bytes and brackets

The text of a form is a sequence of bytes, and its layout is decided by a few of
them: the blanks that may stand between forms, and the two pairs of brackets that
may stand around a list. This file names those bytes. Everything else – digits,
letters, quotes, the bytes of a longer character – is a *token byte*, and runs of
token bytes are what numbers, booleans and symbols are written with.
-/

namespace FormReader

/-- A byte of the text. -/
abbrev Byte := UInt8

/-! ### Bracket pairs -/

/-- The two pairs of brackets. A list may be written with either, but has to be
closed by the bracket that matches its opening one. -/
inductive Bracket where
  /-- The pair `(` and `)`. -/
  | round
  /-- The pair `[` and `]`. -/
  | square
deriving DecidableEq, Repr

namespace Bracket

/-- The bracket that opens a list. -/
def openingChar : Bracket → Char
  | round => '('
  | square => '['

/-- The bracket that closes a list. -/
def closingChar : Bracket → Char
  | round => ')'
  | square => ']'

/-- The byte of the opening bracket. -/
def opening (p : Bracket) : Byte := p.openingChar.toUInt8

/-- The byte of the closing bracket. -/
def closing (p : Bracket) : Byte := p.closingChar.toUInt8

/-- The bracket pair that a byte opens, if it opens one. -/
def ofOpening? (b : Byte) : Option Bracket :=
  if b = round.opening then some round
  else if b = square.opening then some square
  else none

/-- The bracket pair that a byte closes, if it closes one. -/
def ofClosing? (b : Byte) : Option Bracket :=
  if b = round.closing then some round
  else if b = square.closing then some square
  else none

@[simp] theorem ofOpening?_opening (p : Bracket) : ofOpening? p.opening = some p := by
  cases p <;> rfl

@[simp] theorem ofClosing?_closing (p : Bracket) : ofClosing? p.closing = some p := by
  cases p <;> rfl

theorem ofOpening?_eq_some_iff {b : Byte} {p : Bracket} :
    ofOpening? b = some p ↔ b = p.opening := by
  constructor
  · unfold ofOpening?
    split
    · rintro ⟨⟩; assumption
    · split
      · rintro ⟨⟩; assumption
      · rintro ⟨⟩
  · rintro rfl; simp

theorem ofClosing?_eq_some_iff {b : Byte} {p : Bracket} :
    ofClosing? b = some p ↔ b = p.closing := by
  constructor
  · unfold ofClosing?
    split
    · rintro ⟨⟩; assumption
    · split
      · rintro ⟨⟩; assumption
      · rintro ⟨⟩
  · rintro rfl; simp

end Bracket

/-! ### Byte classes -/

namespace Byte

/-- **Blanks**: space, tab, line feed, form feed and carriage return. The
vertical tab is not among them. -/
def isBlank (b : Byte) : Bool :=
  b = ' '.toUInt8 || b = '\t'.toUInt8 || b = '\n'.toUInt8 || b = '\x0c'.toUInt8 ||
    b = '\r'.toUInt8

/-- **Separators**: the bytes that end a token, that is the blanks and the four
brackets. -/
def isSeparator (b : Byte) : Bool :=
  isBlank b || (Bracket.ofOpening? b).isSome || (Bracket.ofClosing? b).isSome

/-- The double quote, which stands around the text of a string. -/
def quote : Byte := '"'.toUInt8

/-- The hash sign, with which a boolean begins. -/
def hash : Byte := '#'.toUInt8

theorem isSeparator_of_isBlank {b : Byte} (h : isBlank b = true) : isSeparator b = true := by
  simp [isSeparator, h]

@[simp] theorem isSeparator_opening (p : Bracket) : isSeparator p.opening = true := by
  simp [isSeparator]

@[simp] theorem isSeparator_closing (p : Bracket) : isSeparator p.closing = true := by
  simp [isSeparator]

@[simp] theorem isBlank_opening (p : Bracket) : isBlank p.opening = false := by
  cases p <;> decide

@[simp] theorem isBlank_closing (p : Bracket) : isBlank p.closing = false := by
  cases p <;> decide

@[simp] theorem isSeparator_quote : isSeparator quote = false := by decide

@[simp] theorem isSeparator_hash : isSeparator hash = false := by decide

end Byte

end FormReader
