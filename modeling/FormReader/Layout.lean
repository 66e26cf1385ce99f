import FormReader.Text
import FormReader.Numeral
import FormReader.Form.Basic

/-!
# Layouts

The grammar of sources, told without a reader. A form has many *layouts*: blanks may
stand between items or be left out, either pair of brackets may stand around a list, a
number may be written in four radixes. This file says which sequences of bytes lay out
which form.

What makes the grammar a little more than a set of productions is that a number, a
boolean and a symbol reach up to the next separator. Whether a sequence of bytes lays
out `a` thus depends on what comes behind it, and the relations carry it along:
`FormReader.LaidOut text form behind` means that `text` lays out `form` where `behind`
follows. A string and a list carry their own end and do not care.
-/

namespace FormReader

/-- Whether some bytes are blanks, every one of them. -/
def allBlank (bytes : List Byte) : Prop :=
  ∀ b ∈ bytes, Byte.isBlank b = true

/-- Whether some bytes are a token: none of them is a separator. -/
def isToken (bytes : List Byte) : Prop :=
  ∀ b ∈ bytes, Byte.isSeparator b = false

/-- Whether a token ends before these bytes: at the end of the source or before a
separator. -/
def endsToken (behind : List Byte) : Prop :=
  ∀ b ∈ behind.head?, Byte.isSeparator b = true

/-! ### Atoms -/

/-- **Spellings of an atom.** -/
inductive Spelling : List Byte → Atom → Prop where
  /-- A numeral spells its value. -/
  | number {token : List Byte} {n : Int64} :
      isToken token → Numeral.read? token = some n → Spelling token (.number n)
  /-- The spelling of truth. -/
  | true : Spelling [Byte.hash, 't'.toUInt8] (.boolean Bool.true)
  /-- The spelling of falsehood. -/
  | false : Spelling [Byte.hash, 'f'.toUInt8] (.boolean Bool.false)
  /-- A text without quotes is spelled between quotes. -/
  | string {text : String} :
      Byte.quote ∉ Text.bytes text →
      Spelling (Byte.quote :: Text.bytes text ++ [Byte.quote]) (.string text)
  /-- Any other token that is a text spells a symbol, unless it begins like a boolean
  or a string. -/
  | symbol {name : String} :
      name ≠ "" → isToken (Text.bytes name) →
      (Text.bytes name).head? ≠ some Byte.hash → (Text.bytes name).head? ≠ some Byte.quote →
      Numeral.read? (Text.bytes name) = none →
      Spelling (Text.bytes name) (.symbol name)

/-- Whether an atom is spelled by a bare token, whose end has to be told from what
follows. -/
def Atom.isBare : Atom → Prop
  | .string _ => False
  | _ => True

/-! ### Forms and items -/

mutual

/-- **Layouts of a form** where certain bytes follow. -/
inductive LaidOut : List Byte → Form → List Byte → Prop where
  /-- An atom is laid out by its spellings. -/
  | atom {text : List Byte} {a : Atom} {behind : List Byte} :
      Spelling text a → (a.isBare → endsToken behind) → LaidOut text (.atom a) behind
  /-- A list is laid out by its items between matching brackets. -/
  | list {bracket : Bracket} {inner : List Byte} {items : List Form} {behind : List Byte} :
      ItemsLaidOut inner items (bracket.closing :: behind) →
      LaidOut (bracket.opening :: inner ++ [bracket.closing]) (.list items) behind

/-- **Layouts of a sequence of forms** where certain bytes follow: the layouts of its
forms, with any blanks before, between and behind them. -/
inductive ItemsLaidOut : List Byte → List Form → List Byte → Prop where
  /-- Blanks lay out no form at all. -/
  | nil {blanks behind : List Byte} : allBlank blanks → ItemsLaidOut blanks [] behind
  /-- A form is laid out before those that follow it. -/
  | cons {blanks text rest : List Byte} {item : Form} {items : List Form} {behind : List Byte} :
      allBlank blanks → LaidOut text item (rest ++ behind) → ItemsLaidOut rest items behind →
      ItemsLaidOut (blanks ++ text ++ rest) (item :: items) behind

end

/-! ### Sources -/

/-- **Layouts of all forms of a source.** -/
def LaysOutAll (source : List Byte) (forms : List Form) : Prop :=
  ItemsLaidOut source forms []

/-- **Layouts of a source** that consists of one form. -/
def LaysOut (source : List Byte) (form : Form) : Prop :=
  LaysOutAll source [form]

end FormReader
