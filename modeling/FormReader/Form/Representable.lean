import FormReader.Text
import FormReader.Numeral
import FormReader.Form.Basic

/-!
# Representable forms

A form made by hand can hold a symbol that is no name – the empty text, a name with a
blank in it, one that reads as a number – or a string with a quote in it. The source
text of such a form would be read as something else. A form is *representable* when
nothing of this kind is in it.
-/

namespace FormReader

/-- Whether a text can stand for a symbol: it is not empty, it has no separator, it
begins neither like a boolean nor like a string, and it is not a numeral. -/
def isName (name : String) : Bool :=
  let token := Text.bytes name
  !token.isEmpty && token.all (fun b => !Byte.isSeparator b) &&
    token.head? != some Byte.hash && token.head? != some Byte.quote &&
    (Numeral.read? token).isNone

/-- Whether a text can stand between quotes. -/
def isQuotable (text : String) : Bool :=
  (Text.bytes text).all (· != Byte.quote)

/-- Whether an atom is read back from its source text. -/
def Atom.isRepresentable : Atom → Bool
  | number _ => true
  | boolean _ => true
  | symbol name => isName name
  | string text => isQuotable text

namespace Form

mutual

/-- **Whether a form is representable**: all of its symbols are names, and all of its
strings can stand between quotes. -/
def isRepresentable : Form → Bool
  | atom a => a.isRepresentable
  | list items => areRepresentable items

/-- Whether some forms are representable, every one of them. -/
def areRepresentable : List Form → Bool
  | [] => true
  | item :: items => item.isRepresentable && areRepresentable items

end

@[simp] theorem isRepresentable_atom (a : Atom) :
    (atom a).isRepresentable = a.isRepresentable := by rw [isRepresentable]

@[simp] theorem isRepresentable_list (items : List Form) :
    (list items).isRepresentable = areRepresentable items := by rw [isRepresentable]

theorem areRepresentable_iff {items : List Form} :
    areRepresentable items = true ↔ ∀ item ∈ items, item.isRepresentable = true := by
  induction items with
  | nil => simp [areRepresentable]
  | cons item items ih => simp [areRepresentable, ih]

end Form

end FormReader
