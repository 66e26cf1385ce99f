import FormReader.Numeral
import FormReader.Inspect
import FormReader.Form.Basic

/-!
# Writing forms

Two texts for every form.

* `FormReader.Form.text` is the **source text**: numbers in decimal, booleans `#t`
  and `#f`, symbols as they are, strings between quotes and otherwise untouched,
  lists in round brackets with one space between the items. A form that was read
  from a source reads back from this text; a hand-made one need not, since a
  symbol may have any name and a string may hold a quote.
* `FormReader.Form.inspect` is the **inspection text**, which shows how the form is
  built and tells a symbol from a string. A list appears as a chain of cells, each
  with an item at its head and the rest of the list at its tail.
-/

namespace FormReader

/-! ### Source text -/

/-- The source text of an atom. A string is not escaped. -/
def Atom.text : Atom → String
  | number value => Numeral.text value
  | boolean true => "#t"
  | boolean false => "#f"
  | symbol name => name
  | string text => "\"" ++ text ++ "\""

namespace Form

mutual

/-- The source text of a form. -/
def text : Form → String
  | atom value => value.text
  | list items => "(" ++ spacedText items ++ ")"

/-- The source texts of some forms, with a space between each and the next. -/
def spacedText : List Form → String
  | [] => ""
  | item :: items => item.text ++ followingText items

/-- The source texts of some forms, with a space before each. -/
def followingText : List Form → String
  | [] => ""
  | item :: items => " " ++ item.text ++ followingText items

end

/-! ### Inspection text -/

end Form

/-- The inspection text of an atom. -/
def Atom.inspect : Atom → String
  | number value => Inspect.tagged "Number" (Numeral.text value)
  | boolean value => Inspect.tagged "Boolean" (if value then "true" else "false")
  | symbol name => Inspect.tagged "Symbol" (Inspect.quoted name)
  | string text => Inspect.tagged "String" (Inspect.quoted text)

namespace Form

/-- The inspection text of a cell, from those of its head and its tail. -/
def cellInspect (head tail : String) : String :=
  Inspect.record "List" [("head", head), ("tail", tail)]

mutual

/-- The inspection text of a form. -/
def inspect : Form → String
  | atom value => Inspect.tagged "Atom" value.inspect
  | list items => Inspect.tagged "List" (Inspect.optional (chainInspect? items))

/-- The inspection text of the chain of cells that holds the items. There is none
for no items. -/
def chainInspect? : List Form → Option String
  | [] => none
  | item :: items =>
    some (cellInspect item.inspect (Inspect.optional (chainInspect? items)))

end

end Form

end FormReader
