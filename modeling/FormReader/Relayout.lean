import FormReader.Session

/-!
# Changes of layout

The same forms can be laid out with other blanks between them, and with round brackets where there
were square ones. A *relayout* is a change of bytes that does no more than this: every blank is
replaced by some blank, the brackets stay as they are or the two pairs are exchanged, and all other
bytes stay in place. Several blanks may become the same one, so that a relayout need not have an
inverse.

A relayout is carried over to everything that is made of a source: to the text of strings, since
a string may hold blanks and brackets, and to nothing else in a form; to the brackets that events
tell of; and to readers, in which it changes the source and leaves the position, the arena and the
settings alone.
-/

namespace FormReader

/-- The other pair of brackets. -/
def Bracket.other : Bracket → Bracket
  | round => square
  | square => round

/-- **Changes of layout**, which replace each byte by another one. -/
structure Relayout where
  /-- What becomes of a byte. -/
  byte : Byte → Byte
  /-- Whether the two pairs of brackets are exchanged. -/
  exchanges : Bool
  byte_of_token : ∀ b, Byte.isSeparator b = false → byte b = b
  byte_of_blank : ∀ b, Byte.isBlank b = true → Byte.isBlank (byte b) = true
  byte_opening : ∀ p : Bracket, byte p.opening = (if exchanges then p.other else p).opening
  byte_closing : ∀ p : Bracket, byte p.closing = (if exchanges then p.other else p).closing

namespace Relayout

variable (k : Relayout)

/-- What becomes of a pair of brackets. -/
def bracket (p : Bracket) : Bracket := if k.exchanges then p.other else p

/-! ### Forms -/

/-- **What becomes of a text**: the change is made to each of its bytes. -/
def text (s : String) : String := (Text.ofBytes? ((Text.bytes s).map k.byte)).getD s

/-- What becomes of an atom. A symbol has no separators and stays. -/
def atom : Atom → Atom
  | .string s => .string (k.text s)
  | a => a

mutual

/-- **What becomes of a form**: the change is made to the text of its strings. -/
def form : Form → Form
  | .atom a => .atom (k.atom a)
  | .list items => .list (forms items)

/-- What becomes of some forms. -/
def forms : List Form → List Form
  | [] => []
  | item :: items => form item :: forms items

end

/-! ### Readers -/

/-- What becomes of an event: the brackets that it tells of are changed. -/
def event : Event → Event
  | .unclosed expected => .unclosed (k.bracket expected)
  | .mismatched pos expected found => .mismatched pos (k.bracket expected) (k.bracket found)
  | .unparsable pos expected => .unparsable pos (k.bracket expected)
  | e => e

/-- A cursor at the same position of the changed source. -/
def cursor (c : Cursor) : Cursor :=
  ⟨c.source.map k.byte, c.pos, c.rest.map k.byte, by
    rw [c.rest_eq, List.map_drop, Array.toList_map]⟩

/-- **What becomes of a reader**: it reads the changed source, and stands where it stood. -/
def reader (s : Reader) : Reader :=
  { s with cursor := k.cursor s.cursor, log := s.log.map k.event }

/-! ### Sessions -/

mutual

/-- What becomes of an answer. -/
def answer : Answer → Answer
  | .form result => .form (result.map k.form)
  | .forms result => .forms (result.map k.forms)
  | .finished result => .finished result
  | .item result => .item (result.map (Except.map k.form))
  | .items results => .items (results.map (Except.map k.form))
  | .attempted inner result => .attempted (reports inner) result
  | .none => .none

/-- What becomes of a report. The position and the arena are reported alike. -/
def report : Report → Report
  | .mk given pos reserved => .mk (answer given) pos reserved

/-- What becomes of some reports. -/
def reports : List Report → List Report
  | [] => []
  | r :: rest => report r :: reports rest

end

end Relayout

end FormReader
