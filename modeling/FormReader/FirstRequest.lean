import FormReader.Layout
import FormReader.Parse

/-!
# What is asked for first

Numbers, booleans, the empty string and the empty list are read without any memory. Anything
else asks for some, and the first time it does so can be told from the source: up to there,
nothing has been read but blanks and opening brackets, and then an atom whose text has to be
copied (`FormReader.FirstRequest.payload`), or a form without any text that is the first of its
list and needs room to be gathered in (`FormReader.FirstRequest.head`). Where all forms of a
source are read, the first of them needs such room as well.

The cells that tie a list together are only asked for when its items are complete, and thus
never first.
-/

namespace FormReader

/-- The size of the text of an atom, which has to be copied into an arena. -/
def Atom.payload : Atom → Nat
  | .symbol name => name.utf8ByteSize
  | .string text => text.utf8ByteSize
  | _ => 0

/-- **Forms that need no memory.** -/
inductive Form.Free : Form → Prop where
  | number (n : Int64) : Free (.atom (.number n))
  | boolean (b : Bool) : Free (.atom (.boolean b))
  | emptyString : Free (.atom (.string ""))
  | emptyList : Free (.list [])

/-- Whether there are no other bytes than blanks and opening brackets. -/
def onlyOpens (bytes : List Byte) : Prop :=
  ∀ b ∈ bytes, Byte.isBlank b = true ∨ ∃ bracket : Bracket, b = bracket.opening

/-- **The first request** that reading a source may make: how many bytes are asked for, and at
which position. -/
inductive FirstRequest (source : List Byte) : (size pos : Nat) → Prop where
  /-- The text of a symbol or a string, just behind the token or the closing quote. -/
  | payload {before text behind : List Byte} {a : Atom} :
      onlyOpens before → LaidOut text (.atom a) behind → 0 < a.payload →
      source = before ++ text ++ behind → FirstRequest source a.payload (before ++ text).length
  /-- Room for the first form of a list, just behind that form. -/
  | head {before blanks text behind : List Byte} {bracket : Bracket} {form : Form} :
      onlyOpens before → allBlank blanks → LaidOut text form behind → form.Free →
      source = before ++ bracket.opening :: blanks ++ text ++ behind →
      FirstRequest source Scratch.formWidth
        (before ++ bracket.opening :: blanks ++ text).length

/-- **The first request** that reading all forms of a source may make. -/
inductive FirstRequestOfAll (source : List Byte) : (size pos : Nat) → Prop where
  /-- What is asked for in reading the first form. -/
  | inside {size pos : Nat} : FirstRequest source size pos → FirstRequestOfAll source size pos
  /-- Room for the first form, just behind it. -/
  | first {blanks text behind : List Byte} {form : Form} :
      allBlank blanks → LaidOut text form behind → form.Free →
      source = blanks ++ text ++ behind →
      FirstRequestOfAll source Scratch.formWidth (blanks ++ text).length

/-- **A run that was cut** at the first request of another one, if that run made any: it has
run out of memory exactly if the other one holds any in the end, and then it was refused what
the other one was granted first. Otherwise nothing tells the two apart. -/
structure CutAtFirst {α : Type} (first : (size pos : Nat) → Prop) (cut free : Outcome α) :
    Prop where
  exhausted_iff : (∃ e, cut.result = .error (.exhausted e)) ↔
    free.reader.arena.isReserved = true
  refused : ∀ e, cut.result = .error (.exhausted e) →
    e.reserved = 0 ∧ free.reader.arena.granted.first? = some e.requested ∧
      first e.requested cut.reader.pos
  same : (∀ e, cut.result ≠ .error (.exhausted e)) →
    cut.result = free.result ∧ cut.reader.pos = free.reader.pos

end FormReader
