import FormReader.Form.Text
import FormReader.Reader.Source

/-!
# Parsing

The entry points for those who have a source and want its forms.

* `FormReader.parse` and `FormReader.parseBytes` read a source that consists of a single
  form, from a text and from bytes.
* `FormReader.parseAll` reads all forms of a text.

Each of them starts a reader of its own and answers with the result and the reader
behind it, which still holds the arena and the record of what happened.
-/

namespace FormReader

/-! ### Results -/

/-- Whether a result is a success. -/
def isOk {α : Type} : Except Failure α → Bool
  | .ok _ => true
  | .error _ => false

/-- **Whether two results are the same**: equal forms, or equal failures. -/
def sameResult {α : Type} [DecidableEq α] : Except Failure α → Except Failure α → Bool
  | .ok a, .ok b => a = b
  | .error f, .error g => f = g
  | _, _ => false

theorem sameResult_iff {α : Type} [DecidableEq α] {a b : Except Failure α} :
    sameResult a b = true ↔ a = b := by
  cases a <;> cases b <;> simp [sameResult]

/-! ### Entry points -/

/-- **Parse a form** that makes up the whole source, given by its bytes. -/
def parseBytes (source : List Byte) (config : Config := {}) (arena : Arena := {}) :
    Outcome Form :=
  let s := { Reader.ofBytes source arena with config }
  let outcome := (s.record (.parsing source.length config.maxDepth)).run Reader.whole
  let reserved := outcome.reader.arena.reserved
  { outcome with reader := outcome.reader.record (.parsed (isOk outcome.result) reserved) }

/-- **Parse a form** that makes up the whole source. -/
def parse (source : String) (config : Config := {}) (arena : Arena := {}) : Outcome Form :=
  parseBytes (Text.bytes source) config arena

/-- **Parse all forms** of a source. -/
def parseAll (source : String) (arena : Arena := {}) : Outcome (List Form) :=
  let bytes := Text.bytes source
  ((Reader.ofBytes bytes arena).record (.parsingAll bytes.length)).run Reader.all

end FormReader
