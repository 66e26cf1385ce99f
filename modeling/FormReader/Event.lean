import FormReader.Byte
import FormReader.Failure

/-!
# Events

A reader keeps a record of what happens to it. Every event belongs to a level – the
small steps of the search, the milestones and causes worth knowing when a text is not
accepted, the failures that end the reading – and carries named values. Numbers of
bytes are positions in the source unless they say otherwise, and a bracket pair stands
for its closing bracket.

What an event tells of the arena is kept apart (`FormReader.Event.arenaFields`). The same
text read in two arenas may leave records that differ in this and in nothing else.
-/

namespace FormReader

/-- How much an event matters. -/
inductive Event.Level where
  | trace
  | debug
  | warn
deriving DecidableEq, Repr

/-- **What happens to a reader.** -/
inductive Event where
  /-- Reading one form out of a whole source begins. -/
  | parsing (size maxDepth : Nat)
  /-- Reading one form out of a whole source is over, and the arena holds so many bytes. -/
  | parsed (ok : Bool) (reserved : Nat)
  /-- Reading every form of a source begins. -/
  | parsingAll (size : Nat)
  /-- A rule did not match, and the cursor goes back. -/
  | rewinding (start target : Nat)
  /-- Something other than blanks follows the form. -/
  | trailing (pos : Nat)
  /-- The source ends before a list is closed. -/
  | unclosed (expected : Bracket)
  /-- A list is closed by the wrong bracket. -/
  | mismatched (pos : Nat) (expected found : Bracket)
  /-- What stands before the closing bracket of a list is not a form. -/
  | unparsable (pos : Nat) (expected : Bracket)
  /-- A bracket stands inside too many others. -/
  | tooDeep (depth limit : Nat)
  /-- The arena refused a request. -/
  | refused (cause : Exhausted)
deriving DecidableEq, Repr

namespace Event

/-- The level of an event. -/
def level : Event → Level
  | rewinding .. => .trace
  | tooDeep .. => .warn
  | refused _ => .warn
  | _ => .debug

/-- The message of an event. -/
def message : Event → String
  | parsing .. => "parsing"
  | parsed .. => "parse finished"
  | parsingAll _ => "parsing all top-level forms"
  | rewinding .. => "alternative did not match, rewinding"
  | trailing _ => "trailing input after top-level form"
  | unclosed _ => "end of input before closing bracket"
  | mismatched .. => "mismatched closing bracket"
  | unparsable .. => "unparsable input before closing bracket"
  | tooDeep .. => "bracket nesting too deep"
  | refused _ => "arena allocation failed"

/-- The positions in the source that an event tells of. -/
def positions : Event → List Nat
  | rewinding start target => [start, target]
  | trailing pos => [pos]
  | mismatched pos _ _ => [pos]
  | unparsable pos _ => [pos]
  | _ => []

/-- The named values of an event, as text, but for those that tell of the arena. -/
def fields : Event → List (String × String)
  | parsing size maxDepth => [("bytes", size.repr), ("max_depth", maxDepth.repr)]
  | parsed ok _ => [("ok", if ok then "true" else "false")]
  | parsingAll size => [("bytes", size.repr)]
  | rewinding start target => [("from", start.repr), ("to", target.repr)]
  | trailing pos => [("position", pos.repr)]
  | unclosed expected => [("expected", expected.closingChar.toString)]
  | mismatched pos expected found =>
    [("position", pos.repr), ("expected", expected.closingChar.toString),
      ("found", found.closingChar.toString)]
  | unparsable pos expected => [("position", pos.repr), ("expected", expected.closingChar.toString)]
  | tooDeep depth limit => [("depth", depth.repr), ("max_depth", limit.repr)]
  | refused _ => []

/-- The named values of an event that tell of the arena, as text. -/
def arenaFields : Event → List (String × String)
  | parsed _ reserved => [("arena_bytes", reserved.repr)]
  | refused cause => [("err", cause.message)]
  | _ => []

/-- The positions are the values with one of the names that positions have. -/
theorem map_repr_positions (e : Event) :
    e.positions.map Nat.repr =
      (e.fields.filter fun field => field.1 ∈ ["from", "to", "position"]).map Prod.snd := by
  cases e <;> rfl

end Event

end FormReader
