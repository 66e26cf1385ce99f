import FormReader.Arena.Scratch
import FormReader.Config
import FormReader.Cursor.Basic
import FormReader.Event

/-!
# Readers

A reader is a cursor on a source, an arena for what it reads, some settings, and a record
of what has happened so far. A *rule* (`FormReader.ReadM`) is a computation on a reader
that finds something at the cursor or fails. Failing does not undo anything by itself: the
reader behind a failure shows where the rule gave up, what it had asked the arena for and
what it had recorded.

Choice between rules is made by `FormReader.Reader.attempt`, the only place where a
cursor is put back, and repetition by `FormReader.Reader.gather`. How deep brackets may
nest is a setting of the reader. How deep they do nest at the moment is not a part of
it: the rules hand that on as an argument, so there is nothing to restore when a failure
leaves several lists at once.
-/

namespace FormReader

/-- **Readers.** -/
structure Reader where
  cursor : Cursor
  arena : Arena := {}
  config : Config := {}
  /-- Whether iteration over the forms of the source has met a failure. -/
  halted : Bool := false
  /-- What has happened to the reader, latest first. -/
  log : List Event := []

/-- **Rules**: computations that find something at the cursor of a reader or fail,
and in either case leave the reader in a certain state. -/
abbrev ReadM := EStateM Failure Reader

/-- What came of a rule, and the reader behind it. -/
structure Outcome (α : Type) where
  result : Except Failure α
  reader : Reader

namespace Reader

/-- A reader at the beginning of a source. -/
def ofBytes (source : List Byte) (arena : Arena := {}) : Reader :=
  { cursor := Cursor.ofBytes source, arena }

/-- The position of the cursor. -/
def pos (s : Reader) : Nat := s.cursor.pos

/-- What has happened to the reader, in order. -/
def events (s : Reader) : List Event := s.log.reverse

/-- Record one more event. -/
def record (e : Event) (s : Reader) : Reader := { s with log := e :: s.log }

/-- Run a rule on a reader. -/
def run {α : Type} (rule : ReadM α) (s : Reader) : Outcome α :=
  match rule s with
  | .ok a s => ⟨.ok a, s⟩
  | .error f s => ⟨.error f, s⟩

variable {α β : Type}

/-! ### Steps that cannot be divided -/

/-- Record an event. -/
def observe (e : Event) : ReadM Unit := modify (record e)

/-- Make a move, or fail where it is not possible. -/
def scan (move : Cursor → Option Cursor) : ReadM Unit := fun s =>
  match move s.cursor with
  | some cursor => .ok () { s with cursor }
  | none => .error .noMatch s

/-- Make a move if it is possible, and tell whether it was. -/
def scanned (move : Cursor → Option Cursor) : ReadM Bool := fun s =>
  match move s.cursor with
  | some cursor => .ok true { s with cursor }
  | none => .ok false s

/-- Take a token. -/
def token : ReadM (List Byte) := fun s =>
  match s.cursor.token? with
  | some (token, cursor) => .ok token { s with cursor }
  | none => .error .outOfRange s

/-- The bytes between two positions. -/
def slice (start stop : Nat) : ReadM (List Byte) := fun s =>
  match s.cursor.slice? start stop with
  | some bytes => .ok bytes s
  | none => .error .outOfRange s

/-- A value that was found, or a failure if there is none. -/
def found : Option α → ReadM α
  | some a => pure a
  | none => throw .noMatch

/-- **Asking for memory.** A refusal is recorded and ends the reading. -/
def ask (request : ArenaM α) : ReadM α := fun s =>
  match request s.arena with
  | .ok a arena => .ok a { s with arena }
  | .error e arena => .error (.exhausted e) (record (.refused e) { s with arena })

/-! ### Choice and repetition -/

/-- Put the cursor of a failed rule back to where it was before, and record it. -/
def rewind (cursor : Cursor) (s : Reader) : Reader :=
  record (.rewinding s.cursor.pos cursor.pos) { s with cursor }

/-- **Choice**: run a rule, and where it does not match put the cursor back and answer
`none`. The failures that no other rule could make good pass through, and the cursor
stays where they happened. -/
def attempt (rule : ReadM α) : ReadM (Option α) := fun s =>
  match rule s with
  | .ok a s' => .ok (some a) s'
  | .error .noMatch s' => .ok none (s'.rewind s.cursor)
  | .error f s' => .error f s'

/-- Find one more item and keep it, and tell whether there was one. -/
def gatherOne (next : ReadM (Option β)) (keep : α → β → ReadM α) (acc : α) :
    ReadM (α × Bool) := do
  match ← next with
  | none => return (acc, false)
  | some item => return (← keep acc item, true)

/-- **Repetition**: find items and keep them, until none is found. Going on requires
that the item moved the cursor forward; one that did not is the last. -/
def gather (next : ReadM (Option β)) (keep : α → β → ReadM α) (acc : α) : ReadM α := fun s =>
  match gatherOne next keep acc s with
  | .error f s' => .error f s'
  | .ok (acc, more) s' =>
    if more ∧ s'.cursor.left < s.cursor.left then gather next keep acc s' else .ok acc s'
termination_by s => s.cursor.left

end Reader

end FormReader
