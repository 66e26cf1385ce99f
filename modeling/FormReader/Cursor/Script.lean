import FormReader.Cursor.Basic

/-!
# Scripts for a cursor

A script is a sequence of operations on one cursor, with marks to come back to. It runs
until it is at its end or an operation asks for bytes that the source does not have;
such an operation has no answer, and those after it do not run.

A script can branch off (`FormReader.Cursor.Op.fork`): the branch works on a cursor of
its own that starts where the old one is, with no marks, and leaves the old one alone.
-/

namespace FormReader

namespace Cursor

/-! ### Operations and their answers -/

/-- An operation on a cursor. -/
inductive Op where
  /-- Go past the given bytes. -/
  | literal (bytes : List Byte)
  /-- Go to the next byte outside of the set. -/
  | skipWhile (set : Byte → Bool)
  /-- Go to the next byte of the set. -/
  | skipUntil (set : Byte → Bool)
  /-- Take a token. -/
  | token
  /-- Look at the next byte. -/
  | peek
  /-- Look at all bytes that lie ahead. -/
  | rest
  /-- Look at the bytes between two positions. -/
  | slice (start stop : Nat)
  /-- Ask whether a token may end here. -/
  | boundary
  /-- Ask whether nothing but blanks lies ahead. -/
  | blanksLeft
  /-- Mark the position. -/
  | mark
  /-- Go back to the mark made at the given turn, if it was made. -/
  | restore (turn : Nat)
  /-- Go to a position that need not have been marked. -/
  | jump (pos : Nat)
  /-- Run operations on another cursor at the same position. -/
  | fork (ops : List Op)

/-- The cursor that a script works on, with the marks it has made, oldest first. -/
structure Place where
  cursor : Cursor
  marks : Array Nat := #[]

mutual

/-- What an operation answers. -/
inductive Reply where
  /-- Whether a move succeeded. -/
  | moved (ok : Bool)
  /-- The bytes that were asked for. -/
  | bytes (bytes : List Byte)
  /-- The byte that was asked for, if there is one. -/
  | byte (byte : Option Byte)
  /-- The answer to a question. -/
  | flag (value : Bool)
  /-- The position that was marked. -/
  | marked (pos : Nat)
  /-- Nothing to say. -/
  | done
  /-- What the branch did. -/
  | forked (entries : List Entry)

/-- An entry in the record of a script. -/
inductive Entry where
  /-- An operation was answered and left the cursor at a position. -/
  | answered (reply : Reply) (pos : Nat)
  /-- An operation asked for bytes that the source does not have. -/
  | outOfRange

end

/-! ### Running a script -/

namespace Place

/-- Make a move, or stay where it is not possible. -/
def move (p : Place) (target : Option Cursor) : Reply × Place :=
  match target with
  | some cursor => (.moved true, { p with cursor })
  | none => (.moved false, p)

/-- The answer with bytes, if there are any. -/
def bytesAt (p : Place) (bytes : Option (List Byte)) : Option (Reply × Place) :=
  bytes.map fun bytes => (.bytes bytes, p)

mutual

/-- **One operation**: its answer and the place behind it. There is none where the
source does not have the bytes. -/
def step? (p : Place) : Op → Option (Reply × Place)
  | .literal bytes => some (p.move (p.cursor.literal? bytes))
  | .skipWhile set => some (p.move (p.cursor.skipWhile? set))
  | .skipUntil set => some (p.move (p.cursor.skipUntil? set))
  | .token => p.cursor.token?.map fun (token, cursor) => (.bytes token, { p with cursor })
  | .peek => some (.byte p.cursor.peek?, p)
  | .rest => some (.bytes p.cursor.rest, p)
  | .slice start stop => p.bytesAt (p.cursor.slice? start stop)
  | .boundary => some (.flag p.cursor.atBoundary, p)
  | .blanksLeft => some (.flag p.cursor.onlyBlanksLeft, p)
  | .mark => some (.marked p.cursor.pos, { p with marks := p.marks.push p.cursor.pos })
  | .restore turn =>
    match p.marks[turn]? with
    | some pos => some (.done, { p with cursor := p.cursor.seek pos })
    | none => some (.done, p)
  | .jump pos => some (.done, { p with cursor := p.cursor.seek pos })
  | .fork ops => some (.forked (run { cursor := p.cursor } ops), p)

/-- **A script**: the record of what its operations answered. -/
def run (p : Place) : List Op → List Entry
  | [] => []
  | op :: ops =>
    match step? p op with
    | none => [.outOfRange]
    | some (reply, p) => .answered reply p.cursor.pos :: run p ops

end

end Place

/-- Run a script from the beginning of a source. -/
def runScript (source : List Byte) (ops : List Op) : List Entry :=
  Place.run { cursor := ofBytes source } ops

end Cursor

end FormReader
