import FormReader.Cursor.Script

/-!
# Courses of scripts

The record of a script tells what its operations answered, but not where each of them found the
cursor and which marks there were. The *course* of a script tells this
(`FormReader.Cursor.Place.course`). It has a step for every operation that is carried out
(`FormReader.Cursor.Step`), and the last of them may be one that has no answer.

What a step does to the place depends on what sort of operation it is. Most operations look at
the bytes ahead and go past some of them at most (`FormReader.Cursor.Op.looksAhead`). Two others put
the cursor somewhere else (`FormReader.Cursor.Op.isReturn`); one of them goes to a mark, and so may
the other, but it need not (`FormReader.Cursor.Step.KeepsToMarks`).
-/

namespace FormReader

namespace Cursor

/-! ### Sorts of operations -/

/-- Whether an operation is only about the bytes that lie ahead. Its answer does not tell where the
cursor is. -/
def Op.looksAhead : Op → Bool
  | literal _ => true
  | skipWhile _ => true
  | skipUntil _ => true
  | peek => true
  | rest => true
  | boundary => true
  | blanksLeft => true
  | _ => false

/-- Whether an operation puts the cursor to a position, be it marked or not. -/
def Op.isReturn : Op → Bool
  | restore _ => true
  | jump _ => true
  | _ => false

/-! ### Steps -/

/-- **A step of a script**: an operation, and the place where it is carried out. -/
structure Step where
  place : Place
  op : Op

namespace Step

/-- What comes of a step: an answer and the place behind it, if there is one. -/
def outcome? (step : Step) : Option (Reply × Place) := step.place.step? step.op

/-- The entry of a step in the record. -/
def entry (step : Step) : Entry :=
  match step.outcome? with
  | some (reply, behind) => .answered reply behind.cursor.pos
  | none => .outOfRange

/-- Whether the cursor is beyond the end of the source. -/
def IsBeyond (step : Step) : Prop :=
  step.place.cursor.source.size < step.place.cursor.pos

/-- **Keeping to one's own marks**: where a step goes to a position, this has been marked. -/
def KeepsToMarks (step : Step) : Prop :=
  ∀ pos, step.op = .jump pos → pos ∈ step.place.marks

end Step

namespace Place

/-- **In range**: the cursor and all of the marks are in the source. -/
structure InRange (p : Place) : Prop where
  pos_le : p.cursor.pos ≤ p.cursor.source.size
  mark_le : ∀ pos ∈ p.marks, pos ≤ p.cursor.source.size

/-- The place with its cursor at the end of the source. -/
def atEnd (p : Place) : Place := { p with cursor := p.cursor.seek p.cursor.source.size }

/-- **The course of a script**: its steps, until it is at its end or a step has no answer. -/
def course (p : Place) : List Op → List Step
  | [] => []
  | op :: ops =>
    ⟨p, op⟩ :: match p.step? op with
      | some (_, behind) => behind.course ops
      | none => []

end Place

end Cursor

end FormReader
