import FormReader.Arena.Basic

/-!
# Scratch buffers

The number of items of a list is not known until its closing bracket has been
read. Until then they are gathered in a *scratch buffer*, which takes its room from
an arena. The buffer starts without room and grows when it is full, by as much as the
allocator of the arena has it grow, so that some pushes ask for nothing; the first one
always does.

When the arena refuses, the push fails and the buffer stays as it was. The failure
speaks of the room that the buffer already had, or of one item's width where it had
none.
-/

namespace FormReader

/-- A growing sequence with room taken from an arena. -/
structure Scratch (α : Type) where
  /-- How many bytes an item takes. -/
  width : Nat
  /-- The items pushed so far, in order. -/
  items : Array α := #[]
  /-- For how many items there is room. -/
  capacity : Nat := 0

namespace Scratch

variable {α : Type}

/-- The width of a form. -/
def formWidth : Nat := 24

/-- The width of a single byte. -/
def byteWidth : Nat := 1

/-- The width of a number. -/
def numberWidth : Nat := 8

/-- Whether the next push needs more room. -/
def isFull (b : Scratch α) : Bool := b.capacity ≤ b.items.size

/-- **A push**: put one more item at the end, growing the buffer if it is full. -/
def push (b : Scratch α) (item : α) : ArenaM (Scratch α) := do
  if b.isFull then
    let capacity := (← get).allocator.grows b.capacity
    Arena.request (capacity * b.width) (max b.capacity 1 * b.width)
    return { b with items := b.items.push item, capacity }
  else
    return { b with items := b.items.push item }

/-- Push items until there are none left or one push fails. The answer lists the
number of items after every good push, and holds the buffer after the last of them
together with the failure of the next one, if there was one. -/
def pushAll (b : Scratch α) : List α → Arena →
    (List Nat × Scratch α × Option Exhausted) × Arena
  | [], a => (([], b, none), a)
  | item :: rest, a =>
    match b.push item a with
    | .error e a => (([], b, some e), a)
    | .ok grown a =>
      let ((sizes, last, failure), a) := grown.pushAll rest a
      ((grown.items.size :: sizes, last, failure), a)

/-- The inspection text, from that of an item. -/
def inspect (b : Scratch α) (inspectItem : α → String) : String :=
  Inspect.sequence (b.items.toList.map inspectItem)

end Scratch

end FormReader
