import FormReader.Arena.Scratch
import FormReader.Form.Text
import FormReader.Form.Walk

/-!
# Gathering items and reading them back

The items of a list are pushed onto a scratch buffer from the first to the last, and linked from
the last to the first. Once this is done the list is read in several ways, by a walk, by counting
and by writing its text. That the items are the same all along is said here in terms of single
steps, the pushes that fill a buffer (`FormReader.Scratch.Filled`) and the steps of a walk
(`FormReader.Walk.Visits`).
-/

namespace FormReader

namespace Scratch

variable {α : Type}

/-! ### Filling a buffer -/

/-- **Having room**: a buffer does not hold more than it has room for. -/
def HasRoom (b : Scratch α) : Prop := b.items.size ≤ b.capacity

/-- **Filling**: items are pushed onto a buffer one after another, and no push fails. -/
inductive Filled : Scratch α → Arena → List α → Scratch α → Arena → Prop where
  /-- Nothing is pushed. -/
  | nil {b : Scratch α} {a : Arena} : Filled b a [] b a
  /-- An item is pushed before those that follow it. -/
  | cons {b b₁ b' : Scratch α} {a a₁ a' : Arena} {item : α} {items : List α} :
    b.push item a = .ok b₁ a₁ → Filled b₁ a₁ items b' a' → Filled b a (item :: items) b' a'

/-- **Stopping** in front of the items that are left: there are none, or the first of them cannot
be pushed, and the arena stays as it is. -/
inductive Stops (b : Scratch α) (a : Arena) : List α → Option Exhausted → Prop where
  /-- Nothing is left. -/
  | done : Stops b a [] none
  /-- The push of the next item fails. -/
  | refused {item : α} {left : List α} {e : Exhausted} :
    b.push item a = .error e a → Stops b a (item :: left) (some e)

end Scratch

/-! ### Reading back -/

/-- **Visiting**: a walk finds items, one with each step, until it finds none. -/
inductive Walk.Visits : Walk → List Form → Prop where
  /-- There is nothing to be found. -/
  | done {w w' : Walk} : w.next = (none, w') → Visits w []
  /-- An item is found before those that follow it. -/
  | item {w w' : Walk} {item : Form} {items : List Form} :
    w.next = (some item, w') → Visits w' items → Visits w (item :: items)

/-- **Reading back**: whatever is asked of a list is answered as these items demand. -/
structure ReadsBack (list items : List Form) : Prop where
  /-- The list is the empty one if there are no items. -/
  eq_nil_iff : list = [] ↔ items.length = 0
  /-- Counting comes to as many as there are items. -/
  countItems_eq : countItems list = items.length
  /-- A walk visits the items in order and nothing else. -/
  visits_iff (visited : List Form) : (Walk.along list).Visits visited ↔ visited = items
  /-- A number of steps find one item each, and nothing beyond the last. What they have not found
  is still to come. -/
  take_eq (n : Nat) : (Walk.along list).take n =
    ((List.range n).map fun k => items[k]?, Walk.along (items.drop n))
  /-- So many items are still to come. -/
  length_left (n : Nat) :
    ((Walk.along list).take n).2.left.length = items.length - min n items.length
  /-- The text of the list shows the texts of the items with a space between each and the next. -/
  text_eq : (Form.list list).text = "(" ++ " ".intercalate (items.map Form.text) ++ ")"

end FormReader
