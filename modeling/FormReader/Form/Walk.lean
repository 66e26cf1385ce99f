import FormReader.Form.Basic

/-!
# Walking along a list

A walk visits the items of a list from the first to the last, one with each call
of `FormReader.Walk.next`, and has nothing more to offer once it has passed the
last. Its state is exactly the items still to come, so a walk can be left halfway
and taken up again.

Counting the items (`FormReader.countItems`) is not a walk. It goes from cell to cell and
looks at no item.
-/

namespace FormReader

/-- A walk along a list of forms. -/
structure Walk where
  /-- The items that have not been visited yet. -/
  left : List Form

namespace Walk

/-- A walk that has all the items before it. -/
def along (items : List Form) : Walk := ⟨items⟩

/-- **One step**: the next item, if there is one, and the walk behind it. -/
def next (w : Walk) : Option Form × Walk :=
  match w.left with
  | [] => (none, w)
  | item :: left => (some item, ⟨left⟩)

/-- Make `n` steps: what each of them found, and the walk behind them. -/
def take : Nat → Walk → List (Option Form) × Walk
  | 0, w => ([], w)
  | n + 1, w =>
    let (item, w) := w.next
    let (items, w) := take n w
    (item :: items, w)

@[simp] theorem next_along_nil : (along []).next = (none, along []) := rfl

@[simp] theorem next_along_cons (item : Form) (items : List Form) :
    (along (item :: items)).next = (some item, along items) := rfl

theorem take_succ (n : Nat) (w : Walk) :
    w.take (n + 1) = (w.next.1 :: (w.next.2.take n).1, (w.next.2.take n).2) := rfl

end Walk

/-! ### Counting -/

/-- Count the cells that are left, where some have been counted already. -/
def countCells (counted : Nat) : List Form → Nat
  | [] => counted
  | _ :: tail => countCells (counted + 1) tail

/-- **Counting the items** of a list. Its first cell, if there is one, is at hand, and the others
are counted from there. -/
def countItems : List Form → Nat
  | [] => 0
  | _ :: tail => countCells 1 tail

theorem countCells_eq (counted : Nat) (items : List Form) :
    countCells counted items = counted + items.length := by
  induction items generalizing counted with
  | nil => rfl
  | cons item items ih => rw [countCells, ih, List.length_cons, Nat.add_assoc, Nat.add_comm 1]

/-- All items are counted. -/
@[simp] theorem countItems_eq (items : List Form) : countItems items = items.length := by
  cases items with
  | nil => rfl
  | cons item items => rw [countItems, countCells_eq, List.length_cons, Nat.add_comm]

end FormReader
