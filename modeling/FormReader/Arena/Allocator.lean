/-!
# Allocators

An arena keeps the books of what was asked of it and granted. What it grants, and what becomes of
its memory, is decided by an *allocator*, and here very little is known. A request may be refused
under a limit for reasons that the limit does not tell, and memory is taken over in larger pieces
than anyone has asked for.

What is known of an allocator are a few laws, and an allocator comes with them
(`FormReader.Allocator`). Apart from the laws it may decide as it likes, and all that is proved in
this library holds for all allocators. Where one has to be given, as for an arena that is built for
use, there is the simplest of them, which counts bytes (`FormReader.Allocator.plain`).
-/

namespace FormReader

/-! ### The bookkeeping -/

/-- **Ledgers**: the sizes of the requests that were granted, with their total kept
at hand. -/
structure Ledger where
  /-- The sizes, newest first. -/
  sizes : List Nat := []
  /-- The sum of the sizes. -/
  total : Nat := 0
  total_eq : total = sizes.foldr (· + ·) 0 := by rfl

namespace Ledger

/-- Enter one more size. -/
def add (l : Ledger) (size : Nat) : Ledger :=
  ⟨size :: l.sizes, size + l.total, by rw [l.total_eq, List.foldr_cons]⟩

/-- The size that was entered before all others. -/
def first? (l : Ledger) : Option Nat := l.sizes.getLast?

end Ledger

/-! ### Decisions and their laws -/

/-- **Allocators**, with the laws that they obey. -/
structure Allocator where
  /-- Whether a request is met under a limit, given those granted before it and its size. -/
  meets : (limit : Nat) → Ledger → (size : Nat) → Bool
  /-- Under a limit of zero nothing is. -/
  meets_zero : ∀ granted size, 0 < size → meets 0 granted size = false
  /-- How many bytes an arena holds when it has granted a request, given how many it held before,
  the requests granted before, and the size of this one. -/
  holds : (reserved : Nat) → Ledger → (size : Nat) → Nat
  /-- No memory is given back by a grant. -/
  le_holds : ∀ reserved granted size, reserved ≤ holds reserved granted size
  /-- There has to be memory to be granted. -/
  holds_pos : ∀ reserved granted size, 0 < size → 0 < holds reserved granted size
  /-- How many of its bytes an arena keeps for reuse when everything is given back to it. -/
  keeps : (reserved : Nat) → Nat
  /-- Some are kept if there were any. -/
  keeps_pos_iff : ∀ reserved, 0 < keeps reserved ↔ 0 < reserved
  /-- For how many items a full buffer has room when it has grown. -/
  grows : (capacity : Nat) → Nat
  /-- There is room for one item more at least. -/
  lt_grows : ∀ capacity, capacity < grows capacity
  /-- A buffer without room gets room for one item and no more. -/
  grows_zero : grows 0 = 1

namespace Allocator

/-- Whether a request is met where there may be a limit. Without one it always is. -/
def grants (allocator : Allocator) : (limit : Option Nat) → Ledger → (size : Nat) → Bool
  | none, _, _ => true
  | some limit, granted, size => allocator.meets limit granted size

/-- **The plain allocator** counts bytes. A limit is what all requests together must not exceed, an
arena holds the most that it ever granted between two resets, and buffers are doubled. -/
def plain : Allocator where
  meets limit granted size := granted.total + size ≤ limit
  meets_zero _ _ hsize := decide_eq_false (by omega)
  holds reserved granted size := max reserved (granted.total + size)
  le_holds _ _ _ := Nat.le_max_left _ _
  holds_pos _ _ _ hsize := by omega
  keeps := id
  keeps_pos_iff _ := Iff.rfl
  grows capacity := max 1 (2 * capacity)
  lt_grows _ := by omega
  grows_zero := rfl

end Allocator

end FormReader
