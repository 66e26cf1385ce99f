import FormReader.Arena.Allocator
import FormReader.Text
import FormReader.Failure
import FormReader.Form.Basic

/-!
# Arenas

The memory that a reader fills comes from an *arena*, which hands out bytes until
it refuses to. Forms are values here and need no address, so what is left of an
arena is its bookkeeping: how much it has granted, and what it would refuse.

An arena may have a limit on the bytes it hands out, and then it is up to its allocator
what this amounts to. More generally it may follow any rule whatever
(`FormReader.Arena.grants`), and nothing in this library relies on
the rule being sensible: a request is granted, or it is refused and changes
nothing. A request for no bytes at all is always met, and no rule is asked.

`FormReader.ArenaM` is the monad of computations that ask for memory. What was
granted before a refusal stays granted – memory is never given back piece by
piece, only all of it at once by `FormReader.Arena.reset`.
-/

namespace FormReader

/-! ### Arenas and their state -/

/-- **Arenas**, by what they have granted and what they would grant. -/
structure Arena where
  /-- What decides about the memory of the arena. -/
  allocator : Allocator := .plain
  /-- The number of bytes the arena was told not to exceed. -/
  limit : Option Nat := none
  /-- Whether a request is granted, given those granted before it and its size. -/
  grants : Ledger → Nat → Bool := allocator.grants limit
  /-- What has been granted since the arena was new or last reset. -/
  granted : Ledger := {}
  /-- How many bytes the arena holds, be they granted or not. -/
  reserved : Nat := 0

instance : Inhabited Arena := ⟨{}⟩

namespace Arena

/-- An arena that is told not to hand out more than `limit` bytes. -/
def withLimit (limit : Nat) (allocator : Allocator := .plain) : Arena :=
  { allocator, limit := some limit }

/-- An arena that takes over `size` bytes in advance, if any. -/
def withCapacity (size : Nat) (allocator : Allocator := .plain) : Arena :=
  { allocator, reserved := if size = 0 then 0 else allocator.holds 0 {} size }

/-- Forget everything that was granted, all at once. -/
def reset (a : Arena) : Arena :=
  { a with granted := {}, reserved := a.allocator.keeps a.reserved }

/-- Whether the arena holds any memory. -/
def isReserved (a : Arena) : Bool := 0 < a.reserved

/-- An arena that holds memory still does so when it has been reset, and no other one does. -/
@[simp] theorem isReserved_reset (a : Arena) : a.reset.isReserved = a.isReserved :=
  decide_eq_decide.mpr (a.allocator.keeps_pos_iff a.reserved)

/-- The inspection text, which shows the limit but not the rule. -/
def inspect (a : Arena) : String :=
  Inspect.record "Arena"
    [("allocated_bytes", a.reserved.repr),
      ("allocation_limit", Inspect.optional (a.limit.map Nat.repr))]

end Arena

/-! ### Asking for memory -/

/-- Computations that ask an arena for memory and stop when it refuses. -/
abbrev ArenaM := EStateM Exhausted Arena

namespace Arena

/-- Enter a request that is granted. -/
def grant (a : Arena) (size : Nat) : Arena :=
  { a with
    granted := a.granted.add size
    reserved := a.allocator.holds a.reserved a.granted size }

/-- **A request** for `size` bytes, made by someone who speaks of `reported` bytes
when it is refused. A refusal leaves the arena as it was. -/
def request (size reported : Nat) : ArenaM Unit := fun a =>
  if size = 0 then .ok () a
  else if a.grants a.granted size then .ok () (a.grant size)
  else .error ⟨reported, a.reserved⟩ a

/-- Ask for `size` bytes. -/
def reserve (size : Nat) : ArenaM Unit := request size size

/-- Copy a text into the arena, at one byte for each of its own. -/
def copyText (s : String) : ArenaM String := do
  reserve s.utf8ByteSize
  return s

/-- The size of the cell that ties an item to the rest of its list. -/
def cellSize : Nat := 32

/-- Put an item in front of a list, at the cost of a cell. -/
def cell (item : Form) (rest : List Form) : ArenaM (List Form) := do
  reserve cellSize
  return item :: rest

/-- **Linking**: build a list out of its items, a cell for each of them, starting
from the last. -/
def link (items : List Form) : ArenaM (List Form) :=
  items.foldrM cell []

end Arena

end FormReader
