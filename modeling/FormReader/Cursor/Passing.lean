import FormReader.Cursor.Basic

/-!
# Going past bytes

Wherever a cursor goes forward it goes past a run of bytes, and the runs are of two sorts. Either
it is known in advance which bytes they are, or they are as many as there are of a set
(`FormReader.IsLongestRun`). In the second case the bytes may go on to the end of the source, where
there is nothing to end the run. A search does not take this for an end
(`FormReader.Cursor.Skips`), whereas a token does.
-/

namespace FormReader

/-- **The longest run** of bytes of a set that some bytes begin with. -/
structure IsLongestRun (set : Byte → Bool) (run bytes : List Byte) : Prop where
  /-- The bytes begin with the run. -/
  begins : run <+: bytes
  /-- All bytes of the run are in the set. -/
  mem_set : ∀ b ∈ run, set b = true
  /-- No other such run is longer. -/
  longest : ∀ run', run' <+: bytes → (∀ b ∈ run', set b = true) → run'.length ≤ run.length

namespace Cursor

/-- **Going past a run**: the run is what one cursor has ahead and the other has not, and the
position is further on by as many bytes. -/
structure Passes (c : Cursor) (run : List Byte) (d : Cursor) : Prop where
  source : d.source = c.source
  pos : d.pos = c.pos + run.length
  rest : c.rest = run ++ d.rest

/-- **Skipping a set**: all bytes that are passed are in the set, and the next one is there and is
not. -/
def Skips (c : Cursor) (set : Byte → Bool) (d : Cursor) : Prop :=
  ∃ run, c.Passes run d ∧ (∀ b ∈ run, set b = true) ∧ ∃ b, d.peek? = some b ∧ set b = false

end Cursor

end FormReader
