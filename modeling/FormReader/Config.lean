import FormReader.Inspect

/-!
# Settings

The one setting of a reader is how many lists may be open at once. Reading a list inside
others takes room on the stack of whoever does the reading, so there is a limit unless
someone asks for more.
-/

namespace FormReader

/-- The settings of a reader. -/
structure Config where
  /-- How many lists may be open at once. -/
  maxDepth : Nat := 256
deriving DecidableEq, Repr

/-- The inspection text. -/
def Config.inspect (c : Config) : String :=
  Inspect.record "ParserConfig" [("max_depth", c.maxDepth.repr)]

end FormReader
