import FormReader.Reader.Atom

/-!
# Alternatives for an atom

`FormReader.Reader.atom` tries four rules in a fixed order. Here the order is an argument
(`FormReader.Reader.firstOf`), so that one may ask what it is good for. An alternative settles what
there is if no other one is tried behind it, be it that it finds an atom or that it fails for good
(`FormReader.Reader.settles`).
-/

namespace FormReader

/-- **The alternatives** for an atom, one for each sort. -/
inductive Alternative where
  | number
  | boolean
  | string
  | symbol
deriving DecidableEq, Repr

namespace Alternative

/-- The alternatives in the order in which a reader tries them. -/
def inOrder : List Alternative := [number, boolean, string, symbol]

/-- The rule of an alternative. -/
def rule : Alternative → ReadM Atom
  | number => do return .number (← Reader.number)
  | boolean => do return .boolean (← Reader.boolean)
  | string => do return .string (← Reader.string)
  | symbol => do return .symbol (← Reader.symbol)

/-- The byte that an alternative begins with, if it is always the same. -/
def mark? : Alternative → Option Byte
  | number => none
  | boolean => some Byte.hash
  | string => some Byte.quote
  | symbol => none

end Alternative

namespace Reader

/-- **Settling**: the alternative finds an atom, or fails in such a way that no other is tried. -/
def settles (s : Reader) (alternative : Alternative) : Bool :=
  match (s.run alternative.rule).result with
  | .error .noMatch => false
  | _ => true

/-- **The first of some alternatives** that matches. -/
def firstOf : List Alternative → ReadM Atom
  | [] => throw .noMatch
  | alternative :: others => do
    if let some value ← attempt alternative.rule then
      return value
    firstOf others

end Reader

end FormReader
