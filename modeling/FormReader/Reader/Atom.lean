import FormReader.Numeral
import FormReader.Reader.Basic

/-!
# Reading atoms

The rules for the four sorts of atoms, each of which passes over blanks first, and
their ordered choice `FormReader.Reader.atom`. The order matters in one place only:
a token that is a numeral would do as a symbol too.

A number, a boolean and a symbol are tokens and reach up to the next separator. A string
ends with its closing quote, whatever comes next. Symbols and strings hold text, so their
bytes have to be the bytes of a text, and are copied into the arena.
-/

namespace FormReader

namespace Reader

/-- Pass over blanks. There has to be something behind them. -/
def blanks : ReadM Unit := scan (·.skipWhile? Byte.isBlank)

/-- The text with the given bytes, copied into the arena. -/
def text (bytes : List Byte) : ReadM String := do
  let s ← found (Text.ofBytes? bytes)
  ask (Arena.copyText s)

/-- **A number**: a token that is a numeral. -/
def number : ReadM Int64 := do
  blanks
  found (Numeral.read? (← token))

/-- **A boolean**: `#t` or `#f`, and then the end of the token. -/
def boolean : ReadM Bool := do
  blanks
  scan (·.literal? [Byte.hash])
  let value ← scanned (·.literal? ['t'.toUInt8])
  unless value do
    scan (·.literal? ['f'.toUInt8])
  if (← get).cursor.atBoundary then return value else throw .noMatch

/-- **A string**: the text up to the next quote. There are no escapes, and the empty
string needs no memory. -/
def string : ReadM String := do
  blanks
  scan (·.literal? [Byte.quote])
  if ← scanned (·.literal? [Byte.quote]) then
    return ""
  let start := (← get).pos
  scan (·.skipUntil? (· = Byte.quote))
  let stop := (← get).pos
  scan (·.literal? [Byte.quote])
  text (← slice start stop)

/-- **A symbol**: a token that is not empty and begins neither like a boolean nor like
a string. -/
def symbol : ReadM String := do
  blanks
  let first := (← get).cursor.peek?
  if first = some Byte.hash ∨ first = some Byte.quote then
    throw .noMatch
  let name ← token
  if name.isEmpty then
    throw .noMatch
  text name

/-- **An atom**: the first of the four sorts that matches. -/
def atom : ReadM Atom := do
  if let some value ← attempt number then
    return .number value
  if let some value ← attempt boolean then
    return .boolean value
  if let some value ← attempt string then
    return .string value
  if let some name ← attempt symbol then
    return .symbol name
  throw .noMatch

end Reader

end FormReader
