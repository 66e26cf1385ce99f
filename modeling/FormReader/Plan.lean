import FormReader.Reader.Source

/-!
# Plans

A rule is a function on readers: it shows what comes of it, and nothing of the way there. A
*plan* is a rule written down. It names the deeds that the rule consists of, one by one
(`FormReader.Deed`), and how they are put together: in sequence, by choice, and by repetition
(`FormReader.Plan`). Carrying a plan out gives the rule back (`FormReader.Plan.run`), and whatever
else there is to know of the way is read off the plan.

Every rule of the grammar has its plan here, word for word as the rule is written. What the
cursor is moved over are blanks, single bytes below 128, tokens, and whatever stands before the
next quote; there is no other move (`FormReader.Move`).
-/

namespace FormReader

/-! ### Moves and deeds -/

/-- **Moves of a cursor**, other than taking a token. -/
inductive Move where
  /-- Pass over blanks. There has to be something behind them. -/
  | blanks
  /-- Go past a single byte, one of those that stand for themselves in a text. -/
  | mark (b : Byte) (isAscii : b < 0x80)
  /-- Go to the next quote. -/
  | toQuote

/-- Make a move. -/
def Move.make : Move → Cursor → Option Cursor
  | blanks => (·.skipWhile? Byte.isBlank)
  | mark b _ => (·.literal? [b])
  | toQuote => (·.skipUntil? (· = Byte.quote))

namespace Move

/-- Go past a quote. -/
def quote : Move := mark Byte.quote (by decide)

/-- Go past a hash sign. -/
def hash : Move := mark Byte.hash (by decide)

/-- Go past the letter of a truth value. -/
def letter : Bool → Move
  | true => mark 't'.toUInt8 (by decide)
  | false => mark 'f'.toUInt8 (by decide)

/-- Go past an opening bracket. -/
def opening : Bracket → Move
  | .round => mark Bracket.round.opening (by decide)
  | .square => mark Bracket.square.opening (by decide)

/-- Go past a closing bracket. -/
def closing : Bracket → Move
  | .round => mark Bracket.round.closing (by decide)
  | .square => mark Bracket.square.closing (by decide)

end Move

/-- **Deeds**: what a rule does at a time. -/
inductive Deed : Type → Type 1 where
  /-- Make a move, or fail. -/
  | scan (move : Move) : Deed Unit
  /-- Make a move if it is possible, and tell whether it was. -/
  | scanned (move : Move) : Deed Bool
  /-- Take a token. -/
  | token : Deed (List Byte)
  /-- Take the bytes between two positions. -/
  | slice (start stop : Nat) : Deed (List Byte)
  /-- Take bytes for those of a text. -/
  | decode (bytes : List Byte) : Deed String
  /-- Go on with a value that was found, or fail. -/
  | found {α : Type} (found? : Option α) : Deed α
  /-- Fail. -/
  | fail {α : Type} (f : Failure) : Deed α
  /-- Look at the reader. -/
  | look : Deed Reader
  /-- Record an event. -/
  | observe (e : Event) : Deed Unit
  /-- Ask for memory. -/
  | ask {α : Type} (request : ArenaM α) : Deed α

/-- Do a deed. -/
def Deed.run : {α : Type} → Deed α → ReadM α
  | _, scan move => Reader.scan move.make
  | _, scanned move => Reader.scanned move.make
  | _, token => Reader.token
  | _, slice start stop => Reader.slice start stop
  | _, decode bytes => Reader.found (Text.ofBytes? bytes)
  | _, found found? => Reader.found found?
  | _, fail f => throw f
  | _, look => get
  | _, observe e => Reader.observe e
  | _, ask request => Reader.ask request

/-- **Plans**: deeds, put together in the ways in which rules are. -/
inductive Plan : Type → Type 1 where
  /-- Do nothing more. -/
  | done {α : Type} (a : α) : Plan α
  /-- Do a deed. -/
  | deed {α : Type} (d : Deed α) : Plan α
  /-- Go on with a plan that depends on what was found. -/
  | bind {α β : Type} (first : Plan α) (next : α → Plan β) : Plan β
  /-- Carry a plan out, and go back where it does not match. -/
  | attempt {α : Type} (plan : Plan α) : Plan (Option α)
  /-- Find items and keep them, until none is found. -/
  | gather {α β : Type} (next : Plan (Option β)) (keep : α → β → Plan α) (acc : α) : Plan α

namespace Plan

instance : Monad Plan where
  pure := done
  bind := bind

/-- **Carry a plan out.** -/
def run : {α : Type} → Plan α → ReadM α
  | _, done a => pure a
  | _, deed d => d.run
  | _, bind first next => first.run >>= fun a => (next a).run
  | _, attempt plan => Reader.attempt plan.run
  | _, gather next keep acc => Reader.gather next.run (fun acc item => (keep acc item).run) acc

/-! ### Atoms -/

/-- Pass over blanks. -/
def blanks : Plan Unit := deed (.scan .blanks)

/-- A text from its bytes. -/
def text (bytes : List Byte) : Plan String := do
  let s ← deed (.decode bytes)
  deed (.ask (Arena.copyText s))

/-- A number. -/
def number : Plan Int64 := do
  blanks
  deed (.found (Numeral.read? (← deed .token)))

/-- A boolean. -/
def boolean : Plan Bool := do
  blanks
  deed (.scan .hash)
  let value ← deed (.scanned (.letter true))
  unless value do
    deed (.scan (.letter false))
  if (← deed .look).cursor.atBoundary then return value else deed (.fail .noMatch)

/-- A string. -/
def string : Plan String := do
  blanks
  deed (.scan .quote)
  if ← deed (.scanned .quote) then
    return ""
  let start := (← deed .look).pos
  deed (.scan .toQuote)
  let stop := (← deed .look).pos
  deed (.scan .quote)
  text (← deed (.slice start stop))

/-- A symbol. -/
def symbol : Plan String := do
  blanks
  let first := (← deed .look).cursor.peek?
  if first = some Byte.hash ∨ first = some Byte.quote then
    deed (.fail .noMatch)
  let name ← deed .token
  if name.isEmpty then
    deed (.fail .noMatch)
  text name

/-- An atom. -/
def atom : Plan Atom := do
  if let some value ← attempt number then
    return .number value
  if let some value ← attempt boolean then
    return .boolean value
  if let some value ← attempt string then
    return .string value
  if let some name ← attempt symbol then
    return .symbol name
  deed (.fail .noMatch)

/-! ### Forms -/

/-- An opening bracket. -/
def openBracket : Plan Bracket := do
  let bracket ← deed (.found ((← deed .look).cursor.peek?.bind Bracket.ofOpening?))
  deed (.scan (.opening bracket))
  return bracket

/-- A closing bracket. -/
def closeBracket (bracket : Bracket) : Plan Unit := do
  unless ← deed (.scanned .blanks) do
    deed (.observe (.unclosed bracket))
    deed (.fail .noMatch)
  unless ← deed (.scanned (.closing bracket)) do
    let s ← deed .look
    match s.cursor.peek?.bind Bracket.ofClosing? with
    | some other => deed (.observe (.mismatched s.pos bracket other))
    | none => deed (.observe (.unparsable s.pos bracket))
    deed (.fail .noMatch)

/-- A list, given a plan for what stands between its brackets. -/
def bracketed (nested : Plan (List Form)) : Plan Form := do
  blanks
  let bracket ← openBracket
  let items ← nested
  closeBracket bracket
  return .list items

/-- Put a form behind those gathered before it. -/
def push (forms : Scratch Form) (form : Form) : Plan (Scratch Form) :=
  deed (.ask (forms.push form))

/-- Link the forms gathered in a scratch buffer. -/
def link (forms : Scratch Form) : Plan (List Form) :=
  deed (.ask (Arena.link forms.items.toList))

/-- One form at least and then as many as there are, gathered and linked. -/
def linkedItems (form : Plan Form) : Plan (List Form) := do
  let forms ← push { width := Scratch.formWidth } (← form)
  link (← gather (attempt form) push forms)

/-- Items, one at least. -/
def items (form : Plan Form) : Plan (List Form) := do
  deed (.found (Reader.anyItems? (← linkedItems form)))

/-- The items of a list. -/
def optionalItems (form : Plan Form) : Plan (List Form) := do
  return (← attempt (items form)).getD []

/-- A bracket that there is no room for. -/
def refuseNesting : Plan (List Form) := do
  let limit := (← deed .look).config.maxDepth
  deed (.observe (.tooDeep limit limit))
  deed (.fail (.tooDeep limit limit))

/-- A form, given a plan for what stands between its brackets if it is a list. -/
def element (nested : Plan (List Form)) : Plan Form := do
  if let some value ← attempt atom then
    return .atom value
  bracketed nested

/-- **A form** in which no more than `room` lists are open at once. -/
def form : (room : Nat) → Plan Form
  | 0 => element refuseNesting
  | room + 1 => element (optionalItems (form room))

/-! ### Sources -/

/-- One form. -/
def one : Plan Form := do
  deed (.found (← attempt (form (← deed .look).config.maxDepth)))

/-- The end of the source, up to blanks. -/
def finish : Plan Unit := do
  let s ← deed .look
  unless s.cursor.onlyBlanksLeft do
    deed (.observe (.trailing s.pos))
    deed (.fail .noMatch)

/-- A form and nothing else. -/
def whole : Plan Form := do
  let form ← one
  finish
  return form

/-- One form, if there is anything but blanks left. -/
def oneMore : Plan (Option Form) := do
  if (← deed .look).cursor.onlyBlanksLeft then return none else return some (← one)

/-- All forms that are left. -/
def all : Plan (List Form) := do
  link (← gather oneMore push { width := Scratch.formWidth })

end Plan

end FormReader
