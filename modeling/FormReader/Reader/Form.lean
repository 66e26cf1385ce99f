import FormReader.Reader.Atom

/-!
# Reading forms

A form is an atom, or a list: an opening bracket, any number of forms, and the closing
bracket that matches. The items of a list are gathered in a scratch buffer and linked
when there are no more of them.

`FormReader.Reader.form` reads one form with a given *room*, the number of lists that
may still be opened around what comes next. Every list hands one less on to its items,
so the recursion is on the room, and an opening bracket without any room left ends the
reading.

When a list cannot be closed, an event says why
(`FormReader.Reader.closeBracket`): the source is at its end, the bracket is the wrong
one, or what stands there is not a form.
-/

namespace FormReader

namespace Reader

/-! ### Brackets -/

/-- Take an opening bracket, whichever of the two it is. -/
def openBracket : ReadM Bracket := do
  let bracket ← found ((← get).cursor.peek?.bind Bracket.ofOpening?)
  scan (·.literal? [bracket.opening])
  return bracket

/-- **Closing a list**: pass over blanks and take the bracket that matches. -/
def closeBracket (bracket : Bracket) : ReadM Unit := do
  unless ← scanned (·.skipWhile? Byte.isBlank) do
    observe (.unclosed bracket)
    throw .noMatch
  unless ← scanned (·.literal? [bracket.closing]) do
    let s ← get
    match s.cursor.peek?.bind Bracket.ofClosing? with
    | some other => observe (.mismatched s.pos bracket other)
    | none => observe (.unparsable s.pos bracket)
    throw .noMatch

/-- **A list**: brackets around what `nested` reads. -/
def bracketed (nested : ReadM (List Form)) : ReadM Form := do
  blanks
  let bracket ← openBracket
  let items ← nested
  closeBracket bracket
  return .list items

/-! ### Items -/

/-- Put a form that has been read behind those gathered before it. -/
def push (forms : Scratch Form) (form : Form) : ReadM (Scratch Form) :=
  ask (forms.push form)

/-- Link the forms gathered in a scratch buffer. -/
def link (forms : Scratch Form) : ReadM (List Form) :=
  ask (Arena.link forms.items.toList)

/-- One form at least and then as many as there are, gathered and linked. -/
def linkedItems (form : ReadM Form) : ReadM (List Form) := do
  let forms ← push { width := Scratch.formWidth } (← form)
  link (← gather (attempt form) push forms)

/-- The forms that a list is made of, if there are any. -/
def anyItems? : List Form → Option (List Form)
  | [] => none
  | item :: items => some (item :: items)

/-- **Items**: the forms of a list that is not empty. -/
def items (form : ReadM Form) : ReadM (List Form) := do
  found (anyItems? (← linkedItems form))

/-- The items of a list, of which there may be none. -/
def optionalItems (form : ReadM Form) : ReadM (List Form) := do
  return (← attempt (items form)).getD []

/-- A bracket that there is no room for. -/
def refuseNesting : ReadM (List Form) := do
  let limit := (← get).config.maxDepth
  observe (.tooDeep limit limit)
  throw (.tooDeep limit limit)

/-! ### Forms -/

/-- A form, given what stands between its brackets if it is a list. -/
def element (nested : ReadM (List Form)) : ReadM Form := do
  if let some value ← attempt atom then
    return .atom value
  bracketed nested

/-- **A form** in which no more than `room` lists are open at once. -/
def form : (room : Nat) → ReadM Form
  | 0, s => element refuseNesting s
  | room + 1, s => element (optionalItems (form room)) s

end Reader

end FormReader
