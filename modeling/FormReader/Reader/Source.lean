import FormReader.Reader.Form

/-!
# Reading a source

What a reader can be asked for at any time: the next form of its source
(`FormReader.Reader.one`), a form that is all there is left (`FormReader.Reader.whole`),
all forms that are left (`FormReader.Reader.all`), or the forms one after another
(`FormReader.Reader.next`).

Iteration is over for good after the first failure. The failure is handed out like a
form, and the reader remembers that it has *halted*; its other abilities are not
affected.
-/

namespace FormReader

namespace Reader

/-- **One form**, with all of the nesting that the reader allows. Where there is none
the cursor stays. -/
def one : ReadM Form := do
  found (← attempt (form (← get).config.maxDepth))

/-- The end of the source, up to blanks. -/
def finish : ReadM Unit := do
  let s ← get
  unless s.cursor.onlyBlanksLeft do
    observe (.trailing s.pos)
    throw .noMatch

/-- **A form and nothing else.** -/
def whole : ReadM Form := do
  let form ← one
  finish
  return form

/-- One form, if there is anything but blanks left. -/
def oneMore : ReadM (Option Form) := do
  if (← get).cursor.onlyBlanksLeft then return none else return some (← one)

/-- **All forms** that are left, as the items of one list. -/
def all : ReadM (List Form) := do
  link (← gather oneMore push { width := Scratch.formWidth })

/-! ### Iteration -/

/-- **The next form** of an iteration, or the failure to read one. There is nothing
more once the source is at its end or a failure has been handed out. -/
def next (s : Reader) : Option (Except Failure Form) × Reader :=
  if s.halted ∨ s.cursor.onlyBlanksLeft then (none, s)
  else
    match one s with
    | .ok form s => (some (.ok form), s)
    | .error f s => (some (.error f), { s with halted := true })

/-- Everything that an iteration still has to hand out. -/
def collect (s : Reader) : List (Except Failure Form) × Reader :=
  match s.next with
  | (none, s') => ([], s')
  | (some (.error f), s') => ([.error f], s')
  | (some (.ok form), s') =>
    if s'.cursor.left < s.cursor.left then
      let (results, s'') := s'.collect
      (.ok form :: results, s'')
    else ([.ok form], s')
termination_by s.cursor.left

end Reader

end FormReader
