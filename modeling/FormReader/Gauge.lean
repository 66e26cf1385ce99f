import FormReader.Session

/-!
# A gauge for depth

A reader hands the room that is left on from rule to rule, and has nothing to restore when a
failure leaves several lists at once. One can also keep a *gauge* beside the reader: a number
that goes up by one behind each opening bracket and down by one when what stands between the
brackets has been read, or has not. An opening bracket is refused where the gauge is at the
limit.

This file reads forms by such a gauge (`FormReader.Gauged`). Nothing here hands on any room, and
nothing makes sure that the gauge is put back but the rule that turned it
(`FormReader.Gauged.nested`). What does not open brackets is taken over from readers as it
stands. Besides the depth the gauge shows the greatest depth that there has been.
-/

namespace FormReader

/-- **A reader with a gauge.** -/
structure Gauged where
  reader : Reader
  /-- How many lists are open around the cursor. -/
  depth : Nat := 0
  /-- How many lists were open at most. -/
  highest : Nat := 0

/-- Rules for a reader with a gauge. -/
abbrev GaugedM := EStateM Failure Gauged

namespace Gauged

variable {α β : Type}

/-- A reader with a gauge at the beginning of a source. -/
def ofBytes (source : List Byte) (arena : Arena := {}) : Gauged :=
  { reader := Reader.ofBytes source arena }

/-- The limit on the gauge. -/
def limit (g : Gauged) : Nat := g.reader.config.maxDepth

/-! ### The gauge -/

/-- Run a rule that does not turn the gauge. -/
def lift (rule : ReadM α) : GaugedM α := fun g =>
  match rule g.reader with
  | .ok a reader => .ok a { g with reader }
  | .error f reader => .error f { g with reader }

/-- **Turn the gauge up**, unless it is at the limit. -/
def enter : GaugedM Unit := fun g =>
  if g.limit ≤ g.depth then
    (do
      lift (Reader.observe (.tooDeep g.depth g.limit))
      throw (.tooDeep g.depth g.limit) : GaugedM Unit) g
  else .ok () { g with depth := g.depth + 1, highest := max g.highest (g.depth + 1) }

/-- Turn the gauge down. -/
def leave (g : Gauged) : Gauged := { g with depth := g.depth - 1 }

/-- **One level deeper**: turn the gauge up, run a rule, and turn the gauge down again in
whatever way the rule has ended. -/
def nested (rule : GaugedM α) : GaugedM α := do
  enter
  fun g =>
    match rule g with
    | .ok a g' => .ok a g'.leave
    | .error f g' => .error f g'.leave

/-! ### Choice and repetition -/

/-- Run a rule, and where it does not match put the cursor back and answer `none`. The gauge is
left as it is. -/
def attempt (rule : GaugedM α) : GaugedM (Option α) := fun g =>
  match rule g with
  | .ok a g' => .ok (some a) g'
  | .error .noMatch g' => .ok none { g' with reader := g'.reader.rewind g.reader.cursor }
  | .error f g' => .error f g'

/-- Find one more item and keep it, and tell whether there was one. -/
def gatherOne (next : GaugedM (Option β)) (keep : α → β → GaugedM α) (acc : α) :
    GaugedM (α × Bool) := do
  match ← next with
  | none => return (acc, false)
  | some item => return (← keep acc item, true)

/-- Find items and keep them, until none is found. -/
def gather (next : GaugedM (Option β)) (keep : α → β → GaugedM α) (acc : α) : GaugedM α := fun g =>
  match gatherOne next keep acc g with
  | .error f g' => .error f g'
  | .ok (acc, more) g' =>
    if more ∧ g'.reader.cursor.left < g.reader.cursor.left then gather next keep acc g'
    else .ok acc g'
termination_by g => g.reader.cursor.left

/-! ### Forms -/

/-- Put a form behind those gathered before it. -/
def push (forms : Scratch Form) (form : Form) : GaugedM (Scratch Form) :=
  lift (Reader.push forms form)

/-- One form at least and then as many as there are, gathered and linked. -/
def linkedItems (form : GaugedM Form) : GaugedM (List Form) := do
  let forms ← push { width := Scratch.formWidth } (← form)
  let forms ← gather (attempt form) push forms
  lift (Reader.link forms)

/-- Items, one at least. -/
def items (form : GaugedM Form) : GaugedM (List Form) := do
  lift (Reader.found (Reader.anyItems? (← linkedItems form)))

/-- The items of a list, of which there may be none. -/
def optionalItems (form : GaugedM Form) : GaugedM (List Form) := do
  return (← attempt (items form)).getD []

/-- A list, given what reads a form inside it. -/
def bracketed (form : GaugedM Form) : GaugedM Form := do
  lift Reader.blanks
  let bracket ← lift Reader.openBracket
  let items ← nested (optionalItems form)
  lift (Reader.closeBracket bracket)
  return .list items

/-- A form, given what reads a form inside it. -/
def element (form : GaugedM Form) : GaugedM Form := do
  if let some value ← attempt (lift Reader.atom) then
    return .atom value
  bracketed form

/-- **A form**, read by the gauge. The budget says how often the rule may be used inside itself.
It decides nothing: where it covers the limit the gauge refuses a bracket before the budget is
spent. -/
def form : (budget : Nat) → GaugedM Form
  | 0 => element (throw .outOfRange)
  | budget + 1 => element (form budget)

/-! ### Sources -/

/-- One form. -/
def one : GaugedM Form := do
  lift (Reader.found (← attempt (form (← get).limit)))

/-- A form and nothing else. -/
def whole : GaugedM Form := do
  let form ← one
  lift Reader.finish
  return form

/-- One form, if there is anything but blanks left. -/
def oneMore : GaugedM (Option Form) := do
  if (← get).reader.cursor.onlyBlanksLeft then return none else return some (← one)

/-- All forms that are left. -/
def all : GaugedM (List Form) := do
  let forms ← gather oneMore push { width := Scratch.formWidth }
  lift (Reader.link forms)

/-- Let an iteration halt. -/
def halt (g : Gauged) : Gauged := { g with reader := { g.reader with halted := true } }

/-- The next form of an iteration, or the failure to read one. -/
def next (g : Gauged) : Option (Except Failure Form) × Gauged :=
  if g.reader.halted ∨ g.reader.cursor.onlyBlanksLeft then (none, g)
  else
    match one g with
    | .ok form g' => (some (.ok form), g')
    | .error f g' => (some (.error f), g'.halt)

/-- Everything that an iteration still has to hand out. -/
def collect (g : Gauged) : List (Except Failure Form) × Gauged :=
  match g.next with
  | (none, g') => ([], g')
  | (some (.error f), g') => ([.error f], g')
  | (some (.ok form), g') =>
    if g'.reader.cursor.left < g.reader.cursor.left then
      let (results, g'') := g'.collect
      (.ok form :: results, g'')
    else ([.ok form], g')
termination_by g.reader.cursor.left

/-! ### Sessions -/

/-- The answer that is made of a rule's result, and what is behind it. -/
def answer (g : Gauged) (rule : GaugedM α) (wrap : Except Failure α → Answer) : Answer × Gauged :=
  match rule g with
  | .ok a g' => (wrap (.ok a), g')
  | .error f g' => (wrap (.error f), g')

mutual

/-- One action. -/
def perform (g : Gauged) : Action → Answer × Gauged
  | .one => g.answer one .form
  | .whole => g.answer whole .form
  | .all => g.answer all .forms
  | .finish => g.answer (lift Reader.finish) .finished
  | .next => let (result, g) := g.next; (.item result, g)
  | .collect => let (results, g) := g.collect; (.items results, g)
  | .attempt rule =>
    let (inner, result) := g.follow rule
    g.answer (attempt fun _ => result) (.attempted inner)

/-- The reports of the actions of a rule, and what came of it. -/
def follow (g : Gauged) : Rule → List Report × EStateM.Result Failure Gauged Unit
  | .done .none => ([], .ok () g)
  | .done (some f) => ([], .error f g)
  | .step action keepGoing rest =>
    let (answer, g) := g.perform action
    match answer.failure?, keepGoing with
    | some f, false => ([g.reader.report answer], .error f g)
    | _, _ =>
      let (reports, result) := g.follow rest
      (g.reader.report answer :: reports, result)

end

/-- One step of a session. -/
def take (g : Gauged) : Step → Answer × Gauged
  | .act action => g.perform action
  | step => let (answer, reader) := g.reader.take step; (answer, { g with reader })

/-- A session: the reports of its steps, and what is behind them. -/
def session (g : Gauged) : List Step → List Report × Gauged
  | [] => ([], g)
  | step :: steps =>
    let (answer, g) := g.take step
    let (reports, last) := g.session steps
    (g.reader.report answer :: reports, last)

end Gauged

end FormReader
