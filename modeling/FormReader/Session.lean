import FormReader.Parse

/-!
# Sessions

A session is a sequence of steps on one reader. A step changes a setting, or it is an
*action* that asks the reader for something. One of the actions is to attempt a rule
that is itself a sequence of actions (`FormReader.Rule`): the rule gives up at the first
action that fails, unless it was told to keep going, and ends as its author says.

Every action is reported with its answer, the position behind it and whether the arena
holds any memory by then. The actions inside an attempt are reported too, also when the
attempt comes to nothing.
-/

namespace FormReader

/-! ### Actions and rules -/

mutual

/-- **What a reader can be asked for.** -/
inductive Action where
  /-- The next form. -/
  | one
  /-- A form that is all there is left. -/
  | whole
  /-- All forms that are left. -/
  | all
  /-- The end of the source. -/
  | finish
  /-- The next form of an iteration. -/
  | next
  /-- The rest of an iteration. -/
  | collect
  /-- What a rule finds, if it matches. -/
  | attempt (rule : Rule)

/-- Rules made of actions. -/
inductive Rule where
  /-- Succeed, or fail in a certain way. -/
  | done (ending : Option Failure)
  /-- Act, and go on with a rule. Where the action fails the rule fails alike, unless
  it is told to keep going. -/
  | step (action : Action) (keepGoing : Bool) (rest : Rule)

end

/-- **A step of a session**: an action, or a change of settings. -/
inductive Step where
  | act (action : Action)
  | setMaxDepth (maxDepth : Nat)
  | setConfig (config : Config)

/-! ### Answers -/

mutual

/-- What a step answers. -/
inductive Answer where
  /-- A form, or why there is none. -/
  | form (result : Except Failure Form)
  /-- The forms of a list, or why there are none. -/
  | forms (result : Except Failure (List Form))
  /-- Whether the source is at its end. -/
  | finished (result : Except Failure Unit)
  /-- The next result of an iteration, if there is one. -/
  | item (result : Option (Except Failure Form))
  /-- All results that were left of an iteration. -/
  | items (results : List (Except Failure Form))
  /-- What an attempted rule did, and whether it matched. -/
  | attempted (inner : List Report) (result : Except Failure (Option Unit))
  /-- Nothing, as after a change of settings. -/
  | none

/-- An answer, with the position of the reader and whether its arena holds memory. -/
inductive Report where
  | mk (answer : Answer) (pos : Nat) (reserved : Bool)

end

/-- The answer that is reported. -/
def Report.answer : Report → Answer
  | mk answer _ _ => answer

/-- The failure that a result is. -/
def failureOf? {α : Type} : Except Failure α → Option Failure
  | .ok _ => .none
  | .error f => some f

namespace Answer

/-- The failure that an answer reports: the first one, if it has several results. A
rule that did not match is not a failure of the attempt. -/
def failure? : Answer → Option Failure
  | form result => failureOf? result
  | forms result => failureOf? result
  | finished result => failureOf? result
  | item result => result.bind failureOf?
  | items results => results.findSome? failureOf?
  | attempted _ result => failureOf? result
  | none => .none

end Answer

/-- Report an answer of a reader. -/
def Reader.report (s : Reader) (answer : Answer) : Report :=
  .mk answer s.pos s.arena.isReserved

/-! ### Running a session -/

/-- The answer that is made of a rule's result, and the reader behind it. -/
def Reader.answer {α : Type} (s : Reader) (rule : ReadM α)
    (wrap : Except Failure α → Answer) : Answer × Reader :=
  let outcome := s.run rule
  (wrap outcome.result, outcome.reader)

mutual

/-- **One action** of a reader. -/
def Reader.perform (s : Reader) : Action → Answer × Reader
  | .one => s.answer Reader.one .form
  | .whole => s.answer Reader.whole .form
  | .all => s.answer Reader.all .forms
  | .finish => s.answer Reader.finish .finished
  | .next => let (result, s) := s.next; (.item result, s)
  | .collect => let (results, s) := s.collect; (.items results, s)
  | .attempt rule =>
    let (inner, result) := s.follow rule
    s.answer (Reader.attempt fun _ => result) (.attempted inner)

/-- Follow a rule: the reports of its actions, and what came of it. -/
def Reader.follow (s : Reader) : Rule → List Report × EStateM.Result Failure Reader Unit
  | .done .none => ([], .ok () s)
  | .done (some f) => ([], .error f s)
  | .step action keepGoing rest =>
    let (answer, s) := s.perform action
    match answer.failure?, keepGoing with
    | some f, false => ([s.report answer], .error f s)
    | _, _ =>
      let (reports, result) := s.follow rest
      (s.report answer :: reports, result)

end

/-- One step of a session. -/
def Reader.take (s : Reader) : Step → Answer × Reader
  | .act action => s.perform action
  | .setMaxDepth maxDepth => (.none, { s with config := { s.config with maxDepth } })
  | .setConfig config => (.none, { s with config })

/-- **A session**: the reports of its steps, and the reader behind them. -/
def Reader.session (s : Reader) : List Step → List Report × Reader
  | [] => ([], s)
  | step :: steps =>
    let (answer, s) := s.take step
    let (reports, last) := s.session steps
    (s.report answer :: reports, last)

end FormReader
