import FormReader.Session

/-!
# Turns of an iteration

A session asks for the next form now and again, on its own, until there is no more, or inside of
rules that are attempted. A *turn* is a reader at such a moment. The turns of a session are
gathered here along its run (`FormReader.Reader.turns`), those of an attempt included that comes
to nothing, since the results that were handed out in it have been handed out all the same.

The results are also found in the reports of the session, where an attempt reports what happened
inside of it (`FormReader.handedOutIn`).
-/

namespace FormReader

/-! ### Results that are handed out -/

/-- Whether what an iteration hands out is a failure. -/
def isFailure : Option (Except Failure Form) → Bool
  | some (.error _) => true
  | _ => false

mutual

/-- **The results that an answer hands out**, one for each time that the next form was asked for.
Asking for all of them ends with there being none. -/
def Answer.handedOut : Answer → List (Option (Except Failure Form))
  | .item result => [result]
  | .items results => results.map some ++ [.none]
  | .attempted inner _ => handedOutIn inner
  | _ => []

/-- The results that a report hands out. -/
def Report.handedOut : Report → List (Option (Except Failure Form))
  | .mk answer _ _ => answer.handedOut

/-- The results that reports hand out, in order. -/
def handedOutIn : List Report → List (Option (Except Failure Form))
  | [] => []
  | report :: reports => report.handedOut ++ handedOutIn reports

end

namespace Reader

/-! ### Turns -/

/-- The turns of an iteration that is followed to its end. In the last one there is no more. -/
def collectTurns (s : Reader) : List Reader :=
  match s.next with
  | (none, _) => [s]
  | (some _, s') =>
    if s'.cursor.left < s.cursor.left then s :: s'.collectTurns else [s, s']
termination_by s.cursor.left

mutual

/-- **The turns of an action.** -/
def performTurns (s : Reader) : Action → List Reader
  | .next => [s]
  | .collect => s.collectTurns
  | .attempt rule => s.followTurns rule
  | .one | .whole | .all | .finish => []

/-- The turns of a rule made of actions. -/
def followTurns (s : Reader) : Rule → List Reader
  | .done _ => []
  | .step action keepGoing rest =>
    s.performTurns action ++
      match (s.perform action).1.failure?, keepGoing with
      | some _, false => []
      | _, _ => (s.perform action).2.followTurns rest

end

theorem followTurns_step (s : Reader) (action : Action) (keepGoing : Bool) (rest : Rule) :
    s.followTurns (.step action keepGoing rest) =
      s.performTurns action ++
        match (s.perform action).1.failure?, keepGoing with
        | some _, false => []
        | _, _ => (s.perform action).2.followTurns rest := by
  rw [followTurns.eq_def]

/-- The turns of a step. -/
def takeTurns (s : Reader) : Step → List Reader
  | .act action => s.performTurns action
  | .setMaxDepth _ | .setConfig _ => []

/-- **The turns of a session**, in order. -/
def turns (s : Reader) : List Step → List Reader
  | [] => []
  | step :: steps => s.takeTurns step ++ (s.take step).2.turns steps

/-- Whether the turn hands out a failure. -/
def handsFailure (s : Reader) : Bool := isFailure s.next.1

end Reader

end FormReader
