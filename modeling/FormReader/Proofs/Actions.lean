import FormReader.Proofs.SideBySide
import FormReader.Proofs.Steadiness
import FormReader.Session

/-!
# What actions leave as it was

A session may do anything to a reader in any order, and rules made of actions nest to any
depth. Still there are things that no action changes: the source, the settings and what was
recorded; and no action moves the cursor back. The last of these is not obvious, since an
attempt does put the cursor back – but to where it was before the attempt, and what happened
inside never went further back than that (`FormReader.Reader.keeps_perform`). A session changes
the settings as well, and leaves the ones that were given last
(`FormReader.Reader.config_session`).
-/

namespace FormReader

namespace Reader

/-! ### Rules made of actions -/

/-- **What a rule made of actions comes to**, run on a reader. -/
def came (s : Reader) (rule : Rule) : Outcome Unit :=
  match (s.follow rule).2 with
  | .ok _ s' => ⟨.ok (), s'⟩
  | .error f s' => ⟨.error f, s'⟩

section Attempts

variable (s : Reader)

/-- An attempt answers by what the rule comes to. -/
theorem perform_attempt (rule : Rule) :
    s.perform (.attempt rule) =
      match s.came rule with
      | ⟨.ok _, s'⟩ => (.attempted (s.follow rule).1 (.ok (some ())), s')
      | ⟨.error f, s'⟩ =>
        if f = .noMatch then (.attempted (s.follow rule).1 (.ok none), s'.rewind s.cursor)
        else (.attempted (s.follow rule).1 (.error f), s') := by
  rw [perform, came]
  rcases s.follow rule with ⟨inner, ⟨_, s'⟩ | ⟨_ | _ | _ | _, s'⟩⟩ <;> rfl

theorem came_done (ending : Option Failure) :
    (s.came (.done ending)).reader = s := by
  rw [came]
  rcases ending with _ | f
  · rw [follow]
  · rw [follow]

/-- A rule that begins with an action gives up behind it or goes on from there. -/
theorem came_step (action : Action) (keepGoing : Bool) (rest : Rule) :
    s.came (.step action keepGoing rest) =
      match (s.perform action).1.failure?, keepGoing with
      | some f, false => ⟨.error f, (s.perform action).2⟩
      | _, _ => (s.perform action).2.came rest := by
  rw [came, follow, came]
  rcases s.perform action with ⟨answer, s'⟩
  dsimp only
  rcases answer.failure? with _ | f
  · rfl
  · cases keepGoing with
    | false => rfl
    | true => rfl

/-- A rule that begins with an action reports it first. -/
theorem follow_step (action : Action) (keepGoing : Bool) (rest : Rule) :
    (s.follow (.step action keepGoing rest)).1 =
      (s.perform action).2.report (s.perform action).1 ::
        match (s.perform action).1.failure?, keepGoing with
        | some _, false => []
        | _, _ => ((s.perform action).2.follow rest).1 := by
  rw [follow]
  rcases s.perform action with ⟨answer, s'⟩
  dsimp only
  rcases answer.failure? with _ | f
  · rfl
  · cases keepGoing with
    | false => rfl
    | true => rfl

end Attempts

/-! ### No action goes back -/

variable {α : Type}

theorem keeps_answer {rule : ReadM α} (h : Steady rule) (s : Reader)
    (wrap : Except Failure α → Answer) : Keeps s (s.answer rule wrap).2 :=
  (h.follows_run s).toKeeps

theorem keeps_next (s : Reader) : Keeps s s.next.2 := by
  rw [next]
  split
  · exact Keeps.refl s
  · split
    · next t s' hone => exact ((steady_one s).of_ok hone).toKeeps
    · next f s' hone =>
      have hkeeps := ((steady_one s).of_error hone).1.toKeeps
      exact ⟨⟨hkeeps.source, hkeeps.pos, hkeeps.arena, hkeeps.log, hkeeps.inRange⟩,
        hkeeps.config⟩

theorem keeps_collect (s : Reader) : Keeps s s.collect.2 := by
  induction hn : s.cursor.left using Nat.strongRecOn generalizing s with
  | ind n ih =>
    subst hn
    have hnext := keeps_next s
    rw [collect]
    generalize s.next = x at hnext ⊢
    rcases x with ⟨_ | (f | t), s'⟩
    · exact hnext
    · exact hnext
    · dsimp only
      split
      · next hlt => exact hnext.trans (ih _ hlt s' rfl)
      · exact hnext

mutual

/-- **No action goes back**, changes the settings or loses a record. -/
theorem keeps_perform : ∀ (s : Reader) (action : Action), Keeps s (s.perform action).2
  | s, .one => by
    rw [perform]
    exact keeps_answer steady_one s _
  | s, .whole => by
    rw [perform]
    exact keeps_answer steady_whole s _
  | s, .all => by
    rw [perform]
    exact keeps_answer steady_all s _
  | s, .finish => by
    rw [perform]
    exact keeps_answer steady_finish s _
  | s, .next => by
    rw [perform]
    exact keeps_next s
  | s, .collect => by
    rw [perform]
    exact keeps_collect s
  | s, .attempt rule => by
    have hcame := keeps_came s rule
    rw [perform_attempt]
    generalize s.came rule = outcome at hcame ⊢
    rcases outcome with ⟨f | _, s'⟩
    · dsimp only
      split
      · exact hcame.rewind
      · exact hcame
    · exact hcame

theorem keeps_came : ∀ (s : Reader) (rule : Rule), Keeps s (s.came rule).reader
  | s, .done ending => by
    rw [came_done]
    exact Keeps.refl s
  | s, .step action keepGoing rest => by
    have haction := keeps_perform s action
    have hrest := keeps_came (s.perform action).2 rest
    rw [came_step]
    split
    · exact haction
    · exact haction.trans hrest

end

end Reader

/-! ### Sessions -/

/-- The settings that a step gives, if it gives any. -/
def Step.setting? : Step → Option Config
  | .act _ => none
  | .setMaxDepth maxDepth => some { maxDepth }
  | .setConfig config => some config

namespace Reader

/-- No step goes back. -/
theorem onward_take (s : Reader) (step : Step) : Onward s (s.take step).2 := by
  cases step with
  | act action => exact (keeps_perform s action).toOnward
  | setMaxDepth maxDepth => exact ⟨rfl, Nat.le_refl _, .refl _, List.suffix_refl _, id⟩
  | setConfig config => exact ⟨rfl, Nat.le_refl _, .refl _, List.suffix_refl _, id⟩

/-- Only a step that gives settings changes them. -/
theorem config_take (s : Reader) (step : Step) :
    (s.take step).2.config = step.setting?.getD s.config := by
  cases step with
  | act action => exact (keeps_perform s action).config
  | setMaxDepth maxDepth => rfl
  | setConfig config => rfl

theorem session_cons (s : Reader) (step : Step) (steps : List Step) :
    (s.session (step :: steps)).2 = ((s.take step).2.session steps).2 := by
  rw [session]

/-- **No session goes back**, loses a record or leaves the source. -/
theorem onward_session (s : Reader) (steps : List Step) : Onward s (s.session steps).2 := by
  induction steps generalizing s with
  | nil => exact Onward.refl s
  | cons step steps ih =>
    rw [session_cons]
    exact (onward_take s step).trans (ih _)

/-- **The settings behind a session** are the ones given last. -/
theorem config_session (s : Reader) (steps : List Step) :
    (s.session steps).2.config = (steps.filterMap Step.setting?).getLast?.getD s.config := by
  induction steps generalizing s with
  | nil => rfl
  | cons step steps ih =>
    rw [session_cons, ih, config_take, List.filterMap_cons]
    rcases step.setting? with _ | config
    · rfl
    · rw [List.getLast?_cons]
      rfl

end Reader

end FormReader
