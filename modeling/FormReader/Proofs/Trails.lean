import FormReader.Proofs.Actions
import FormReader.Proofs.Plans
import FormReader.Trail

/-!
# Trails have no gaps

What holds at every moment of a trail holds of everything that a reader goes through only if the
trail leaves nothing out. Here this is shown of all trails, those of plans and those of sessions.
A trail leads from the reader that it begins with to the one behind (`FormReader.Leads`): by
deeds, with the readers before and behind each of them among its moments, and by going back, with
the reader that is back. Whatever else happens on the way concerns neither the cursor nor the
arena nor the record.

For a plan this is an induction on how it is put together (`FormReader.Plan.leads_trail`). The
trail of a session puts together those of plans, and each of them is the trail of what the session
asks for (`FormReader.Reader.leads_sessionTrail`).
-/

namespace FormReader

/-- **Leading**: from one reader to another, with everything that happens on the way among the
moments. -/
inductive Leads : Reader → List Moment → Reader → Prop where
  /-- Nothing happens. -/
  | nil (s : Reader) : Leads s [] s
  /-- A deed is done. -/
  | deed {s s' : Reader} {trail : List Moment} {α : Type} (d : Deed α) :
    Leads (s.run d.run).reader trail s' →
    Leads s (⟨s, d.request⟩ :: ⟨(s.run d.run).reader, .nothing⟩ :: trail) s'
  /-- The cursor is put back. -/
  | rewind {s s' : Reader} {trail : List Moment} (cursor : Cursor) :
    Leads (s.rewind cursor) trail s' → Leads s (⟨s.rewind cursor, .nothing⟩ :: trail) s'
  /-- The reader is seen. -/
  | seen {s s' : Reader} {trail : List Moment} :
    Leads s trail s' → Leads s (⟨s, .nothing⟩ :: trail) s'
  /-- A setting is changed, or iteration halts. -/
  | set {s t s' : Reader} {trail : List Moment} :
    t.cursor = s.cursor → t.arena = s.arena → t.log = s.log → Leads t trail s' → Leads s trail s'

theorem Leads.append {s s' s'' : Reader} {trail trail' : List Moment} (h : Leads s trail s')
    (h' : Leads s' trail' s'') : Leads s (trail ++ trail') s'' := by
  induction h with
  | nil s => exact h'
  | deed d _ ih => exact .deed d (ih h')
  | rewind cursor _ ih => exact .rewind cursor (ih h')
  | seen _ ih => exact .seen (ih h')
  | set hcursor harena hlog _ ih => exact .set hcursor harena hlog (ih h')

/-- A change of a setting is nothing to be seen. -/
theorem leads_set {s t : Reader} (hcursor : t.cursor = s.cursor) (harena : t.arena = s.arena)
    (hlog : t.log = s.log) : Leads s [] t :=
  .set hcursor harena hlog (.nil t)

/-! ### Plans -/

namespace Plan

variable {α β : Type}

/-- Handing something else out happens nowhere. -/
theorem reader_run_bind_pure (rule : ReadM α) (f : α → β) (s : Reader) :
    (s.run (rule >>= fun a => pure (f a))).reader = (s.run rule).reader := by
  rw [Reader.run_bind]
  rcases s.run rule with ⟨_ | _, s'⟩
  · rfl
  · rfl

/-- The trail of a repetition leads on where the trail of each round does. -/
theorem leads_gatherTrail {round : α → Reader → List Moment} {next : ReadM (Option β)}
    {keep : α → β → ReadM α}
    (hround : ∀ acc s, Leads s (round acc s) (s.run (Reader.gatherOne next keep acc)).reader)
    (acc : α) (s : Reader) :
    Leads s (gatherTrail round (Reader.gatherOne next keep) acc s)
      (s.run (Reader.gather next keep acc)).reader := by
  induction acc, s using Reader.gather.induct next keep with
  | case1 acc s f s' hone =>
    have h := hround acc s
    rw [Reader.run_of_error hone] at h
    rw [gatherTrail, hone, Reader.run_gather, Reader.run_of_error hone]
    exact h.append (.nil s')
  | case2 acc s acc' more s' hone hgo ih =>
    have h := hround acc s
    rw [Reader.run_of_ok hone] at h
    rw [gatherTrail, hone, Reader.run_gather, Reader.run_of_ok hone]
    simp only [if_pos hgo]
    exact h.append ih
  | case3 acc s acc' more s' hone hstop =>
    have h := hround acc s
    rw [Reader.run_of_ok hone] at h
    rw [gatherTrail, hone, Reader.run_gather, Reader.run_of_ok hone]
    simp only [if_neg hstop]
    exact h.append (.nil s')

/-- **The trail of a plan has no gaps.** -/
theorem leads_trail (plan : Plan α) (s : Reader) :
    Leads s (plan.trail s) (s.run plan.run).reader := by
  induction plan generalizing s with
  | done a => exact .nil s
  | deed d => exact .deed d (.nil _)
  | bind first next ihfirst ihnext =>
    have hfirst := ihfirst s
    rw [trail, run, Reader.run_bind]
    rcases hr : first.run s with ⟨a, s'⟩ | ⟨f, s'⟩
    · rw [Reader.run_of_ok hr] at hfirst ⊢
      exact hfirst.append (ihnext a s')
    · rw [Reader.run_of_error hr] at hfirst ⊢
      exact hfirst.append (.nil s')
  | attempt plan ih =>
    have hplan := ih s
    rw [trail, run, Reader.run_attempt]
    refine hplan.append ?_
    rcases s.run plan.run with ⟨f | a, s'⟩
    · dsimp only
      split
      · exact .rewind s.cursor (.nil _)
      · exact .seen (.nil s')
    · exact .seen (.nil s')
  | gather next keep acc ihnext ihkeep =>
    rw [trail, run]
    refine leads_gatherTrail (fun acc s => ?_) acc s
    have hnext := ihnext s
    rw [Reader.gatherOne, Reader.run_bind]
    rcases hr : next.run s with ⟨_ | item, s'⟩ | ⟨f, s'⟩
    · rw [Reader.run_of_ok hr] at hnext ⊢
      exact hnext.append (.nil s')
    · rw [Reader.run_of_ok hr] at hnext ⊢
      have hkeep := ihkeep acc item s'
      rw [← reader_run_bind_pure (keep acc item).run fun acc' => (acc', true)] at hkeep
      exact hnext.append hkeep
    · rw [Reader.run_of_error hr] at hnext ⊢
      exact hnext.append (.nil s')

end Plan

/-! ### Sessions -/

namespace Reader

/-- Asking for what a plan is the plan of leads along its trail. -/
theorem leads_answer {α : Type} {plan : Plan α} {rule : ReadM α} (hrule : plan.run = rule)
    (s : Reader) (wrap : Except Failure α → Answer) :
    Leads s (plan.trail s) (s.answer rule wrap).2 := by
  subst hrule
  exact plan.leads_trail s

theorem leads_nextTrail (s : Reader) : Leads s s.nextTrail s.next.2 := by
  rw [nextTrail, next]
  split
  · exact .nil s
  · have hone := Plan.one.leads_trail s
    rw [Plan.run_one] at hone
    split
    · next t s' hr =>
      rw [run_of_ok hr] at hone
      exact hone
    · next f s' hr =>
      rw [run_of_error hr] at hone
      -- the failure halts the iteration
      have hhalts : Leads s' [] { s' with halted := true } := leads_set rfl rfl rfl
      have hboth := hone.append hhalts
      rw [List.append_nil] at hboth
      exact hboth

theorem leads_collectTrail (s : Reader) : Leads s s.collectTrail s.collect.2 := by
  induction hn : s.cursor.left using Nat.strongRecOn generalizing s with
  | ind n ih =>
    subst hn
    have hnext := leads_nextTrail s
    rw [collectTrail, collect]
    generalize s.next = x at hnext ⊢
    rcases x with ⟨_ | (f | t), s'⟩
    · exact hnext.append (.nil s')
    · exact hnext.append (.nil s')
    · dsimp only
      split
      · next hlt => exact hnext.append (ih _ hlt s' rfl)
      · exact hnext.append (.nil s')

mutual

/-- **The trail of an action has no gaps.** -/
theorem leads_performTrail : ∀ (s : Reader) (action : Action),
    Leads s (s.performTrail action) (s.perform action).2
  | s, .one => by
    rw [performTrail, perform]
    exact leads_answer Plan.run_one s _
  | s, .whole => by
    rw [performTrail, perform]
    exact leads_answer Plan.run_whole s _
  | s, .all => by
    rw [performTrail, perform]
    exact leads_answer Plan.run_all s _
  | s, .finish => by
    rw [performTrail, perform]
    exact leads_answer Plan.run_finish s _
  | s, .next => by
    rw [performTrail, perform]
    exact leads_nextTrail s
  | s, .collect => by
    rw [performTrail, perform]
    exact leads_collectTrail s
  | s, .attempt rule => by
    have hrule := leads_followTrail s rule
    rw [performTrail, perform_attempt]
    refine hrule.append ?_
    rcases s.came rule with ⟨f | _, s'⟩
    · dsimp only
      split
      · exact .rewind s.cursor (.nil _)
      · exact .seen (.nil s')
    · exact .seen (.nil s')

/-- The trail of a rule made of actions has no gaps. -/
theorem leads_followTrail : ∀ (s : Reader) (rule : Rule),
    Leads s (s.followTrail rule) (s.came rule).reader
  | s, .done ending => by
    rw [followTrail, came_done]
    exact .nil s
  | s, .step action keepGoing rest => by
    have haction := leads_performTrail s action
    have hon := haction.append (.seen (leads_followTrail (s.perform action).2 rest))
    rw [followTrail_step, came_step]
    rcases (s.perform action).1.failure? with _ | f
    · exact hon
    · cases keepGoing with
      | false => exact haction.append (.seen (.nil _))
      | true => exact hon

end

theorem leads_takeTrail (s : Reader) (step : Step) :
    Leads s (s.takeTrail step) (s.take step).2 := by
  cases step with
  | act action => exact leads_performTrail s action
  | setMaxDepth maxDepth => exact leads_set rfl rfl rfl
  | setConfig config => exact leads_set rfl rfl rfl

/-- **The trail of a session has no gaps.** -/
theorem leads_sessionTrail (s : Reader) (steps : List Step) :
    Leads s (s.sessionTrail steps) (s.session steps).2 := by
  induction steps generalizing s with
  | nil => exact .seen (.nil s)
  | cons step steps ih => exact .seen ((leads_takeTrail s step).append (ih (s.take step).2))

end Reader

end FormReader
