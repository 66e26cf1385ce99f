import FormReader.Plan
import FormReader.Session

/-!
# Trails

The *trail* of a plan is everything that its reader goes through when the plan is carried out:
where it stands before and behind each deed, also when the deed belongs to an alternative that
comes to nothing, and what is asked of the source on the way. An outcome shows the last of this
only. The trail of a session goes through all of its steps, with the rules that are attempted and
the actions inside them.

A trail is read off plans and runs (`FormReader.Plan.trail`), so it is a list that can be
computed. It leaves nothing out (`FormReader.Plan.leads_trail`).
-/

namespace FormReader

/-! ### Moments -/

/-- **What is asked of a source** at a time. -/
inductive Request where
  /-- Nothing but to be there. -/
  | nothing
  /-- The token at the cursor. -/
  | token
  /-- The bytes between two positions. -/
  | slice (start stop : Nat)
  /-- The text that these bytes spell. -/
  | decode (bytes : List Byte)
deriving DecidableEq, Repr

/-- **A moment**: a reader, and what is asked there. -/
structure Moment where
  reader : Reader
  request : Request := .nothing

/-- What a deed asks. -/
def Deed.request : {α : Type} → Deed α → Request
  | _, token => .token
  | _, slice start stop => .slice start stop
  | _, decode bytes => .decode bytes
  | _, _ => .nothing

/-! ### Trails of plans -/

namespace Plan

/-- The trail of a repetition, from the trails of its rounds and what comes of them. -/
def gatherTrail {α : Type} (round : α → Reader → List Moment) (step : α → ReadM (α × Bool))
    (acc : α) (s : Reader) : List Moment :=
  round acc s ++
    match step acc s with
    | .error _ _ => []
    | .ok (acc, more) s' =>
      if more ∧ s'.cursor.left < s.cursor.left then gatherTrail round step acc s' else []
termination_by s.cursor.left

/-- **The trail of a plan** that is carried out on a reader. -/
def trail : {α : Type} → Plan α → Reader → List Moment
  | _, done _, _ => []
  | _, deed d, s => [⟨s, d.request⟩, ⟨(s.run d.run).reader, .nothing⟩]
  | _, bind first next, s =>
    first.trail s ++
      match first.run s with
      | .ok a s' => (next a).trail s'
      | .error _ _ => []
  | _, attempt plan, s =>
    plan.trail s ++ [⟨(s.run (Reader.attempt plan.run)).reader, .nothing⟩]
  | _, gather next keep acc, s =>
    gatherTrail
      (fun acc s => next.trail s ++
        match next.run s with
        | .ok (some item) s' => (keep acc item).trail s'
        | _ => [])
      (Reader.gatherOne next.run fun acc item => (keep acc item).run) acc s

section Moments

variable {α β : Type} {m : Moment} {s : Reader}

theorem mem_trail_deed {d : Deed α} :
    m ∈ (deed d).trail s ↔ m = ⟨s, d.request⟩ ∨ m = ⟨(s.run d.run).reader, .nothing⟩ := by
  rw [trail, List.mem_cons, List.mem_singleton]

/-- The trail of a sequence goes on with what was found first. -/
theorem mem_trail_bind {first : Plan α} {next : α → Plan β} :
    m ∈ (first >>= next).trail s ↔
      m ∈ first.trail s ∨ ∃ a s', first.run s = .ok a s' ∧ m ∈ (next a).trail s' := by
  change m ∈ (bind first next).trail s ↔ _
  rw [trail, List.mem_append]
  refine or_congr_right ?_
  rcases first.run s with ⟨a, s'⟩ | ⟨f, s'⟩
  · constructor
    · intro hm
      exact ⟨a, s', rfl, hm⟩
    · rintro ⟨_, _, ⟨⟩, hm⟩
      exact hm
  · constructor
    · intro hm
      cases hm
    · rintro ⟨_, _, ⟨⟩, _⟩

theorem mem_trail_attempt {plan : Plan α} :
    m ∈ (attempt plan).trail s ↔
      m ∈ plan.trail s ∨ m = ⟨(s.run (Reader.attempt plan.run)).reader, .nothing⟩ := by
  rw [trail, List.mem_append, List.mem_singleton]

end Moments

end Plan

/-! ### Trails of sessions -/

namespace Reader

/-- The trail of the next form of an iteration. -/
def nextTrail (s : Reader) : List Moment :=
  if s.halted ∨ s.cursor.onlyBlanksLeft then [] else Plan.one.trail s

/-- The trail of the rest of an iteration. -/
def collectTrail (s : Reader) : List Moment :=
  s.nextTrail ++
    match s.next with
    | (some (.ok _), s') => if s'.cursor.left < s.cursor.left then s'.collectTrail else []
    | _ => []
termination_by s.cursor.left

mutual

/-- **The trail of an action.** -/
def performTrail (s : Reader) : Action → List Moment
  | .one => Plan.one.trail s
  | .whole => Plan.whole.trail s
  | .all => Plan.all.trail s
  | .finish => Plan.finish.trail s
  | .next => s.nextTrail
  | .collect => s.collectTrail
  | .attempt rule => s.followTrail rule ++ [⟨(s.perform (.attempt rule)).2, .nothing⟩]

/-- The trail of a rule made of actions. -/
def followTrail (s : Reader) : Rule → List Moment
  | .done _ => []
  | .step action keepGoing rest =>
    s.performTrail action ++ ⟨(s.perform action).2, .nothing⟩ ::
      match (s.perform action).1.failure?, keepGoing with
      | some _, false => []
      | _, _ => (s.perform action).2.followTrail rest

end

/-- The trail of a rule that begins with an action goes on with the rest, unless it gives up. -/
theorem followTrail_step (s : Reader) (action : Action) (keepGoing : Bool) (rest : Rule) :
    s.followTrail (.step action keepGoing rest) =
      s.performTrail action ++ ⟨(s.perform action).2, .nothing⟩ ::
        match (s.perform action).1.failure?, keepGoing with
        | some _, false => []
        | _, _ => (s.perform action).2.followTrail rest := by
  rw [followTrail.eq_def]

/-- The trail of a step. -/
def takeTrail (s : Reader) : Step → List Moment
  | .act action => s.performTrail action
  | _ => []

/-- **The trail of a session.** -/
def sessionTrail (s : Reader) : List Step → List Moment
  | [] => [⟨s, .nothing⟩]
  | step :: steps => ⟨s, .nothing⟩ :: (s.takeTrail step ++ (s.take step).2.sessionTrail steps)

end Reader

end FormReader
