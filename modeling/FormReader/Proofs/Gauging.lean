import FormReader.Gauge
import FormReader.Proofs.Steadiness

/-!
# The gauge shows what the room leaves

Reading by a gauge (`FormReader.Gauged`) comes to the same as reading with a room that is handed
on: the depth that the gauge shows and the room that is left always make up the limit. This is
said by `FormReader.Gauged.Agrees`, which ties the outcome of a rule for gauged readers to that
of a rule for readers, and in particular says that behind a rule the gauge shows what it showed
before, *however* the rule ended – when a failure has left several lists at once, too – and that
it was never above the limit in between.

Rules that do not turn the gauge agree trivially, agreement is inherited along sequences,
choices and repetitions, and the one rule that turns the gauge turns it back
(`FormReader.Gauged.Agrees.nested`). Forms follow by induction on the room. A session begins
with the gauge at nothing, and so every step of it does
(`FormReader.Gauged.session_at_rest`).
-/

namespace FormReader

namespace Gauged

open Reader (Steady steady_pure)

variable {α β : Type}

/-! ### Agreeing -/

/-- **An outcome shown** by the gauge: the outcome is the one for readers, and the gauge shows
this depth and has never been above this bound. -/
inductive Shows (depth bound : Nat) :
    EStateM.Result Failure Gauged α → EStateM.Result Failure Reader α → Prop
  | ok {a : α} {g : Gauged} : g.depth = depth → g.highest ≤ bound →
    Shows depth bound (.ok a g) (.ok a g.reader)
  | error {f : Failure} {g : Gauged} : g.depth = depth → g.highest ≤ bound →
    Shows depth bound (.error f g) (.error f g.reader)

/-- **Agreeing** at a depth: a rule for gauged readers comes to what a rule for readers comes
to, puts the gauge back, and does not turn it above the limit. -/
structure Agrees (depth limit : Nat) (rule : GaugedM α) (plain : ReadM α) : Prop where
  steady : Steady plain
  shows : ∀ g : Gauged, g.depth = depth → g.limit = limit →
    Shows depth (max g.highest limit) (rule g) (plain g.reader)

theorem Shows.mono {depth bound bound' : Nat} {x : EStateM.Result Failure Gauged α}
    {y : EStateM.Result Failure Reader α} (h : Shows depth bound x y) (hbound : bound ≤ bound') :
    Shows depth bound' x y := by
  cases h with
  | ok hdepth hhighest => exact .ok hdepth (Nat.le_trans hhighest hbound)
  | error hdepth hhighest => exact .error hdepth (Nat.le_trans hhighest hbound)

namespace Agrees

variable {depth limit : Nat} {rule : GaugedM α} {plain : ReadM α}

/-- A rule that does not turn the gauge agrees with itself. -/
theorem lift (h : Steady plain) : Agrees depth limit (Gauged.lift plain) plain where
  steady := h
  shows g hdepth _ := by
    rw [Gauged.lift]
    rcases plain g.reader with ⟨a, s⟩ | ⟨f, s⟩
    · exact .ok (g := { g with reader := s }) hdepth (Nat.le_max_left _ _)
    · exact .error (g := { g with reader := s }) hdepth (Nat.le_max_left _ _)

theorem pure (a : α) : Agrees depth limit (Pure.pure a) (Pure.pure a) :=
  ⟨steady_pure a, fun _ hdepth _ => .ok hdepth (Nat.le_max_left _ _)⟩

/-- **Sequences** agree when their parts do. The limit is a setting, which stays. -/
theorem bind {next : α → GaugedM β} {plainNext : α → ReadM β} (h : Agrees depth limit rule plain)
    (hnext : ∀ a, Agrees depth limit (next a) (plainNext a)) :
    Agrees depth limit (rule >>= next) (plain >>= plainNext) where
  steady := h.steady.bind fun a => (hnext a).steady
  shows g hdepth hlimit := by
    have hfirst := h.shows g hdepth hlimit
    have hsteady := h.steady g.reader
    simp only [Bind.bind, EStateM.bind]
    generalize rule g = x at hfirst
    generalize hy : plain g.reader = y at hfirst
    cases hfirst with
    | @ok a g₁ hdepth₁ hhighest₁ =>
      have hlimit₁ : g₁.limit = limit := by
        rw [Gauged.limit, (hsteady.of_ok hy).config]
        exact hlimit
      exact ((hnext a).shows g₁ hdepth₁ hlimit₁).mono
        (Nat.max_le.mpr ⟨hhighest₁, Nat.le_max_right _ _⟩)
    | error hdepth₁ hhighest₁ => exact .error hdepth₁ hhighest₁

theorem attempt (h : Agrees depth limit rule plain) :
    Agrees depth limit (Gauged.attempt rule) (Reader.attempt plain) where
  steady := h.steady.attempt
  shows g hdepth hlimit := by
    have hrule := h.shows g hdepth hlimit
    rw [Gauged.attempt, Reader.attempt]
    generalize rule g = x at hrule
    generalize plain g.reader = y at hrule
    cases hrule with
    | ok hdepth₁ hhighest₁ => exact .ok hdepth₁ hhighest₁
    | @error f g₁ hdepth₁ hhighest₁ =>
      cases f with
      | noMatch =>
        exact .ok (g := { g₁ with reader := g₁.reader.rewind g.reader.cursor }) hdepth₁ hhighest₁
      | exhausted _ => exact .error hdepth₁ hhighest₁
      | tooDeep _ _ => exact .error hdepth₁ hhighest₁
      | outOfRange => exact .error hdepth₁ hhighest₁

/-- **Repetitions** agree when a round of them does. -/
theorem gather {next : GaugedM (Option β)} {plainNext : ReadM (Option β)}
    {keep : α → β → GaugedM α} {plainKeep : α → β → ReadM α}
    (hnext : Agrees depth limit next plainNext)
    (hkeep : ∀ acc item, Agrees depth limit (keep acc item) (plainKeep acc item)) (acc : α) :
    Agrees depth limit (Gauged.gather next keep acc) (Reader.gather plainNext plainKeep acc) where
  steady := hnext.steady.gather (fun acc item => (hkeep acc item).steady) acc
  shows g hdepth hlimit := by
    have hone (acc : α) : Agrees depth limit (Gauged.gatherOne next keep acc)
        (Reader.gatherOne plainNext plainKeep acc) := by
      refine hnext.bind fun item? => ?_
      rcases item? with _ | item
      · exact pure _
      · exact (hkeep acc item).bind fun _ => pure _
    induction hn : g.reader.cursor.left using Nat.strongRecOn generalizing g acc with
    | ind n ih =>
      subst hn
      have hround := (hone acc).shows g hdepth hlimit
      have hsteady := (hone acc).steady g.reader
      rw [Gauged.gather, Reader.gather]
      generalize Gauged.gatherOne next keep acc g = x at hround
      generalize hy : Reader.gatherOne plainNext plainKeep acc g.reader = y at hround
      cases hround with
      | @ok found g₁ hdepth₁ hhighest₁ =>
        have hlimit₁ : g₁.limit = limit := by
          rw [Gauged.limit, (hsteady.of_ok hy).config]
          exact hlimit
        dsimp only
        split
        · next hgo =>
          exact (ih _ hgo.2 found.1 g₁ hdepth₁ hlimit₁ rfl).mono
            (Nat.max_le.mpr ⟨hhighest₁, Nat.le_max_right _ _⟩)
        · exact .ok hdepth₁ hhighest₁
      | error hdepth₁ hhighest₁ => exact .error hdepth₁ hhighest₁

end Agrees

/-! ### Turning the gauge -/

/-- A gauge turned up. -/
def entered (g : Gauged) : Gauged :=
  { g with depth := g.depth + 1, highest := max g.highest (g.depth + 1) }

theorem enter_of_lt {g : Gauged} (h : g.depth < g.limit) : enter g = .ok () g.entered :=
  if_neg (Nat.not_le.mpr h)

theorem enter_of_le {g : Gauged} (h : g.limit ≤ g.depth) :
    enter g = .error (.tooDeep g.depth g.limit)
      { g with reader := g.reader.record (.tooDeep g.depth g.limit) } :=
  if_pos h

section Turning

variable {depth limit : Nat} {rule : GaugedM α} {plain : ReadM α}

/-- **One level deeper**: the gauge is turned back in whatever way the rule inside has ended. -/
theorem Agrees.nested (h : Agrees (depth + 1) limit rule plain) (hroom : depth < limit) :
    Agrees depth limit (Gauged.nested rule) plain where
  steady := h.steady
  shows g hdepth hlimit := by
    subst hdepth
    have hinside := h.shows g.entered rfl hlimit
    have hbound : max g.entered.highest limit = max g.highest limit := by
      rw [entered, Nat.max_assoc, Nat.max_eq_right (Nat.succ_le_of_lt hroom)]
    rw [hbound] at hinside
    have hplain : plain g.reader = plain g.entered.reader := rfl
    simp only [Gauged.nested, Bind.bind, EStateM.bind, enter_of_lt (hlimit ▸ hroom), hplain]
    generalize rule g.entered = x at hinside
    generalize plain g.entered.reader = y at hinside
    cases hinside with
    | @ok a g₁ hdepth₁ hhighest₁ =>
      exact .ok (g := g₁.leave) (Nat.sub_eq_of_eq_add hdepth₁) hhighest₁
    | @error f g₁ hdepth₁ hhighest₁ =>
      exact .error (g := g₁.leave) (Nat.sub_eq_of_eq_add hdepth₁) hhighest₁

/-- **At the limit** a bracket is refused, whatever would be read inside. -/
theorem agrees_nested_at_limit (rule : GaugedM (List Form)) :
    Agrees limit limit (nested rule) Reader.refuseNesting where
  steady := Reader.steady_refuseNesting
  shows g hdepth hlimit := by
    have hrefused : nested rule g = .error (.tooDeep limit limit)
        { g with reader := g.reader.record (.tooDeep limit limit) } := by
      have hfull : g.limit ≤ g.depth := Nat.le_of_eq (hlimit.trans hdepth.symm)
      simp only [nested, bind, EStateM.bind, enter_of_le hfull, hdepth, hlimit]
    have hplain : Reader.refuseNesting g.reader =
        .error (.tooDeep limit limit) (g.reader.record (.tooDeep limit limit)) := by
      rw [← hlimit]
      rfl
    rw [hrefused, hplain]
    exact .error (g := { g with reader := g.reader.record (.tooDeep limit limit) }) hdepth
      (Nat.le_max_left _ _)

end Turning

/-! ### Forms -/

section Forms

variable {depth limit : Nat} {form : GaugedM Form} {plain : ReadM Form}

theorem agrees_push (forms : Scratch Form) (form : Form) :
    Agrees depth limit (push forms form) (Reader.push forms form) :=
  .lift (Reader.steady_push forms form)

theorem agrees_link (forms : Scratch Form) :
    Agrees depth limit (lift (Reader.link forms)) (Reader.link forms) :=
  .lift (Reader.steady_link forms)

theorem agrees_items (h : Agrees depth limit form plain) :
    Agrees depth limit (items form) (Reader.items plain) := by
  have hlinked : Agrees depth limit (linkedItems form) (Reader.linkedItems plain) :=
    h.bind fun _ => (agrees_push _ _).bind fun forms =>
      (h.attempt.gather agrees_push forms).bind agrees_link
  exact hlinked.bind fun _ => .lift (Reader.steady_found _)

theorem agrees_optionalItems (h : Agrees depth limit form plain) :
    Agrees depth limit (optionalItems form) (Reader.optionalItems plain) :=
  (agrees_items h).attempt.bind fun _ => .pure _

theorem agrees_element {inside : ReadM (List Form)}
    (h : Agrees depth limit (nested (optionalItems form)) inside) :
    Agrees depth limit (element form) (Reader.element inside) := by
  refine (Agrees.lift Reader.steady_atom).attempt.bind fun a? => ?_
  rcases a? with _ | a
  · exact (Agrees.lift Reader.steady_blanks).bind fun _ =>
      (Agrees.lift Reader.steady_openBracket).bind fun bracket => h.bind fun _ =>
        (Agrees.lift (Reader.steady_closeBracket bracket)).bind fun _ => .pure _
  · exact .pure _

/-- **Forms are read alike**, if what the gauge shows and the room make up the limit. A budget
that covers the room is never spent. -/
theorem agrees_form {room budget : Nat} (hroom : depth + room = limit) (hbudget : room ≤ budget) :
    Agrees depth limit (Gauged.form budget) (Reader.form room) := by
  induction room generalizing depth budget with
  | zero =>
    -- the gauge is at the limit
    obtain rfl : depth = limit := hroom
    rcases budget with _ | budget
    · exact agrees_element (agrees_nested_at_limit _)
    · exact agrees_element (agrees_nested_at_limit _)
  | succ room ih =>
    obtain ⟨budget, rfl⟩ := Nat.exists_eq_succ_of_ne_zero (Nat.ne_of_gt (Nat.lt_of_lt_of_le
      (Nat.succ_pos room) hbudget))
    have hform : Agrees (depth + 1) limit (Gauged.form budget) (Reader.form room) :=
      ih (by omega) (by omega)
    exact agrees_element ((agrees_optionalItems hform).nested (by omega))

end Forms

/-! ### Sources -/

section Sources

variable {limit : Nat}

/-- What looks at the limit agrees if it agrees for the limit that there is. -/
theorem Agrees.of_limit {depth : Nat} (rule : Nat → GaugedM α) (plain : Nat → ReadM α)
    (hsteady : ∀ n, Steady (plain n)) (h : Agrees depth limit (rule limit) (plain limit)) :
    Agrees depth limit (do rule (← get).limit) (do plain (← get).config.maxDepth) where
  steady := Reader.steady_get.bind fun s => hsteady s.config.maxDepth
  shows g hdepth hlimit := by
    have hlooked := h.shows g hdepth hlimit
    rw [← hlimit] at hlooked ⊢
    exact hlooked

/-- **One form**, which is read with the gauge at nothing. -/
theorem agrees_one : Agrees 0 limit one Reader.one := by
  refine Agrees.of_limit (fun n => attempt (form n) >>= fun t? => lift (Reader.found t?))
    (fun n => Reader.attempt (Reader.form n) >>= Reader.found) (fun n => ?_) ?_
  · exact (Reader.steady_form n).attempt.bind Reader.steady_found
  · exact (agrees_form (Nat.zero_add limit) (Nat.le_refl limit)).attempt.bind fun t? =>
      .lift (Reader.steady_found t?)

theorem agrees_whole : Agrees 0 limit whole Reader.whole :=
  agrees_one.bind fun _ => (Agrees.lift Reader.steady_finish).bind fun _ => .pure _

theorem agrees_oneMore : Agrees 0 limit oneMore Reader.oneMore where
  steady := Reader.steady_oneMore
  shows g hdepth hlimit := by
    have hone : Agrees 0 limit (one >>= fun t => pure (some t))
        (Reader.one >>= fun t => pure (some t)) := agrees_one.bind fun _ => .pure _
    have hgauged : oneMore g = (if g.reader.cursor.onlyBlanksLeft then pure none
        else one >>= fun t => pure (some t) : GaugedM (Option Form)) g := rfl
    have hplain : Reader.oneMore g.reader = (if g.reader.cursor.onlyBlanksLeft then pure none
        else Reader.one >>= fun t => pure (some t) : ReadM (Option Form)) g.reader := rfl
    rw [hgauged, hplain]
    split
    · exact .ok hdepth (Nat.le_max_left _ _)
    · exact hone.shows g hdepth hlimit

theorem agrees_all : Agrees 0 limit all Reader.all :=
  (agrees_oneMore.gather agrees_push _).bind agrees_link

end Sources

/-! ### Sessions -/

/-- **At rest**: a gauged reader does what a reader does, and the gauge shows nothing behind
it. -/
structure AtRest {ρ : Type} (x : ρ × Gauged) (y : ρ × Reader) : Prop where
  result : x.1 = y.1
  reader : x.2.reader = y.2
  depth : x.2.depth = 0

section Sessions

theorem next_at_rest {g : Gauged} (h : g.depth = 0) : AtRest g.next g.reader.next := by
  rw [next, Reader.next]
  split
  · exact ⟨rfl, rfl, h⟩
  · have hone := agrees_one.shows g h rfl
    generalize one g = x at hone
    generalize Reader.one g.reader = y at hone
    cases hone with
    | ok hdepth _ => exact ⟨rfl, rfl, hdepth⟩
    | error hdepth _ => exact ⟨rfl, rfl, hdepth⟩

theorem collect_at_rest {g : Gauged} (h : g.depth = 0) : AtRest g.collect g.reader.collect := by
  induction hn : g.reader.cursor.left using Nat.strongRecOn generalizing g with
  | ind n ih =>
    subst hn
    have hnext := next_at_rest h
    rw [collect, Reader.collect]
    generalize g.next = x at hnext
    generalize g.reader.next = y at hnext
    obtain ⟨result, g₁⟩ := x
    obtain ⟨_, _⟩ := y
    obtain ⟨rfl, rfl, hdepth⟩ := hnext
    rcases result with _ | (f | t)
    · exact ⟨rfl, rfl, hdepth⟩
    · exact ⟨rfl, rfl, hdepth⟩
    · dsimp only
      split
      · next hlt =>
        have hrest := ih _ hlt hdepth rfl
        exact ⟨congrArg (_ :: ·) hrest.result, hrest.reader, hrest.depth⟩
      · exact ⟨rfl, rfl, hdepth⟩

theorem answer_at_rest {rule : GaugedM α} {plain : ReadM α} {g : Gauged} {bound : Nat}
    (h : Shows 0 bound (rule g) (plain g.reader)) (wrap : Except Failure α → Answer) :
    AtRest (g.answer rule wrap) (g.reader.answer plain wrap) := by
  rw [answer, Reader.answer, Reader.run]
  generalize rule g = x at h
  generalize plain g.reader = y at h
  cases h with
  | ok hdepth _ => exact ⟨rfl, rfl, hdepth⟩
  | error hdepth _ => exact ⟨rfl, rfl, hdepth⟩

theorem highest_answer_le {rule : GaugedM α} {plain : ReadM α} {g : Gauged} {depth bound : Nat}
    (h : Shows depth bound (rule g) (plain g.reader)) (wrap : Except Failure α → Answer) :
    (g.answer rule wrap).2.highest ≤ bound := by
  rw [answer]
  generalize rule g = x at h
  generalize plain g.reader = y at h
  cases h with
  | ok _ hhighest => exact hhighest
  | error _ hhighest => exact hhighest

/-- The gauge is not touched by an attempt as such. -/
theorem shows_attempt {x : EStateM.Result Failure Gauged α} {y : EStateM.Result Failure Reader α}
    {bound : Nat} (h : Shows 0 bound x y) (g : Gauged) :
    Shows 0 bound (attempt (fun _ => x) g) (Reader.attempt (fun _ => y) g.reader) := by
  cases h with
  | ok hdepth hhighest => exact .ok hdepth hhighest
  | @error f g₁ hdepth hhighest =>
    cases f with
    | noMatch =>
      exact .ok (g := { g₁ with reader := g₁.reader.rewind g.reader.cursor }) hdepth hhighest
    | exhausted _ => exact .error hdepth hhighest
    | tooDeep _ _ => exact .error hdepth hhighest
    | outOfRange => exact .error hdepth hhighest

mutual

/-- **Every action leaves the gauge at rest**, whatever comes of it. -/
theorem perform_at_rest : ∀ {g : Gauged}, g.depth = 0 → ∀ action : Action,
    AtRest (g.perform action) (g.reader.perform action)
  | g, h, .one => by
    rw [perform, Reader.perform]
    exact answer_at_rest (agrees_one.shows g h rfl) _
  | g, h, .whole => by
    rw [perform, Reader.perform]
    exact answer_at_rest (agrees_whole.shows g h rfl) _
  | g, h, .all => by
    rw [perform, Reader.perform]
    exact answer_at_rest (agrees_all.shows g h rfl) _
  | g, h, .finish => by
    rw [perform, Reader.perform]
    exact answer_at_rest ((Agrees.lift Reader.steady_finish).shows g h rfl) _
  | g, h, .next => by
    rw [perform, Reader.perform]
    have hnext := next_at_rest h
    exact ⟨congrArg _ hnext.result, hnext.reader, hnext.depth⟩
  | g, h, .collect => by
    rw [perform, Reader.perform]
    have hcollect := collect_at_rest h
    exact ⟨congrArg _ hcollect.result, hcollect.reader, hcollect.depth⟩
  | g, h, .attempt rule => by
    rw [perform, Reader.perform]
    obtain ⟨hreports, bound, hresult⟩ := follow_at_rest h rule
    dsimp only
    rw [hreports]
    exact answer_at_rest (shows_attempt hresult g) _

/-- Following a rule made of actions leaves the gauge at rest. -/
theorem follow_at_rest : ∀ {g : Gauged}, g.depth = 0 → ∀ rule : Rule,
    (g.follow rule).1 = (g.reader.follow rule).1 ∧
      ∃ bound, Shows 0 bound (g.follow rule).2 (g.reader.follow rule).2
  | g, h, .done .none => by
    rw [follow, Reader.follow]
    exact ⟨rfl, g.highest, .ok h (Nat.le_refl _)⟩
  | g, h, .done (some f) => by
    rw [follow, Reader.follow]
    exact ⟨rfl, g.highest, .error h (Nat.le_refl _)⟩
  | g, h, .step action keepGoing rest => by
    have haction := perform_at_rest h action
    rw [follow, Reader.follow]
    generalize g.perform action = x at haction
    generalize g.reader.perform action = y at haction
    obtain ⟨answer, g₁⟩ := x
    obtain ⟨_, _⟩ := y
    obtain ⟨rfl, rfl, hdepth⟩ := haction
    have hrest := follow_at_rest hdepth rest
    -- unless the action failed, and the rule gives up for that, it goes on
    dsimp only at hdepth hrest ⊢
    rcases answer.failure? with _ | f
    · exact ⟨congrArg (_ :: ·) hrest.1, hrest.2⟩
    · cases keepGoing with
      | false => exact ⟨rfl, g₁.highest, .error hdepth (Nat.le_refl _)⟩
      | true => exact ⟨congrArg (_ :: ·) hrest.1, hrest.2⟩

end

theorem take_at_rest {g : Gauged} (h : g.depth = 0) (step : Step) :
    AtRest (g.take step) (g.reader.take step) := by
  cases step with
  | act action => exact perform_at_rest h action
  | setMaxDepth maxDepth => exact ⟨rfl, rfl, h⟩
  | setConfig config => exact ⟨rfl, rfl, h⟩

/-- **A session** is the same with a gauge, and leaves it at rest. -/
theorem session_at_rest {g : Gauged} (h : g.depth = 0) (steps : List Step) :
    AtRest (g.session steps) (g.reader.session steps) := by
  induction steps generalizing g with
  | nil => exact ⟨rfl, rfl, h⟩
  | cons step steps ih =>
    have hstep := take_at_rest h step
    rw [session, Reader.session]
    generalize g.take step = x at hstep
    generalize g.reader.take step = y at hstep
    obtain ⟨answer, g₁⟩ := x
    obtain ⟨_, _⟩ := y
    obtain ⟨rfl, rfl, hdepth⟩ := hstep
    have hrest := ih hdepth
    exact ⟨congrArg (_ :: ·) hrest.result, hrest.reader, hrest.depth⟩

end Sessions

end Gauged

end FormReader
