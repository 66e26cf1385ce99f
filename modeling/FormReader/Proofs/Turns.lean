import FormReader.Proofs.Iteration
import FormReader.Proofs.Actions
import FormReader.Proofs.Unseen
import FormReader.Turns

/-!
# Iteration halts once and for good

A session mixes iteration with all else that a reader can do. It may ask for the next form in a
rule that comes to nothing, after which the cursor is back where it was, and it may go on after
other failures. Still the iteration goes through the session as if it were alone: it hands out one
failure at most, nothing after it, and before it whatever a single form comes to at the cursor
(`FormReader.Reader.session_iterates_once`).

All of this follows from how a turn finds the reader. It finds the iteration halted exactly if one
of the turns before it has handed out a failure (`FormReader.Reader.InOrder`), which is shown for
one action after another. Actions in between do not matter, since they overlook whether it has
halted (`FormReader.Reader.take_withHalted`), and neither does going back, which moves the cursor
and nothing else.
-/

namespace FormReader

namespace Reader

variable {s t : Reader} {turns turns' : List Reader} {a b c : Bool}

/-! ### A single turn -/

/-- **What is handed out**: nothing once the iteration has halted or only blanks are left, and
otherwise what reading one form comes to. -/
theorem next_eq_ite (s : Reader) :
    s.next =
      if s.halted ∨ s.cursor.onlyBlanksLeft then (none, s)
      else (some (s.run one).result,
        { (s.run one).reader with halted := !isOk (s.run one).result }) := by
  rcases hhalted : s.halted with _ | _
  · rw [next_of_not_halted hhalted]
    simp only [Bool.false_eq_true, false_or]
  · rw [next, if_pos (Or.inl hhalted), if_pos (Or.inl rfl)]

theorem handsFailure_of_halted (h : s.halted = true) : s.handsFailure = false := by
  rw [handsFailure, next_eq_ite, if_pos (Or.inl h)]
  rfl

/-- **A turn leaves the iteration halted** if it was before or if a failure is handed out. -/
theorem halted_next (s : Reader) : s.next.2.halted = (s.halted || s.handsFailure) := by
  rw [handsFailure, next_eq_ite]
  split
  · exact (Bool.or_false _).symm
  · next hgo =>
    have hhalted : s.halted = false := Bool.eq_false_iff.mpr fun h => hgo (Or.inl h)
    rw [hhalted]
    rcases (s.run one).result with f | form
    · rfl
    · rfl

/-! ### One turn after another -/

/-- **Turns in order**: each finds the iteration as halted as those before it have left it. The
two ends say whether it has halted before the first turn and behind the last. -/
inductive InOrder : Bool → List Reader → Bool → Prop
  /-- Where no turn is taken nothing changes. -/
  | nil {a : Bool} : InOrder a [] a
  /-- A turn comes before those that go on from it. -/
  | cons {t : Reader} {turns : List Reader} {b : Bool} :
    InOrder (t.halted || t.handsFailure) turns b → InOrder t.halted (t :: turns) b

theorem InOrder.append (h : InOrder a turns b) (h' : InOrder b turns' c) :
    InOrder a (turns ++ turns') c := by
  induction h with
  | nil => exact h'
  | cons _ ih => exact .cons (ih h')

/-- **Behind the turns** the iteration has halted if it had before, or if one of them has handed
out a failure. -/
theorem InOrder.behind (h : InOrder a turns b) : b = (a || turns.any handsFailure) := by
  induction h with
  | nil => exact (Bool.or_false _).symm
  | cons _ ih => rw [ih, List.any_cons, Bool.or_assoc]

/-- **A turn finds the iteration** halted if it was before, or if an earlier turn has handed out
a failure. -/
theorem InOrder.halted {earlier later : List Reader} (h : InOrder a (earlier ++ t :: later) b) :
    t.halted = (a || earlier.any handsFailure) := by
  induction earlier generalizing a with
  | nil =>
    cases h with
    | cons _ => exact (Bool.or_false _).symm
  | cons u earlier ih =>
    cases h with
    | cons hrest => rw [ih hrest, List.any_cons, Bool.or_assoc]

/-- **As many failures are handed out** as the iteration halts, which is once at most. -/
theorem InOrder.countP_handsFailure (h : InOrder a turns b) :
    turns.countP handsFailure + a.toNat = b.toNat := by
  induction h with
  | nil => exact Nat.zero_add _
  | @cons t turns b _ ih =>
    rw [List.countP_cons, ← ih]
    rcases hhalted : t.halted with _ | _
    · rcases t.handsFailure with _ | _
      · rfl
      · rfl
    · rw [handsFailure_of_halted hhalted]
      rfl

/-! ### The turns of actions -/

/-- **Taking turns**: from one reader to another some turns are taken in order, and their results
are handed out. -/
structure TakesTurns (s : Reader) (turns : List Reader)
    (results : List (Option (Except Failure Form))) (s' : Reader) : Prop where
  results : results = turns.map (·.next.1)
  inOrder : InOrder s.halted turns s'.halted

section TakesTurns

variable {s' s'' : Reader} {results results' : List (Option (Except Failure Form))}

theorem TakesTurns.append (h : TakesTurns s turns results s')
    (h' : TakesTurns s' turns' results' s'') :
    TakesTurns s (turns ++ turns') (results ++ results') s'' := by
  refine ⟨?_, h.inOrder.append h'.inOrder⟩
  rw [h.results, h'.results, List.map_append]

/-- What does not change whether the iteration has halted takes no turn. -/
theorem takesTurns_nil (h : s'.halted = s.halted) : TakesTurns s [] [] s' :=
  ⟨rfl, h ▸ .nil⟩

/-- Putting the cursor back does not take the turns back. -/
theorem TakesTurns.rewind (h : TakesTurns s turns results s') (cursor : Cursor) :
    TakesTurns s turns results (s'.rewind cursor) := ⟨h.results, h.inOrder⟩

theorem takesTurns_next (s : Reader) : TakesTurns s [s] [s.next.1] s.next.2 := by
  refine ⟨rfl, ?_⟩
  rw [halted_next]
  exact .cons .nil

/-- The turn in which there is no more. -/
theorem takesTurns_over (h : s.next = (none, s')) : TakesTurns s [s] [none] s' := by
  have hturn := takesTurns_next s
  rwa [h] at hturn

theorem TakesTurns.item {result : Except Failure Form} (h : s.next = (some result, s'))
    (h' : TakesTurns s' turns results s'') :
    TakesTurns s (s :: turns) (some result :: results) s'' := by
  have hturn := takesTurns_next s
  rw [h] at hturn
  exact hturn.append h'

end TakesTurns

theorem collectTurns_of_none {s' : Reader} (h : s.next = (none, s')) : s.collectTurns = [s] := by
  rw [collectTurns, h]

/-- Behind a failure there is one more turn, which hands out nothing. -/
theorem collectTurns_of_error {s' : Reader} {f : Failure} (h : s.next = (some (.error f), s')) :
    s.collectTurns = [s, s'] := by
  rw [collectTurns, h]
  dsimp only
  rw [collectTurns_of_none (next_of_next_error h)]
  split
  · rfl
  · rfl

theorem collectTurns_of_ok {s' : Reader} {form : Form} (h : s.next = (some (.ok form), s')) :
    s.collectTurns = s :: s'.collectTurns := by
  rw [collectTurns, h]
  exact if_pos (reads_next h).1.left_lt

/-- **Collecting** takes turns until there is no more. -/
theorem takesTurns_collect (s : Reader) :
    TakesTurns s s.collectTurns (s.collect.1.map some ++ [none]) s.collect.2 := by
  induction s using collect.induct with
  | case1 s s' hnext =>
    rw [collectTurns_of_none hnext, collect, hnext]
    exact takesTurns_over hnext
  | case2 s f s' hnext =>
    rw [collectTurns_of_error hnext, collect, hnext]
    exact .item hnext (takesTurns_over (next_of_next_error hnext))
  | case3 s form s' hnext hlt results s'' hresults ih =>
    rw [collectTurns_of_ok hnext, collect, hnext]
    simp only [hlt, ↓reduceIte]
    exact .item hnext ih
  | case4 s form s' hnext hstop =>
    -- a form takes at least one byte
    exact absurd (reads_next hnext).1.left_lt hstop

theorem takesTurns_answer {α : Type} {rule : ReadM α} (h : Steady rule) (s : Reader)
    (wrap : Except Failure α → Answer) : TakesTurns s [] [] (s.answer rule wrap).2 :=
  takesTurns_nil (h.follows_run s).halted

/-- A rule that is done has nothing to report. -/
theorem reports_done (s : Reader) (ending : Option Failure) : (s.follow (.done ending)).1 = [] := by
  cases ending with
  | none => rw [follow]
  | some f => rw [follow]

mutual

/-- **An action** takes turns. -/
theorem takesTurns_perform : ∀ (s : Reader) (action : Action),
    TakesTurns s (s.performTurns action) (s.perform action).1.handedOut (s.perform action).2
  | s, .one => by
    rw [performTurns, perform]
    exact takesTurns_answer steady_one s _
  | s, .whole => by
    rw [performTurns, perform]
    exact takesTurns_answer steady_whole s _
  | s, .all => by
    rw [performTurns, perform]
    exact takesTurns_answer steady_all s _
  | s, .finish => by
    rw [performTurns, perform]
    exact takesTurns_answer steady_finish s _
  | s, .next => by
    rw [performTurns, perform]
    exact takesTurns_next s
  | s, .collect => by
    rw [performTurns, perform]
    exact takesTurns_collect s
  | s, .attempt rule => by
    have hcame := takesTurns_came s rule
    rw [performTurns, perform_attempt]
    generalize s.came rule = outcome at hcame ⊢
    rcases outcome with ⟨f | _, s'⟩
    · dsimp only
      split
      · exact hcame.rewind s.cursor
      · exact hcame
    · exact hcame

/-- **A rule made of actions** takes the turns of its actions. -/
theorem takesTurns_came : ∀ (s : Reader) (rule : Rule),
    TakesTurns s (s.followTurns rule) (handedOutIn (s.follow rule).1) (s.came rule).reader
  | s, .done ending => by
    rw [came_done, followTurns, reports_done]
    exact takesTurns_nil rfl
  | s, .step action keepGoing rest => by
    have haction := takesTurns_perform s action
    have hrest := takesTurns_came (s.perform action).2 rest
    rw [came_step, follow_step, followTurns_step, handedOutIn]
    refine haction.append ?_
    rcases (s.perform action).1.failure? with _ | f
    · exact hrest
    · cases keepGoing with
      | false => exact takesTurns_nil rfl
      | true => exact hrest

end

/-! ### The turns of sessions -/

theorem takesTurns_take (s : Reader) (step : Step) :
    TakesTurns s (s.takeTurns step) (s.take step).1.handedOut (s.take step).2 := by
  cases step with
  | act action => exact takesTurns_perform s action
  | setMaxDepth maxDepth => exact takesTurns_nil rfl
  | setConfig config => exact takesTurns_nil rfl

/-- **A session** takes the turns of its steps. -/
theorem takesTurns_session (s : Reader) (steps : List Step) :
    TakesTurns s (s.turns steps) (handedOutIn (s.session steps).1) (s.session steps).2 := by
  induction steps generalizing s with
  | nil => exact takesTurns_nil rfl
  | cons step steps ih => exact (takesTurns_take s step).append (ih _)

/-! ### Actions without a turn -/

theorem collectTurns_ne_nil (s : Reader) : s.collectTurns ≠ [] := by
  rw [collectTurns]
  split
  · exact List.cons_ne_nil _ _
  · split
    · exact List.cons_ne_nil _ _
    · exact List.cons_ne_nil _ _

/-- **The same reader**, except that its iteration has halted or has not. -/
def withHalted (s : Reader) (halted : Bool) : Reader := { s with halted }

theorem irrelevant_withHalted (halted : Bool) : Irrelevant (·.withHalted halted) where
  cursor _ := rfl
  config _ := rfl
  move _ _ := rfl
  record _ _ := rfl
  arena _ := rfl
  request _ _ := rfl

theorem answer_withHalted {α : Type} {rule : ReadM α} {halted : Bool}
    (h : Overlooks (·.withHalted halted) rule) (s : Reader) (wrap : Except Failure α → Answer) :
    (s.withHalted halted).answer rule wrap =
      ((s.answer rule wrap).1, (s.answer rule wrap).2.withHalted halted) := by
  rw [answer, answer, h s]
  rfl

mutual

/-- **An action that takes no turn** overlooks whether the iteration has halted. -/
theorem perform_withHalted : ∀ (s : Reader) (action : Action) (halted : Bool),
    s.performTurns action = [] →
    (s.withHalted halted).perform action =
      ((s.perform action).1, (s.perform action).2.withHalted halted)
  | s, .one, halted, _ => by
    rw [perform, perform]
    exact answer_withHalted (overlooks_one (irrelevant_withHalted halted)) s _
  | s, .whole, halted, _ => by
    rw [perform, perform]
    exact answer_withHalted (overlooks_whole (irrelevant_withHalted halted)) s _
  | s, .all, halted, _ => by
    rw [perform, perform]
    exact answer_withHalted (overlooks_all (irrelevant_withHalted halted)) s _
  | s, .finish, halted, _ => by
    rw [perform, perform]
    exact answer_withHalted (overlooks_finish (irrelevant_withHalted halted).toUnseen) s _
  | s, .next, _, h => by
    rw [performTurns] at h
    cases h
  | s, .collect, _, h => by
    rw [performTurns] at h
    exact absurd h s.collectTurns_ne_nil
  | s, .attempt rule, halted, h => by
    rw [performTurns] at h
    obtain ⟨hreports, hcame⟩ := follow_withHalted s rule halted h
    rw [perform_attempt, perform_attempt, hreports, hcame]
    generalize s.came rule = outcome
    rcases outcome with ⟨f | _, s'⟩
    · change (if f = .noMatch then _ else _) = ((if f = .noMatch then _ else _ : Answer × Reader).1,
        (if f = .noMatch then _ else _ : Answer × Reader).2.withHalted halted)
      split
      · rfl
      · rfl
    · rfl

theorem follow_withHalted : ∀ (s : Reader) (rule : Rule) (halted : Bool),
    s.followTurns rule = [] →
    ((s.withHalted halted).follow rule).1 = (s.follow rule).1 ∧
      (s.withHalted halted).came rule = (s.came rule).changed (·.withHalted halted)
  | s, .done ending, halted, _ => by
    refine ⟨by rw [reports_done, reports_done], ?_⟩
    rw [came, came]
    cases ending with
    | none =>
      rw [follow, follow]
      rfl
    | some f =>
      rw [follow, follow]
      rfl
  | s, .step action keepGoing rest, halted, h => by
    rw [followTurns_step, List.append_eq_nil_iff] at h
    obtain ⟨hturns, hturns'⟩ := h
    have hrest := follow_withHalted (s.perform action).2 rest halted
    rw [follow_step, follow_step, came_step, came_step,
      perform_withHalted s action halted hturns]
    -- whether the rule goes on depends on the answer, which is the same
    revert hturns'
    rcases (s.perform action).1.failure? with _ | f
    · intro hturns'
      obtain ⟨hreports, hcame⟩ := hrest hturns'
      exact ⟨congrArg (_ :: ·) hreports, hcame⟩
    · cases keepGoing with
      | false => exact fun _ => ⟨rfl, rfl⟩
      | true =>
        intro hturns'
        obtain ⟨hreports, hcame⟩ := hrest hturns'
        exact ⟨congrArg (_ :: ·) hreports, hcame⟩

end

/-- **A step that takes no turn** answers the same whether the iteration has halted or not. -/
theorem take_withHalted (s : Reader) (step : Step) (halted : Bool) (h : s.takeTurns step = []) :
    (s.withHalted halted).take step = ((s.take step).1, (s.take step).2.withHalted halted) := by
  cases step with
  | act action => exact perform_withHalted s action halted h
  | setMaxDepth maxDepth => rfl
  | setConfig config => rfl

/-! ### Iteration in a session -/

/-- **Iteration halts for good after its first failure, and only then.** In a session on any
source, whatever its steps, the results that are reported are those of its turns. At most one of
them is a failure. In every turn after the failure there is no more, and the reader stays as it
is; in any other turn there is no more exactly if only blanks are left, and what is handed out is
what reading one form comes to there. A step leaves the iteration halted only if it was halted
before or if a turn of it hands out a failure, so no other failure halts it. And whether it has
halted does not matter to a step that takes no turn. -/
theorem session_iterates_once (source : List Byte) (arena : Arena) (steps : List Step) :
    let turns := (ofBytes source arena).turns steps
    let ended := (ofBytes source arena).session steps
    handedOutIn ended.1 = turns.map (·.next.1) ∧
    (handedOutIn ended.1).countP isFailure ≤ 1 ∧
    (∀ (earlier : List Reader) (t : Reader) (later : List Reader),
      turns = earlier ++ t :: later →
      t.next =
        if earlier.any handsFailure ∨ t.cursor.onlyBlanksLeft then (none, t)
        else (some (t.run one).result,
          { (t.run one).reader with halted := !isOk (t.run one).result })) ∧
    ended.2.halted = turns.any handsFailure ∧
    ∀ (t : Reader) (step : Step),
      (t.take step).2.halted = (t.halted || (t.takeTurns step).any handsFailure) ∧
      (t.takeTurns step = [] → ∀ halted : Bool,
        ({ t with halted } : Reader).take step =
          ((t.take step).1, { (t.take step).2 with halted })) := by
  intro turns ended
  obtain ⟨hresults, hinOrder⟩ := takesTurns_session (ofBytes source arena) steps
  refine ⟨hresults, ?_, ?_, ?_, fun t step => ⟨?_, fun hturns halted => ?_⟩⟩
  · have hcount := hinOrder.countP_handsFailure
    have hcountP : (handedOutIn ended.1).countP isFailure = turns.countP handsFailure := by
      rw [hresults, List.countP_map]
      rfl
    have hhalted : ended.2.halted.toNat ≤ 1 := Bool.toNat_le _
    rw [hcountP]
    change turns.countP handsFailure + 0 = ended.2.halted.toNat at hcount
    omega
  · intro earlier t later hturns
    change InOrder false turns _ at hinOrder
    rw [hturns] at hinOrder
    rw [next_eq_ite, hinOrder.halted, Bool.false_or]
  · exact hinOrder.behind
  · exact (takesTurns_take t step).inOrder.behind
  · exact take_withHalted t step halted hturns

/-- An attempt iterates over a symbol and up to a stray bracket, and is given up. The symbol lies
ahead again, and is not handed out any more, but read as before. -/
theorem session_iterates_once_given_up :
    let start := ofBytes (Text.bytes "a)")
    let rule : Rule := .step .next true (.step .next true (.done (some .noMatch)))
    let back := (start.perform (.attempt rule)).2
    start.turns [.act (.attempt rule), .act .next] = [start, start.next.2] ++ back :: [] ∧
      [start, start.next.2].map (·.next.1) =
        [some (.ok (.atom (.symbol "a"))), some (.error .noMatch)] ∧
      [start, start.next.2].any handsFailure = true ∧ back.next = (none, back) ∧
      back.takeTurns (.act .one) = [] ∧
      (({ back with halted := false } : Reader).take (.act .one)).1 =
        (back.take (.act .one)).1 := by
  have hturns : (ofBytes (Text.bytes "a)")).turns
      [.act (.attempt (.step .next true (.step .next true (.done (some .noMatch))))), .act .next] =
        [ofBytes (Text.bytes "a)"), (ofBytes (Text.bytes "a)")).next.2] ++
          ((ofBytes (Text.bytes "a)")).perform
            (.attempt (.step .next true (.step .next true (.done (some .noMatch)))))).2 :: [] := by
    rfl
  have hresults : [ofBytes (Text.bytes "a)"), (ofBytes (Text.bytes "a)")).next.2].map (·.next.1) =
      [some (.ok (.atom (.symbol "a"))), some (.error .noMatch)] := by rfl
  have hfails : [ofBytes (Text.bytes "a)"), (ofBytes (Text.bytes "a)")).next.2].any
      handsFailure = true := by rfl
  intro start rule back
  obtain ⟨-, -, hnext, -, hothers⟩ := session_iterates_once (Text.bytes "a)") {}
    [.act (.attempt rule), .act .next]
  have hback := hnext [start, start.next.2] back [] hturns
  rw [if_pos (Or.inl hfails)] at hback
  have hone := (hothers back (.act .one)).2 rfl false
  exact ⟨hturns, hresults, hfails, hback, rfl, (Prod.ext_iff.mp hone).1⟩

end Reader

end FormReader
