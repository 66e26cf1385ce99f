import FormReader.Proofs.Actions
import FormReader.Proofs.Commuting
import FormReader.Proofs.Exhaustion

/-!
# Layout does not matter

Whatever a session does, it does the same on a source in another layout
(`FormReader.Relayout.session_of_relayout`). All its answers are the same but for the text of
strings, which is the one place where the bytes of blanks and brackets are kept; and the same are
the positions, the failures, what is asked of the arena, and the record but for the brackets named
in it. The source need not be laid out properly for this, since nothing of it is used: an action
commutes with a relayout because the rules do, and a session is a sequence of actions.
-/

namespace FormReader

namespace Relayout

variable {k : Relayout}

/-! ### Sessions -/

theorem next_reader (s : Reader) :
    (k.reader s).next = (s.next.1.map (Except.map k.form), k.reader s.next.2) := by
  cases hhalted : s.halted with
  | true =>
    have hhalted' : (k.reader s).halted = true := hhalted
    rw [Reader.next, if_pos (Or.inl hhalted'), Reader.next, if_pos (Or.inl hhalted)]
    rfl
  | false =>
    have hhalted' : (k.reader s).halted = false := hhalted
    rw [Reader.next_of_not_halted hhalted', Reader.next_of_not_halted hhalted,
      onlyBlanksLeft_reader, commutes_one s]
    split
    · rfl
    · rcases s.run Reader.one with ⟨f | form, s'⟩
      · rfl
      · rfl

theorem collect_reader (s : Reader) :
    (k.reader s).collect = (s.collect.1.map (Except.map k.form), k.reader s.collect.2) := by
  induction hn : s.cursor.left using Nat.strongRecOn generalizing s with
  | ind n ih =>
    subst hn
    rw [Reader.collect, Reader.collect, next_reader]
    rcases s.next with ⟨_ | (f | form), s'⟩
    · rfl
    · rfl
    · change (if (k.cursor s'.cursor).left < (k.cursor s.cursor).left then _ else _) = _
      rw [left_cursor, left_cursor]
      dsimp only
      split
      · next hlt =>
        rw [ih _ hlt s' rfl]
        rfl
      · rfl

/-- A failure is the same failure before and after. -/
theorem failure?_answer (answer : Answer) : (k.answer answer).failure? = answer.failure? := by
  have hfailure {α α' : Type} (found : α → α') (result : Except Failure α) :
      failureOf? (result.map found) = failureOf? result := by
    rcases result with f | a
    · rfl
    · rfl
  cases answer with
  | form result =>
    rw [Relayout.answer]
    exact hfailure k.form result
  | forms result =>
    rw [Relayout.answer]
    exact hfailure k.forms result
  | finished result => rw [Relayout.answer]
  | item result =>
    rw [Relayout.answer]
    rcases result with _ | result
    · rfl
    · exact hfailure k.form result
  | items results =>
    rw [Relayout.answer, Answer.failure?, Answer.failure?, List.findSome?_map]
    exact congrArg (List.findSome? · results) (funext (hfailure k.form))
  | attempted inner result =>
    rw [Relayout.answer]
    rfl
  | none => rw [Relayout.answer]

theorem report_reader (s : Reader) (answer : Answer) :
    (k.reader s).report (k.answer answer) = k.report (s.report answer) := by
  rw [Reader.report, Reader.report, report]
  rfl

mutual

/-- **An action** does the same, and answers alike. -/
theorem perform_reader : ∀ (s : Reader) (action : Action),
    (k.reader s).perform action = (k.answer (s.perform action).1, k.reader (s.perform action).2)
  | s, .one => by
    rw [Reader.perform, Reader.answer, commutes_one s, Reader.perform, Reader.answer, answer]
    rfl
  | s, .whole => by
    rw [Reader.perform, Reader.answer, commutes_whole s, Reader.perform, Reader.answer, answer]
    rfl
  | s, .all => by
    rw [Reader.perform, Reader.answer, commutes_all s, Reader.perform, Reader.answer, answer]
    rfl
  | s, .finish => by
    rw [Reader.perform, Reader.answer, commutes_finish s, Reader.perform, Reader.answer, answer]
    rcases s.run Reader.finish with ⟨f | _, s'⟩
    · rfl
    · rfl
  | s, .next => by
    rw [Reader.perform, next_reader, Reader.perform, answer]
  | s, .collect => by
    rw [Reader.perform, collect_reader, Reader.perform, answer]
  | s, .attempt rule => by
    obtain ⟨hinner, hcame⟩ := follow_reader s rule
    rw [Reader.perform_attempt, Reader.perform_attempt, hinner, hcame]
    rcases s.came rule with ⟨f | _, s'⟩
    · change (if f = .noMatch then _ else _) = _
      dsimp only
      split
      · rw [answer]
        rfl
      · rw [answer]
    · dsimp only
      rw [answer]
      rfl

/-- **A rule made of actions** comes to the same. -/
theorem follow_reader : ∀ (s : Reader) (rule : Rule),
    ((k.reader s).follow rule).1 = k.reports (s.follow rule).1 ∧
      (k.reader s).came rule = k.outcome id (s.came rule)
  | s, .done ending => by
    rcases ending with _ | f
    · rw [Reader.came, Reader.came, Reader.follow, Reader.follow, reports]
      exact ⟨rfl, rfl⟩
    · rw [Reader.came, Reader.came, Reader.follow, Reader.follow, reports]
      exact ⟨rfl, rfl⟩
  | s, .step action keepGoing rest => by
    obtain ⟨hinner, hcame⟩ := follow_reader (s.perform action).2 rest
    rw [Reader.follow_step, Reader.follow_step, Reader.came_step, Reader.came_step,
      perform_reader s action]
    dsimp only
    rw [failure?_answer, report_reader, reports]
    rcases (s.perform action).1.failure? with _ | f
    · exact ⟨congrArg _ hinner, hcame⟩
    · cases keepGoing with
      | false =>
        rw [reports]
        exact ⟨rfl, rfl⟩
      | true => exact ⟨congrArg _ hinner, hcame⟩

end

theorem take_reader (s : Reader) (step : Step) :
    (k.reader s).take step = (k.answer (s.take step).1, k.reader (s.take step).2) := by
  cases step with
  | act action => exact perform_reader s action
  | setMaxDepth maxDepth =>
    rw [Reader.take, Reader.take, answer]
    rfl
  | setConfig config =>
    rw [Reader.take, Reader.take, answer]
    rfl

/-- **A session** does the same on the changed source. -/
theorem session_reader (s : Reader) (steps : List Step) :
    (k.reader s).session steps = (k.reports (s.session steps).1, k.reader (s.session steps).2) := by
  induction steps generalizing s with
  | nil =>
    rw [Reader.session, Reader.session, reports]
  | cons step steps ih =>
    rw [Reader.session, take_reader, Reader.session]
    dsimp only
    rw [ih, reports, report_reader]

/-! ### Reading a source in another layout -/

theorem positions_event (e : Event) : (k.event e).positions = e.positions := by
  cases e <;> rfl

variable {α α' : Type} {found : α → α'}

/-- **The same in another layout**: what is found is found changed, a failure is the same failure,
and the reader stands at the same position and has recorded as many events, each of which tells of
the same positions. -/
structure Relaid (k : Relayout) (found : α → α') (o : Outcome α) (o' : Outcome α') : Prop where
  result : o'.result = o.result.map found
  pos : o'.reader.pos = o.reader.pos
  events : o'.reader.events = o.reader.events.map k.event
  length : o'.reader.events.length = o.reader.events.length
  positions : o'.reader.events.map Event.positions = o.reader.events.map Event.positions

theorem Commutes.relaid {rule : ReadM α} {rule' : ReadM α'} (h : Commutes k found rule rule')
    (s : Reader) : k.Relaid found (s.run rule) ((k.reader s).run rule') := by
  rw [h s]
  have hevents : (k.reader (s.run rule).reader).events = (s.run rule).reader.events.map k.event :=
    List.map_reverse.symm
  refine ⟨rfl, rfl, hevents, ?_, ?_⟩
  · change (k.reader (s.run rule).reader).events.length = _
    rw [hevents, List.length_map]
  · change (k.reader (s.run rule).reader).events.map Event.positions = _
    rw [hevents, List.map_map]
    exact List.map_congr_left fun e _ => positions_event e

/-- **Layout does not matter**, for any source, any arena and any settings. A relayout of the source
makes a session answer the same, its failures and positions included, up to the bytes of strings;
and behind any session, reading one form, a form and nothing else, or all forms comes to the same
result with the relayout made in its strings, at the same position and with the same number of
events at the same positions. -/
theorem session_of_relayout (k : Relayout) (source : List Byte) (arena : Arena)
    (steps : List Step) :
    let ended := (Reader.ofBytes source arena).session steps
    let relaid := (Reader.ofBytes (source.map k.byte) arena).session steps
    (∀ text, Text.bytes (k.text text) = (Text.bytes text).map k.byte) ∧
    relaid.1 = k.reports ended.1 ∧ relaid.2 = k.reader ended.2 ∧
    k.Relaid k.form (ended.2.run Reader.one) (relaid.2.run Reader.one) ∧
    k.Relaid k.form (ended.2.run Reader.whole) (relaid.2.run Reader.whole) ∧
    k.Relaid k.forms (ended.2.run Reader.all) (relaid.2.run Reader.all) := by
  intro ended relaid
  have hstart : Reader.ofBytes (source.map k.byte) arena =
      k.reader (Reader.ofBytes source arena) := by
    rw [Reader.ofBytes, ← cursor_ofBytes]
    rfl
  have hsession : relaid = (k.reports ended.1, k.reader ended.2) := by
    rw [← session_reader, ← hstart]
  rw [hsession]
  exact ⟨bytes_text, rfl, rfl, commutes_one.relaid _, commutes_whole.relaid _,
    commutes_all.relaid _⟩

/-- The relayout that exchanges the brackets and leaves the blanks alone. -/
def exchange : Relayout where
  byte b :=
    match Bracket.ofOpening? b, Bracket.ofClosing? b with
    | some p, _ => p.other.opening
    | none, some p => p.other.closing
    | none, none => b
  exchanges := true
  byte_of_token b h := by rw [ofOpening?_of_isSeparator h, ofClosing?_of_isSeparator h]
  byte_of_blank b h := by
    rw [Bracket.ofOpening?_of_isBlank h, Bracket.ofClosing?_of_isBlank h]
    exact h
  byte_opening p := by cases p <;> rfl
  byte_closing p := by cases p <;> rfl

/-- A list in square brackets, from one in round brackets. A bracket in a string is another one
afterwards. -/
theorem session_of_relayout_exchange :
    ((Reader.ofBytes (Text.bytes "(a \"[\")")).run Reader.whole).result =
        .ok (.list [.atom (.symbol "a"), .atom (.string "[")]) ∧
      ((Reader.ofBytes (Text.bytes "[a \"(\"]")).run Reader.whole).result =
        .ok (.list [.atom (.symbol "a"), .atom (.string "(")]) := by
  have hround : ((Reader.ofBytes (Text.bytes "(a \"[\")")).run Reader.whole).result =
      .ok (.list [.atom (.symbol "a"), .atom (.string "[")]) := by decide +kernel
  refine ⟨hround, ?_⟩
  obtain ⟨-, -, -, -, hwhole, -⟩ := session_of_relayout exchange (Text.bytes "(a \"[\")") {} []
  have hbytes : (Text.bytes "(a \"[\")").map exchange.byte = Text.bytes "[a \"(\"]" := by
    decide +kernel
  have hresult := hwhole.result
  rw [hbytes] at hresult
  refine hresult.trans ?_
  change Except.map _ ((Reader.ofBytes (Text.bytes "(a \"[\")")).run Reader.whole).result = _
  rw [hround]
  decide +kernel

end Relayout

end FormReader
