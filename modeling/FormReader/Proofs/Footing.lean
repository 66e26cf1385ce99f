import FormReader.Proofs.Actions
import FormReader.Proofs.Ground
import FormReader.Proofs.Plans

/-!
# No session loses its footing

Every ground carries every plan of the grammar, since the moves in it keep their footing wherever
they are made. Three rules ask for something on the way that they may not ask anywhere: a string
is cut out between two positions, a symbol is taken for a text, and what stands in the way of a
closing bracket or of the end of the source is recorded with its position. In each of them the
positions are those of a cursor that was looked at just before.

A session consists of such rules and of going back to where it came from
(`FormReader.Ground.sustains_session`). What it answers is part of the statement: no action tells
of a question that had no answer.
-/

namespace FormReader

namespace Ground

variable {G : Ground}

open Plan

/-! ### Atoms -/

theorem carries_blanks : G.Carries blanks := carries_scan .blanks

/-- Pieces of the source may be taken for a text. -/
theorem carriesAt_text {bytes : List Byte} {s : Reader} (hs : G.Bears s) (hbytes : G.piece bytes) :
    G.CarriesAt (text bytes) s fun _ _ => True :=
  (carriesAt_decode hs hbytes).bind fun _ s' hs' _ => carries_ask _ s' hs'

theorem carries_number : G.Carries number :=
  carries_blanks.bind fun _ => Carries.bind (fun _ hs => (carriesAt_token hs).forget)
    fun _ => carries_found _

theorem carries_boolean : G.Carries boolean := by
  refine carries_blanks.bind fun _ => (carries_scan _).bind fun _ =>
    (carries_scanned _).bind fun value => ?_
  dsimp only
  -- whichever letter was passed, the token has to end behind it
  refine Carries.ite (carries_look.bind fun s => ?_) fun hend => ?_
  · exact (carries_done value).ite fun _ => carries_noMatch
  · exact (carries_scan _).bind fun _ => hend

theorem carries_string : G.Carries string := by
  refine carries_blanks.bind fun _ => (carries_scan _).bind fun _ =>
    (carries_scanned _).bind fun isEmpty => ?_
  split
  · exact carries_done ""
  · refine fun s hs => carriesAt_look_bind hs ?_
    refine (carriesAt_scan .toQuote hs).bind fun _ s₁ hs₁ hle => carriesAt_look_bind hs₁ ?_
    refine (carriesAt_scan .quote hs₁).bind fun _ s₂ hs₂ _ => ?_
    -- the text stands between the two positions at which the reader was looked at
    exact (carriesAt_slice hs₂ hs.cursor.pos hs₁.cursor.pos hle).bind fun _ s₃ hs₃ hpiece =>
      carriesAt_text hs₃ hpiece

-- the text of a string is asked for between its quotes, once the second one was passed
example : ((string.trail (Reader.ofBytes (Text.bytes "\"ab\""))).filter
    (·.request ≠ .nothing)).map (fun m => (m.reader.pos, m.request)) =
      [(4, .slice 1 3), (4, .decode (Text.bytes "ab"))] := by
  decide

theorem carries_symbol : G.Carries symbol := by
  refine carries_blanks.bind fun _ => carries_look.bind fun s => ?_
  have hname : G.Carries (do
      let name ← deed .token
      if name.isEmpty then deed (.fail .noMatch)
      text name) := by
    intro s hs
    refine (carriesAt_token hs).bind fun name s₁ hs₁ hpiece => ?_
    split
    · exact (carries_noMatch s₁ hs₁).bind fun _ s₂ hs₂ _ => carriesAt_text hs₂ hpiece
    · exact carriesAt_text hs₁ hpiece
  exact (carries_noMatch.bind fun _ => hname).ite fun _ => hname

theorem carries_atom : G.Carries atom := by
  refine carries_number.choice (fun _ => carries_done _) ?_
  refine carries_boolean.choice (fun _ => carries_done _) ?_
  refine carries_string.choice (fun _ => carries_done _) ?_
  exact carries_symbol.choice (fun _ => carries_done _) carries_noMatch

/-! ### Forms -/

theorem carries_openBracket : G.Carries openBracket :=
  carries_look.bind fun _ => (carries_found _).bind fun _ =>
    (carries_scan _).bind fun _ => carries_done _

/-- What is recorded of a list that is not closed has the position where it should have been. -/
theorem carries_closeBracket (bracket : Bracket) : G.Carries (closeBracket bracket) := by
  refine (carries_scanned _).bind fun more => ?_
  dsimp only
  refine Carries.ite ((carries_scanned _).bind fun closed => ?_) fun hclose => ?_
  · refine (carries_done _).ite fun _ s hs => carriesAt_look_bind hs ?_
    have hpos {p : Nat} (hp : p ∈ [s.pos]) : G.footing p := by
      rw [List.mem_singleton.mp hp]
      exact hs.cursor.pos
    split
    · exact (carriesAt_observe hs fun _ => hpos).bind fun _ s' hs' _ => carries_noMatch s' hs'
    · exact (carriesAt_observe hs fun _ => hpos).bind fun _ s' hs' _ => carries_noMatch s' hs'
  · exact Carries.bind (fun s hs => carriesAt_observe hs nofun) fun _ =>
      carries_noMatch.bind fun _ => hclose

theorem Carries.bracketed {nested : Plan (List Form)} (h : G.Carries nested) :
    G.Carries (bracketed nested) :=
  carries_blanks.bind fun _ => carries_openBracket.bind fun bracket => h.bind fun _ =>
    (carries_closeBracket bracket).bind fun _ => carries_done _

theorem Carries.optionalItems {form : Plan Form} (h : G.Carries form) :
    G.Carries (optionalItems form) := by
  have hlinked : G.Carries (linkedItems form) :=
    h.bind fun _ => (carries_ask _).bind fun forms =>
      (h.attempt.gather (fun _ _ => carries_ask _) forms).bind fun _ => carries_ask _
  have hitems : G.Carries (items form) := hlinked.bind fun _ => carries_found _
  exact hitems.attempt.bind fun _ => carries_done _

theorem carries_refuseNesting : G.Carries refuseNesting :=
  carries_look.bind fun _ => Carries.bind (fun _ hs => carriesAt_observe hs nofun) fun _ =>
    carries_fail nofun

theorem Carries.element {nested : Plan (List Form)} (h : G.Carries nested) :
    G.Carries (element nested) :=
  carries_atom.choice (fun _ => carries_done _) h.bracketed

/-- **Every ground carries a form**, whatever room there is. -/
theorem carries_form (room : Nat) : G.Carries (form room) := by
  induction room with
  | zero => exact carries_refuseNesting.element
  | succ room ih => exact ih.optionalItems.element

/-! ### Sources -/

theorem carries_one : G.Carries one :=
  carries_look.bind fun _ => (carries_form _).attempt.bind fun _ => carries_found _

theorem carries_finish : G.Carries finish := by
  refine fun s hs => carriesAt_look_bind hs ?_
  split
  · exact carries_done _ s hs
  · refine (carriesAt_observe hs fun p hp => ?_).bind fun _ s' hs' _ => carries_noMatch s' hs'
    rw [List.mem_singleton.mp hp]
    exact hs.cursor.pos

theorem carries_whole : G.Carries whole :=
  carries_one.bind fun _ => carries_finish.bind fun _ => carries_done _

theorem carries_oneMore : G.Carries oneMore :=
  carries_look.bind fun _ => (carries_done none).ite fun _ =>
    carries_one.bind fun _ => carries_done _

theorem carries_all : G.Carries all :=
  (carries_oneMore.gather (fun _ _ => carries_ask _) _).bind fun _ => carries_ask _

end Ground

/-! ### Answers -/

/-- **Failures that an answer tells of**, also those that were met inside of an attempt. How an
attempted rule ends is up to its author and does not count. -/
inductive Answer.TellsOf (f : Failure) : Answer → Prop where
  | form : TellsOf f (.form (.error f))
  | forms : TellsOf f (.forms (.error f))
  | finished : TellsOf f (.finished (.error f))
  | item : TellsOf f (.item (some (.error f)))
  | items {results : List (Except Failure Form)} : .error f ∈ results → TellsOf f (.items results)
  | attempted {inner : List Report} {report : Report} {result : Except Failure (Option Unit)} :
    report ∈ inner → TellsOf f report.answer → TellsOf f (.attempted inner result)

namespace Answer

variable {f : Failure}

theorem tellsOf_item {result : Option (Except Failure Form)} :
    (item result).TellsOf f ↔ result = some (.error f) := by
  constructor
  · rintro ⟨⟩
    rfl
  · rintro rfl
    exact .item

theorem tellsOf_items {results : List (Except Failure Form)} :
    (items results).TellsOf f ↔ .error f ∈ results := by
  constructor
  · intro h
    cases h with
    | items hresults => exact hresults
  · exact .items

theorem tellsOf_attempted {inner : List Report} {result : Except Failure (Option Unit)} :
    (attempted inner result).TellsOf f ↔ ∃ answer ∈ inner.map Report.answer, answer.TellsOf f := by
  constructor
  · intro h
    cases h with
    | attempted hreport htells => exact ⟨_, List.mem_map_of_mem hreport, htells⟩
  · rintro ⟨_, hanswer, htells⟩
    obtain ⟨report, hreport, rfl⟩ := List.mem_map.mp hanswer
    exact .attempted hreport htells

end Answer

namespace Ground

variable {G : Ground}

open Plan

/-! ### Actions -/

/-- **A ground sustains** what is asked of a reader: every moment of the trail passes, no answer
is that there is none, and there is footing at the end. -/
structure Sustains (G : Ground) (trail : List Moment) (answers : List Answer) (s' : Reader) :
    Prop where
  trail : ∀ m ∈ trail, G.Passes m
  answers : ∀ answer ∈ answers, ¬answer.TellsOf .outOfRange
  bears : G.Bears s'

theorem sustains_nil {s : Reader} (hs : G.Bears s) : G.Sustains [] [] s := ⟨nofun, nofun, hs⟩

/-- **One thing after another** is sustained if each of them is. -/
theorem Sustains.append {trail trail' : List Moment} {answers answers' : List Answer}
    {s s' : Reader} (h : G.Sustains trail answers s) (h' : G.Sustains trail' answers' s') :
    G.Sustains (trail ++ trail') (answers ++ answers') s' where
  trail := List.forall_mem_append.mpr ⟨h.trail, h'.trail⟩
  answers := List.forall_mem_append.mpr ⟨h.answers, h'.answers⟩
  bears := h'.bears

/-- A moment with footing may come before. -/
theorem Sustains.cons {trail : List Moment} {answers : List Answer} {s s' : Reader}
    (hs : G.Bears s) (h : G.Sustains trail answers s') :
    G.Sustains (⟨s, .nothing⟩ :: trail) answers s' :=
  ⟨List.forall_mem_cons.mpr ⟨⟨hs, trivial⟩, h.trail⟩, h.answers, h.bears⟩

theorem Sustains.answer {trail : List Moment} {answers : List Answer} {s : Reader}
    (h : G.Sustains trail answers s) {answer : Answer} (hanswer : ¬answer.TellsOf .outOfRange) :
    G.Sustains trail [answer] s :=
  ⟨h.trail, List.forall_mem_singleton.mpr hanswer, h.bears⟩

variable {α : Type}

/-- **What a plan answers**, if it is the plan of the rule that is asked for. -/
theorem sustains_answer {plan : Plan α} {rule : ReadM α} {wrap : Except Failure α → Answer}
    (hplan : G.Carries plan) (hrule : plan.run = rule)
    (hwrap : ∀ result, (wrap result).TellsOf .outOfRange → result = .error .outOfRange)
    {s : Reader} (hs : G.Bears s) :
    G.Sustains (plan.trail s) [(s.answer rule wrap).1] (s.answer rule wrap).2 := by
  subst hrule
  have h := hplan s hs
  refine ⟨h.trail, List.forall_mem_singleton.mpr fun htells => ?_, bears_run h.ends⟩
  exact (h.ends.of_result_error (hwrap _ htells)).2 rfl

/-- The next form of an iteration is sustained. -/
theorem sustains_next {s : Reader} (hs : G.Bears s) :
    G.Sustains s.nextTrail [.item s.next.1] s.next.2 := by
  rw [Reader.nextTrail, Reader.next]
  split
  · refine (sustains_nil hs).answer ?_
    rw [Answer.tellsOf_item]
    rintro ⟨⟩
  · have h := carries_one s hs
    have hends := h.ends
    rw [Plan.run_one] at hends
    split
    · next t s' hone =>
      refine ⟨h.trail, List.forall_mem_singleton.mpr ?_, (hends.of_ok hone).1⟩
      rw [Answer.tellsOf_item]
      rintro ⟨⟩
    · next f s' hone =>
      obtain ⟨hs', hf⟩ := hends.of_error hone
      refine ⟨h.trail, List.forall_mem_singleton.mpr ?_, ⟨hs'.cursor, hs'.log⟩⟩
      rw [Answer.tellsOf_item]
      rintro ⟨⟩
      exact hf rfl

/-- The rest of an iteration is sustained, one form after another. -/
theorem sustains_collect {s : Reader} (hs : G.Bears s) :
    G.Sustains s.collectTrail [.items s.collect.1] s.collect.2 := by
  induction hn : s.cursor.left using Nat.strongRecOn generalizing s with
  | ind n ih =>
    subst hn
    have hnext := sustains_next hs
    rw [Reader.collectTrail, Reader.collect]
    generalize s.nextTrail = trail at hnext ⊢
    generalize s.next = x at hnext ⊢
    have hresult := hnext.answers _ (List.mem_singleton.mpr rfl)
    rw [Answer.tellsOf_item] at hresult
    rcases x with ⟨_ | (f | t), s'⟩
    · rw [List.append_nil]
      refine hnext.answer ?_
      rw [Answer.tellsOf_items]
      exact List.not_mem_nil
    · rw [List.append_nil]
      refine hnext.answer ?_
      rw [Answer.tellsOf_items, List.mem_singleton]
      exact fun hf => hresult (congrArg some hf.symm)
    · dsimp only
      split
      · next hlt =>
        have hrest := ih _ hlt hnext.bears rfl
        refine (hnext.append hrest).answer ?_
        rw [Answer.tellsOf_items, List.mem_cons]
        rintro (hf | hf)
        · cases hf
        · exact hrest.answers _ (List.mem_singleton.mpr rfl) (.items hf)
      · rw [List.append_nil]
        refine hnext.answer ?_
        rw [Answer.tellsOf_items, List.mem_singleton]
        rintro ⟨⟩

mutual

/-- **An action is sustained**, whatever it asks for. -/
theorem sustains_perform : ∀ (s : Reader) (action : Action), G.Bears s →
    G.Sustains (s.performTrail action) [(s.perform action).1] (s.perform action).2
  | s, .one, hs => by
    rw [Reader.performTrail, Reader.perform]
    exact sustains_answer carries_one run_one (fun _ h => by cases h; rfl) hs
  | s, .whole, hs => by
    rw [Reader.performTrail, Reader.perform]
    exact sustains_answer carries_whole run_whole (fun _ h => by cases h; rfl) hs
  | s, .all, hs => by
    rw [Reader.performTrail, Reader.perform]
    exact sustains_answer carries_all run_all (fun _ h => by cases h; rfl) hs
  | s, .finish, hs => by
    rw [Reader.performTrail, Reader.perform]
    exact sustains_answer carries_finish run_finish (fun _ h => by cases h; rfl) hs
  | s, .next, hs => by
    rw [Reader.performTrail, Reader.perform]
    exact sustains_next hs
  | s, .collect, hs => by
    rw [Reader.performTrail, Reader.perform]
    exact sustains_collect hs
  | s, .attempt rule, hs => by
    have h := sustains_follow s rule hs
    have hinner {result : Except Failure (Option Unit)} :
        ¬(Answer.attempted (s.follow rule).1 result).TellsOf .outOfRange := by
      rw [Answer.tellsOf_attempted]
      rintro ⟨answer, hanswer, htells⟩
      exact h.answers answer hanswer htells
    have hbehind : ¬(s.perform (.attempt rule)).1.TellsOf .outOfRange ∧
        G.Bears (s.perform (.attempt rule)).2 := by
      rw [Reader.perform_attempt]
      generalize s.came rule = outcome at h ⊢
      rcases outcome with ⟨f | _, s'⟩
      · dsimp only
        split
        · exact ⟨hinner, hs.rewind h.bears⟩
        · exact ⟨hinner, h.bears⟩
      · exact ⟨hinner, h.bears⟩
    rw [Reader.performTrail]
    have hlast : G.Passes ⟨(s.perform (.attempt rule)).2, .nothing⟩ := ⟨hbehind.2, trivial⟩
    exact ⟨List.forall_mem_append.mpr ⟨h.trail, List.forall_mem_singleton.mpr hlast⟩,
      List.forall_mem_singleton.mpr hbehind.1, hbehind.2⟩

/-- **A rule made of actions is sustained**, however it ends. -/
theorem sustains_follow : ∀ (s : Reader) (rule : Rule), G.Bears s →
    G.Sustains (s.followTrail rule) ((s.follow rule).1.map Report.answer) (s.came rule).reader
  | s, .done ending, hs => by
    have hfollow : (s.follow (.done ending)).1 = [] := by
      cases ending with
      | none => rw [Reader.follow]
      | some f => rw [Reader.follow]
    rw [Reader.followTrail, Reader.came_done, hfollow]
    exact sustains_nil hs
  | s, .step action keepGoing rest, hs => by
    have haction := sustains_perform s action hs
    have hrest := sustains_follow (s.perform action).2 rest haction.bears
    have hon := haction.append (hrest.cons haction.bears)
    rw [Reader.followTrail_step, Reader.came_step, Reader.follow_step]
    rcases (s.perform action).1.failure? with _ | f
    · exact hon
    · cases keepGoing with
      | false => exact haction.append ((sustains_nil haction.bears).cons haction.bears)
      | true => exact hon

end

/-! ### Sessions -/

/-- A change of settings does not move a reader. -/
theorem sustains_take {s : Reader} (step : Step) (hs : G.Bears s) :
    G.Sustains (s.takeTrail step) [(s.take step).1] (s.take step).2 := by
  cases step with
  | act action => exact sustains_perform s action hs
  | setMaxDepth maxDepth =>
    have hset : G.Bears (s.take (.setMaxDepth maxDepth)).2 := ⟨hs.cursor, hs.log⟩
    exact (sustains_nil hset).answer nofun
  | setConfig config =>
    have hset : G.Bears (s.take (.setConfig config)).2 := ⟨hs.cursor, hs.log⟩
    exact (sustains_nil hset).answer nofun

/-- **Every ground sustains every session** of a reader that has footing on it. -/
theorem sustains_session {s : Reader} (steps : List Step) (hs : G.Bears s) :
    G.Sustains (s.sessionTrail steps) ((s.session steps).1.map Report.answer)
      (s.session steps).2 := by
  induction steps generalizing s with
  | nil => exact (sustains_nil hs).cons hs
  | cons step steps ih =>
    have hstep := sustains_take step hs
    exact (hstep.append (ih hstep.bears)).cons hs

/-- A reader at the beginning of the source has footing. -/
theorem bears_ofBytes (arena : Arena) : G.Bears (Reader.ofBytes G.source arena) :=
  ⟨⟨rfl, G.footing_zero⟩, nofun⟩

end Ground

end FormReader
