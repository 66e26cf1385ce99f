import FormReader.Proofs.Machine
import FormReader.Proofs.Soundness

/-!
# Reading in one pass comes to the same

The rules for forms try one thing after another, and put the cursor back whenever something
does not match. The machine `FormReader.Forward` never does. Nevertheless they agree, on what
is read as well as on how reading fails, as long as memory is not limited
(`FormReader.Reader.simulates_form`).

Where a form is read, the machine gets as far as completing it. Where the nesting is too
deep, the machine has ended with the same failure at the same place. What needs an idea is
the third case, that nothing matches. Then the rules go back and try something else, while
the machine has already given up – or has met a closing bracket, which the rule for a form
cannot use but the list around it can. So all that can be said of the machine is that it has
ended *unless* a closing bracket comes next (`FormReader.Reader.Stuck`), and this is
sufficient: gathering items stops there, and what the rules try next is to close the list.
-/

namespace FormReader

namespace Reader

open Forward

/-! ### Readers as states of the machine -/

/-- A reader as a state of the machine in which certain lists are open. -/
def forward (s : Reader) (frames : List Frame) : Forward := ⟨s.pos, s.cursor.rest, frames⟩

/-- **Allowing** so many lists: memory is not limited, and this many lists may be open at
once. -/
structure Allows (limit : Nat) (s : Reader) : Prop where
  unlimited : s.arena.Unlimited
  maxDepth : s.config.maxDepth = limit

theorem Follows.allows {limit : Nat} {s s' : Reader} (h : Follows s s') (hs : s.Allows limit) :
    s'.Allows limit :=
  ⟨h.unlimited hs.unlimited, by rw [h.config, hs.maxDepth]⟩

/-- **Being stuck**: the machine does not match anything either, unless a closing bracket
comes next. -/
def Stuck (limit : Nat) (frames : List Frame) (s : Reader) : Prop :=
  (behindBlanks s.cursor.rest).head?.bind Bracket.ofClosing? = none →
    ∃ m, Forward.run limit (s.forward frames) = (.error .noMatch, m)

/-- **Running out of room** where the machine does. -/
def RunsOut (limit : Nat) (outcome : Except Failure Form × Forward) (f : Failure) (s' : Reader) :
    Prop :=
  f = .tooDeep limit limit ∧ ∃ inner, outcome = (.error f, s'.forward inner)

/-- **Simulation** of a rule for a form, run on a reader while certain lists are open. -/
def SimulatesAt (limit : Nat) (frames : List Frame) (rule : ReadM Form) (s : Reader) : Prop :=
  Ends rule s
    (fun t s' =>
      Forward.run limit (s.forward frames) = ((s'.forward frames).complete t).outcome limit)
    (fun f s' => f = .noMatch ∧ s.Stuck limit frames ∨
      RunsOut limit (Forward.run limit (s.forward frames)) f s')

/-- **Simulation** of a rule for a form, while certain lists are open. -/
def Simulates (limit : Nat) (frames : List Frame) (rule : ReadM Form) : Prop :=
  ∀ s, s.Allows limit → SimulatesAt limit frames rule s

/-- **Having gathered** some items where the machine has put them onto the innermost list. -/
structure Gathered (limit : Nat) (outcome : Except Failure Form × Forward) (frame : Frame)
    (outer : List Frame) (items : List Form) (s : Reader) : Prop where
  allows : s.Allows limit
  outcome_eq : outcome = Forward.run limit (s.forward (frame.append items :: outer))

/-- **Simulation** of a rule for what stands between two brackets, from the opening bracket
on. -/
def SimulatesNested (limit : Nat) (frames : List Frame) (rule : ReadM (List Form)) : Prop :=
  ∀ (bracket : Bracket) (m : Forward) (s : Reader), s.Allows limit →
    m.advance 1 = s.forward frames → Ends rule s
      (fun items s' =>
        Gathered limit ((m.openList limit bracket).outcome limit) ⟨bracket, m.pos, []⟩ frames
          items s' ∧
        s'.Stuck limit (Frame.append ⟨bracket, m.pos, []⟩ items :: frames))
      (RunsOut limit ((m.openList limit bracket).outcome limit))

section Forward

variable {limit : Nat} {frames outer : List Frame} {frame : Frame} {s s' : Reader}

/-- Only the cursor matters. -/
theorem forward_congr (h : s'.cursor = s.cursor) : s'.forward frames = s.forward frames := by
  rw [forward, forward, pos, pos, h]

theorem Stuck.congr (hs : s.Stuck limit frames) (h : s'.cursor = s.cursor) :
    s'.Stuck limit frames := by
  rw [Stuck, h, forward_congr h]
  exact hs

theorem RunsOut.ne_noMatch {outcome : Except Failure Form × Forward} {f : Failure}
    (h : RunsOut limit outcome f s') : f ≠ .noMatch := by
  rintro rfl
  exact Failure.noConfusion h.1

/-- Where the machine ends without a match, a reader is stuck. -/
theorem Stuck.of_run {m : Forward}
    (h : Forward.run limit (s.forward frames) = (.error .noMatch, m)) : s.Stuck limit frames :=
  fun _ => ⟨m, h⟩

/-- Passing over blanks is no progress for the machine. -/
theorem run_forward_skipBlanks :
    Forward.run limit (s.skipBlanks.forward frames) = Forward.run limit (s.forward frames) :=
  run_skipBlanks limit (s.forward frames)

/-- A reader that has gone on is the machine that has gone on. -/
theorem forward_of_advance {n : Nat} (h : s'.cursor = s.cursor.advance n) (frames' : List Frame) :
    s'.forward frames = ((s.forward frames').advance n).withFrames frames := by
  rw [forward, pos, h]
  rfl

/-- Before a closing bracket the machine closes the innermost list. -/
theorem run_forward_closing {bracket : Bracket}
    (h : (behindBlanks s.cursor.rest).head?.bind Bracket.ofClosing? = some bracket) :
    Forward.run limit (s.forward frames) =
      ((s.skipBlanks.forward frames).closeList bracket).outcome limit := by
  obtain ⟨behind, hrest⟩ := exists_of_ofClosing? h
  have hforward : (s.skipBlanks.forward frames).rest = bracket.closing :: behind :=
    s.rest_skipBlanks.trans hrest
  rw [← run_forward_skipBlanks, run_closing hforward]

/-- Before an opening bracket the machine opens a list. -/
theorem run_forward_opening {bracket : Bracket}
    (h : (behindBlanks s.cursor.rest).head?.bind Bracket.ofOpening? = some bracket) :
    Forward.run limit (s.forward frames) =
      ((s.skipBlanks.forward frames).openList limit bracket).outcome limit := by
  obtain ⟨behind, hrest⟩ := exists_of_ofOpening? h
  have hforward : (s.skipBlanks.forward frames).rest = bracket.opening :: behind :=
    s.rest_skipBlanks.trans hrest
  rw [← run_forward_skipBlanks, run_opening hforward]

theorem Gathered.congr {outcome : Except Failure Form × Forward} {items : List Form}
    (h : Gathered limit outcome frame outer items s) (hs' : s'.Allows limit)
    (hcursor : s'.cursor = s.cursor) : Gathered limit outcome frame outer items s' := by
  refine ⟨hs', ?_⟩
  rw [h.outcome_eq, forward_congr hcursor]

/-- **One more item** has been gathered where the machine completes it. -/
theorem Gathered.snoc {outcome : Except Failure Form × Forward} {items : List Form} {t : Form}
    (h : Gathered limit outcome frame outer items s)
    (hrun : Forward.run limit (s.forward (frame.append items :: outer)) =
      ((s'.forward (frame.append items :: outer)).complete t).outcome limit)
    (hs' : s'.Allows limit) : Gathered limit outcome frame outer (items ++ [t]) s' := by
  refine ⟨hs', ?_⟩
  rw [h.outcome_eq, hrun, complete_of_cons rfl, outcome_goesOn, Frame.append_append]
  rfl

end Forward

/-! ### Atoms -/

section Atoms

variable {limit : Nat} {frames : List Frame} {s : Reader}

/-- Where an atom is found the machine completes it. -/
theorem run_of_atomAhead? {a : Atom} {n : Nat} {s' : Reader}
    (hahead : atomAhead? (behindBlanks s.cursor.rest) = some (a, n))
    (hs' : s'.cursor = s.skipBlanks.cursor.advance n) :
    Forward.run limit (s.forward frames) =
      ((s'.forward frames).complete (.atom a)).outcome limit := by
  obtain ⟨text, behind, hsplit, -, hspelling, -⟩ := spelling_of_atomAhead? hahead
  obtain ⟨b, bytes, rfl, hb⟩ := exists_cons_of_spelling hspelling
  have hrest : (s.skipBlanks.forward frames).rest = behindBlanks s.cursor.rest := s.rest_skipBlanks
  rw [← hrest] at hahead hsplit
  rw [← run_forward_skipBlanks, run_atom hsplit hb hahead, forward_of_advance hs' frames]
  rfl

/-- Where neither an atom is found nor an opening bracket, a reader is stuck. -/
theorem stuck_of_not_opening (hahead : atomAhead? (behindBlanks s.cursor.rest) = none)
    (hopening : (behindBlanks s.cursor.rest).head?.bind Bracket.ofOpening? = none) :
    s.Stuck limit frames := by
  intro hclosing
  have hforward : (s.skipBlanks.forward frames).rest = behindBlanks s.cursor.rest :=
    s.rest_skipBlanks
  rcases hrest : behindBlanks s.cursor.rest with _ | ⟨b, behind⟩
  · exact run_of_allBlank (behindBlanks_eq_nil_iff.mp hrest)
  · rw [← hforward] at hahead
    rw [hrest] at hforward
    rw [hrest, List.head?_cons, Option.bind_some] at hopening hclosing
    rw [← run_forward_skipBlanks]
    exact ⟨_, run_of_no_atom hforward (isBlank_of_behindBlanks hrest) hopening hclosing hahead⟩

end Atoms

/-! ### Lists -/

section Lists

variable {limit : Nat} {frames : List Frame} {frame : Frame} {nested : ReadM (List Form)}

/-- **Closing a list**, which the machine does in its stride: it is at the closing bracket
as soon as it is stuck, and ends without a match if the bracket is not there. -/
theorem simulates_closeBracket {s : Reader} (hstuck : s.Stuck limit (frame :: frames)) :
    Ends (closeBracket frame.bracket) s
      (fun _ s' => Forward.run limit (s.forward (frame :: frames)) =
        ((s'.forward frames).complete (.list frame.items.reverse)).outcome limit)
      (fun f _ => f = .noMatch ∧
        ∃ m, Forward.run limit (s.forward (frame :: frames)) = (.error .noMatch, m)) := by
  refine (ends_closeBracket frame.bracket s).imp (fun _ s' h => ?_) fun f s' h => ⟨h.1, ?_⟩
  · have hclosing : (behindBlanks s.cursor.rest).head?.bind Bracket.ofClosing? =
        some frame.bracket := by
      rw [h.1, Option.bind_some, Bracket.ofClosing?_closing]
    rw [run_forward_closing hclosing, closeList_of_cons rfl, if_pos rfl,
      forward_of_advance h.2 (frame :: frames)]
  · rcases hclosing : (behindBlanks s.cursor.rest).head?.bind Bracket.ofClosing? with _ | other
    · exact hstuck hclosing
    · -- the wrong closing bracket
      obtain ⟨behind, hrest⟩ := exists_of_ofClosing? hclosing
      have hother : frame.bracket ≠ other := by
        rintro rfl
        exact h.2 (by rw [hrest, List.head?_cons])
      rw [run_forward_closing hclosing, closeList_of_cons rfl, if_neg hother]
      exact ⟨_, rfl⟩

/-- **A list** is simulated, if what stands between its brackets is. -/
theorem simulates_bracketed (hnested : SimulatesNested limit frames nested) {s : Reader}
    (hs : s.Allows limit) (hahead : atomAhead? (behindBlanks s.cursor.rest) = none) :
    SimulatesAt limit frames (bracketed nested) s := by
  rw [SimulatesAt, bracketed, ends_bind, ends_blanks]
  by_cases hblank : behindBlanks s.cursor.rest = []
  · rw [if_pos hblank]
    exact Or.inl ⟨rfl, stuck_of_not_opening hahead (by rw [hblank]; rfl)⟩
  rw [if_neg hblank, ends_bind, ends_openBracket, rest_skipBlanks]
  rcases hopening : (behindBlanks s.cursor.rest).head?.bind Bracket.ofOpening? with _ | bracket
  · exact Or.inl ⟨rfl, stuck_of_not_opening hahead hopening⟩
  · -- the machine is in front of the opening bracket, and the reader behind it
    have hrun : Forward.run limit (s.forward frames) =
        ((s.skipBlanks.forward frames).openList limit bracket).outcome limit :=
      run_forward_opening hopening
    dsimp only
    rw [ends_bind, hrun]
    refine (hnested bracket (s.skipBlanks.forward frames)
      { s.skipBlanks with cursor := s.skipBlanks.cursor.advance 1 } ⟨hs.1, hs.2⟩ rfl).imp
        (fun items s₁ hitems => ?_) fun f s₁ hf => Or.inr hf
    rw [ends_bind, hitems.1.outcome_eq]
    have hclose := simulates_closeBracket hitems.2
    refine hclose.imp (fun _ s' hs' => ?_) fun f s' hf => Or.inl ⟨hf.1, ?_⟩
    · rw [Frame.items_append, List.append_nil, List.reverse_reverse] at hs'
      exact hs'
    · obtain ⟨m, hm⟩ := hf.2
      exact Stuck.of_run (hrun.trans (hitems.1.outcome_eq.trans hm))

/-- **A form** is simulated, if what stands between the brackets is in case it is a list. -/
theorem simulates_element (hnested : SimulatesNested limit frames nested) :
    Simulates limit frames (element nested) := by
  intro s hs
  rw [SimulatesAt, element, ends_bind, ends_attempt]
  refine ((scans_atom s).and (steady_atom s)).imp (fun a s' ha => ?_) fun f s' hf => ?_
  · obtain ⟨⟨n, hahead, hs'⟩, -⟩ := ha
    exact run_of_atomAhead? hahead hs'
  · obtain ⟨⟨e, rfl⟩ | ⟨rfl, hahead⟩, hfollows, hgranted⟩ := hf
    · exact absurd rfl (hgranted hs.unlimited e)
    · -- the cursor is back where the atom was looked for
      rw [if_pos rfl]
      have hlist := simulates_bracketed hnested (hfollows.rewind.allows hs) hahead
      exact hlist.imp (fun t s'' h => h) fun f s'' h => h

/-- An opening bracket too many ends the machine, too. -/
theorem simulates_refuseNesting (hframes : limit ≤ frames.length) :
    SimulatesNested limit frames refuseNesting := by
  intro bracket m s hs hm
  have hlength : m.frames = frames := congrArg Forward.frames hm
  rw [openList_of_le (hlength ▸ hframes), outcome_ends, hm]
  rw [refuseNesting, ends_bind, ends_get, ends_bind, ends_observe, ends_throw, hs.maxDepth]
  exact ⟨rfl, frames, rfl⟩

end Lists

/-! ### Items -/

section Items

variable {limit room : Nat} {outer : List Frame} {frame : Frame} {form : ReadM Form}
  (hsteady : Steady form)
  (hreads : ∀ s, Ends form s (fun t s' => Reads room s t s') fun _ _ => True)
  (hform : ∀ items, Simulates limit (frame.append items :: outer) form)

include hsteady hreads hform

/-- **Gathering items** is simulated by putting them onto the innermost list. That the
machine has put there what was gathered so far is the invariant. -/
theorem simulates_gather {outcome : Except Failure Form × Forward} {forms : Scratch Form}
    {s : Reader} (hs : Gathered limit outcome frame outer forms.items.toList s) :
    Ends (gather (attempt form) push forms) s
      (fun forms' s' => Gathered limit outcome frame outer forms'.items.toList s' ∧
        s'.Stuck limit (frame.append forms'.items.toList :: outer))
      (RunsOut limit outcome) := by
  have hround : Round (attempt form) push
      (fun forms s₁ => Gathered limit outcome frame outer forms.items.toList s₁)
      (fun forms s₁ => Gathered limit outcome frame outer forms.items.toList s₁ ∧
        s₁.Stuck limit (frame.append forms.items.toList :: outer)) (RunsOut limit outcome) := by
    intro forms s₁ hinv
    rw [ends_attempt]
    have hone := hform forms.items.toList s₁ hinv.allows
    refine ((hone.and (hreads s₁)).and (hsteady s₁)).imp (fun t s₂ h => ?_) fun f s₂ h => ?_
    · -- one more item
      obtain ⟨⟨hrun, hmoved⟩, hfollows⟩ := h
      have hs₂ := hfollows.allows hinv.allows
      refine (ends_push forms t s₂).imp (fun forms' s₃ h => ?_)
        fun f s₃ h => absurd hs₂.unlimited h.2.1
      obtain ⟨rfl, hcursor, hfollows'⟩ := h
      have hsnoc := (hinv.snoc hrun hs₂).congr (hfollows'.allows hs₂) hcursor
      rw [← Scratch.toList_pushed _ s₂.arena.allocator] at hsnoc
      refine ⟨hsnoc, Or.inl ?_⟩
      rw [hcursor]
      exact hmoved.left_lt
    · obtain ⟨⟨hfailed, -⟩, hfollows⟩ := h
      rcases hfailed with ⟨rfl, hstuck⟩ | hout
      · -- nothing matches any more
        rw [if_pos rfl]
        exact ⟨⟨hfollows.1.rewind.allows hinv.allows, hinv.outcome_eq⟩, hstuck.congr rfl⟩
      · rw [if_neg hout.ne_noMatch, hinv.outcome_eq]
        exact hout
  exact Ends.gather hround forms s hs

theorem simulates_items {outcome : Except Failure Form × Forward} {s : Reader}
    (hs : Gathered limit outcome frame outer [] s) :
    Ends (items form) s
      (fun items s' => Gathered limit outcome frame outer items s' ∧
        s'.Stuck limit (frame.append items :: outer))
      (fun f s' => (f = .noMatch ∧ s.Stuck limit (frame.append [] :: outer) ∧ Follows s s') ∨
        RunsOut limit outcome f s') := by
  rw [items_eq_linkedItems, linkedItems, ends_bind]
  have hone := hform [] s hs.allows
  refine (hone.and (hsteady s)).imp (fun t s₁ h => ?_) fun f s₁ h => ?_
  · obtain ⟨hrun, hfollows⟩ := h
    have hs₁ := hfollows.allows hs.allows
    rw [ends_bind]
    refine (ends_push { width := Scratch.formWidth } t s₁).imp (fun forms s₂ h₂ => ?_)
      fun f s₂ h₂ => absurd hs₁.unlimited h₂.2.1
    obtain ⟨rfl, hcursor, hfollows'⟩ := h₂
    have hfirst : Gathered limit outcome frame outer
        (Scratch.pushed { width := Scratch.formWidth } s₁.arena.allocator t).items.toList s₂ :=
      (hs.snoc hrun hs₁).congr (hfollows'.allows hs₁) hcursor
    rw [ends_bind]
    refine (simulates_gather hsteady hreads hform hfirst).imp (fun forms s₃ h₃ => ?_)
      fun f s₃ hout => Or.inr hout
    have hs₃ := h₃.1.allows
    refine (ends_link forms s₃).imp (fun items s₄ h₄ => ?_)
      fun f s₄ h₄ => absurd hs₃.unlimited h₄.2.1
    obtain ⟨rfl, hcursor', hfollows'⟩ := h₄
    exact ⟨h₃.1.congr (hfollows'.allows hs₃) hcursor', h₃.2.congr hcursor'⟩
  · obtain ⟨⟨rfl, hstuck⟩ | hout, hfollows⟩ := h
    · exact Or.inl ⟨rfl, hstuck, hfollows.1⟩
    · rw [← hs.outcome_eq] at hout
      exact Or.inr hout

/-- **The items of a list** are simulated from where its innermost list has none. -/
theorem simulates_optionalItems {outcome : Except Failure Form × Forward} {s : Reader}
    (hs : Gathered limit outcome frame outer [] s) :
    Ends (optionalItems form) s
      (fun items s' => Gathered limit outcome frame outer items s' ∧
        s'.Stuck limit (frame.append items :: outer))
      (RunsOut limit outcome) := by
  rw [optionalItems, ends_bind, ends_attempt]
  refine (simulates_items hsteady hreads hform hs).imp (fun items s' h => h) fun f s' h => ?_
  rcases h with ⟨rfl, hstuck, hfollows⟩ | hout
  · rw [if_pos rfl]
    exact ⟨hs.congr (hfollows.rewind.allows hs.allows) rfl, hstuck.congr rfl⟩
  · rw [if_neg hout.ne_noMatch]
    exact hout

end Items

/-! ### Forms -/

/-- **A form is simulated**, if the lists that are open and the room for more of them make up
the limit. -/
theorem simulates_form {limit : Nat} (room : Nat) {frames : List Frame}
    (hroom : frames.length + room = limit) : Simulates limit frames (form room) := by
  induction room generalizing frames with
  | zero => exact simulates_element (simulates_refuseNesting (Nat.le_of_eq hroom.symm))
  | succ room ih =>
    refine simulates_element fun bracket m s hs hm => ?_
    have hframes : m.frames = frames := congrArg Forward.frames hm
    have hopened : Gathered limit ((m.openList limit bracket).outcome limit)
        ⟨bracket, m.pos, []⟩ frames [] s := by
      refine ⟨hs, ?_⟩
      rw [openList_of_lt (by rw [hframes]; omega), outcome_goesOn, hm, hframes]
      rfl
    exact simulates_optionalItems (steady_form room) (reads_form room)
      (fun items => ih (by rw [List.length_cons]; omega)) hopened

/-- Outside of all lists being stuck is having ended, since a closing bracket is of no use. -/
theorem Stuck.exists_run {limit : Nat} {s : Reader} (h : s.Stuck limit []) :
    ∃ m, Forward.run limit (s.forward []) = (.error .noMatch, m) := by
  rcases hclosing : (behindBlanks s.cursor.rest).head?.bind Bracket.ofClosing? with _ | bracket
  · exact h hclosing
  · rw [run_forward_closing hclosing]
    exact ⟨_, rfl⟩

/-- **One form** is what the machine reads, and the reader stands where the machine ends –
unless nothing matches, for then the reader is back where it was. -/
theorem simulates_one {s : Reader} (hs : s.arena.Unlimited) :
    Ends one s
      (fun t s' => Forward.run s.config.maxDepth (s.forward []) = (.ok t, s'.forward []))
      (fun f s' => (f = .noMatch ∧ s'.pos = s.pos ∧
          ∃ m, Forward.run s.config.maxDepth (s.forward []) = (.error .noMatch, m)) ∨
        RunsOut s.config.maxDepth (Forward.run s.config.maxDepth (s.forward [])) f s') := by
  rw [one, ends_bind, ends_get, ends_bind, ends_attempt]
  have hroom : ([] : List Frame).length + s.config.maxDepth = s.config.maxDepth := Nat.zero_add _
  have hform := simulates_form s.config.maxDepth hroom s ⟨hs, rfl⟩
  refine hform.imp (fun t s' h => ?_) fun f s' h => ?_
  · rw [complete_of_nil rfl, outcome_ends] at h
    exact h
  · rcases h with ⟨rfl, hstuck⟩ | hout
    · rw [if_pos rfl]
      exact Or.inl ⟨rfl, rfl, hstuck.exists_run⟩
    · rw [if_neg hout.ne_noMatch]
      exact Or.inr hout

/-- A form that was read is what the machine ends with. -/
theorem run_forward_of_ok {s s' : Reader} {t : Form} (hs : s.arena.Unlimited)
    (h : s.run one = ⟨.ok t, s'⟩) :
    Forward.run s.config.maxDepth (s.forward []) = (.ok t, s'.forward []) := by
  have hone := (simulates_one hs).of_result_ok (congrArg Outcome.result h)
  rw [h] at hone
  exact hone

/-- A failure is what the machine ends with, too. -/
theorem run_forward_of_error {s s' : Reader} {f : Failure} (hs : s.arena.Unlimited)
    (h : s.run one = ⟨.error f, s'⟩) :
    ∃ m, Forward.run s.config.maxDepth (s.forward []) = (.error f, m) := by
  rcases (simulates_one hs).of_result_error (congrArg Outcome.result h) with
    ⟨rfl, -, hm⟩ | ⟨rfl, inner, hm⟩
  · exact hm
  · exact ⟨_, hm⟩

theorem result_one {s : Reader} (hs : s.arena.Unlimited) :
    (s.run one).result = (Forward.run s.config.maxDepth (s.forward [])).1 := by
  rcases hone : s.run one with ⟨f | t, s'⟩
  · obtain ⟨m, hm⟩ := run_forward_of_error hs hone
    rw [hm]
  · rw [run_forward_of_ok hs hone]

/-- **Refinement by a single pass**: with memory without limit, reading one form comes to
the same as running the machine from where the reader stands. The result is the same in any
case, and so is the position unless nothing matches, for then the reader goes back to where
it was. -/
theorem one_eq_run (s : Reader) (hs : s.arena.Unlimited) :
    (s.run one).result = (Forward.run s.config.maxDepth ⟨s.pos, s.cursor.rest, []⟩).1 ∧
    (s.run one).reader.pos =
      match Forward.run s.config.maxDepth ⟨s.pos, s.cursor.rest, []⟩ with
      | (.error .noMatch, _) => s.pos
      | (_, m) => m.pos := by
  have hone := simulates_one hs
  change _ = (Forward.run s.config.maxDepth (s.forward [])).1 ∧ _ =
    match Forward.run s.config.maxDepth (s.forward []) with
    | (.error .noMatch, _) => s.pos
    | (_, m) => m.pos
  rw [Reader.run]
  split
  · next t s' h =>
    rw [hone.of_ok h]
    exact ⟨rfl, rfl⟩
  · next f s' h =>
    rcases hone.of_error h with ⟨rfl, hpos, m, hm⟩ | ⟨rfl, inner, hm⟩
    · rw [hm]
      exact ⟨rfl, hpos⟩
    · rw [hm]
      exact ⟨rfl, rfl⟩

/-- The wrong closing bracket ends the machine behind the opening one, and the reader goes back
in front of it. -/
theorem one_mismatched_brackets :
    let s := ofBytes [Bracket.round.opening, Bracket.square.closing]
    s.arena.Unlimited ∧ (s.run one).result = .error .noMatch ∧ (s.run one).reader.pos = 0 := by
  intro s
  have hrun : Forward.run s.config.maxDepth ⟨s.pos, s.cursor.rest, []⟩ =
      (.error .noMatch, ⟨1, [Bracket.square.closing], [⟨.round, 0, []⟩]⟩) := by
    rw [run_eq]
    change Forward.run 256 ⟨1, [Bracket.square.closing], [⟨.round, 0, []⟩]⟩ = _
    rw [run_eq]
    rfl
  obtain ⟨hresult, hpos⟩ := one_eq_run s Arena.unlimited_default
  rw [hrun] at hresult hpos
  exact ⟨Arena.unlimited_default, hresult, hpos⟩

end Reader

end FormReader
