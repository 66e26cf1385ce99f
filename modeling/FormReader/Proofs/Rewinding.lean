import FormReader.Proofs.Actions
import FormReader.Proofs.Gauging
import FormReader.Proofs.InTurn

/-!
# Going back

An attempt whose rule does not match puts the cursor back, and this is all it does: what the
rule recorded stays recorded, followed by one event that says from where to where the cursor
went. It goes back indeed, since nothing that a rule may do leads in front of where the rule
began. A rule that matches, or fails for good, leaves the reader as it is
(`FormReader.Reader.attempt_rewinds`).

What a reader can be asked for goes back to different points when nothing matches: one form
leaves the cursor where it was, a form and nothing else leaves it behind the form if there is
one, and all forms leave it behind the last of those that were read.
-/

namespace FormReader

namespace Reader

/-! ### Attempts -/

/-- **A rewind**: the first reader is the second one but for its cursor, which is back where it
was before `s` went on, and for the event that tells this. -/
structure Rewound (s came behind : Reader) : Prop where
  cursor : behind.cursor = s.cursor
  config : behind.config = s.config
  target_le : s.pos ≤ came.pos
  events : behind.events = came.events ++ [.rewinding came.pos s.pos]

section Attempts

variable (s : Reader) (rule : Rule)

theorem perform_attempt_of_noMatch (h : (s.came rule).result = .error .noMatch) :
    s.perform (.attempt rule) =
      (.attempted (s.follow rule).1 (.ok none), (s.came rule).reader.rewind s.cursor) := by
  rw [perform_attempt]
  generalize s.came rule = outcome at h
  obtain ⟨_, s'⟩ := outcome
  cases h
  rfl

theorem perform_attempt_of_ok (h : (s.came rule).result = .ok ()) :
    s.perform (.attempt rule) =
      (.attempted (s.follow rule).1 (.ok (some ())), (s.came rule).reader) := by
  rw [perform_attempt]
  generalize s.came rule = outcome at h
  obtain ⟨_, s'⟩ := outcome
  cases h
  rfl

theorem perform_attempt_of_error {f : Failure} (h : (s.came rule).result = .error f)
    (hf : f ≠ .noMatch) :
    s.perform (.attempt rule) =
      (.attempted (s.follow rule).1 (.error f), (s.came rule).reader) := by
  rw [perform_attempt]
  generalize s.came rule = outcome at h
  obtain ⟨_, s'⟩ := outcome
  cases h
  exact if_neg hf

theorem rewound_of_noMatch (h : (s.came rule).result = .error .noMatch) :
    Rewound s (s.came rule).reader (s.perform (.attempt rule)).2 := by
  have hcame := keeps_came s rule
  rw [perform_attempt_of_noMatch s rule h]
  exact ⟨rfl, hcame.config, hcame.pos, List.reverse_cons⟩

end Attempts

/-! ### What does not match -/

section NoMatch

variable (s : Reader)

/-- **One form** that is not there leaves the cursor where it was. -/
theorem ends_one_noMatch :
    Ends one s (fun _ _ => True) fun f s' => f = .noMatch → s'.cursor = s.cursor := by
  rw [one, ends_bind, ends_get, ends_bind, ends_attempt, Ends]
  split
  · trivial
  · split
    · exact fun _ => rfl
    · next hf => exact fun h => absurd h hf

/-- The end of the source is looked for without going there. -/
theorem ends_finish : Ends finish s (fun _ s' => s' = s)
    fun f s' => f = .noMatch ∧ s' = s.record (.trailing s.pos) ∧
      s.cursor.onlyBlanksLeft = false := by
  rw [finish, ends_bind, ends_get]
  cases hleft : s.cursor.onlyBlanksLeft with
  | true => exact rfl
  | false => exact ⟨rfl, rfl, rfl⟩

/-- **A form and nothing else**: either there is no form, and the cursor is where it was, or
something follows the form, and the cursor is between them. -/
theorem ends_whole_noMatch :
    Ends whole s (fun _ _ => True) fun f s' => f = .noMatch →
      ((s.run one).result = .error .noMatch ∧ s'.cursor = s.cursor) ∨
        ∃ t, (s.run one).result = .ok t ∧ s'.cursor = (s.run one).reader.cursor ∧
          s'.cursor.onlyBlanksLeft = false := by
  rw [whole, ends_bind, Ends]
  split
  · next t s₁ hone =>
    rw [run_of_ok hone, ends_bind]
    refine (ends_finish s₁).imp (fun _ _ _ => trivial) fun f s' h _ => Or.inr ⟨t, rfl, ?_⟩
    obtain ⟨-, rfl, hleft⟩ := h
    exact ⟨rfl, hleft⟩
  · next f s' hone =>
    rintro rfl
    refine Or.inl ⟨?_, (ends_one_noMatch s).of_error hone rfl⟩
    rw [run_of_error hone]

/-- **All forms**: the cursor is behind those that were read. -/
theorem ends_all_noMatch :
    Ends all s (fun _ _ => True) fun f s' => f = .noMatch →
      ∃ forms s₁, ReadsInTurn s forms s₁ ∧ s₁.cursor.onlyBlanksLeft = false ∧
        (s₁.run one).result = .error .noMatch ∧ s'.cursor = s₁.cursor := by
  refine (ends_all_in_turn s).imp (fun _ _ _ => trivial) fun f s' h => ?_
  rintro rfl
  obtain ⟨forms, s₁, hread, hleft, hone⟩ | ⟨e, ⟨⟩⟩ := h
  have hresult : (s₁.run one).result = .error .noMatch := by rw [hone]
  have hcursor := (ends_one_noMatch s₁).of_result_error hresult rfl
  rw [hone] at hcursor
  exact ⟨forms, s₁, hread, hleft, hresult, hcursor⟩

/-- **Iteration** that hands out a mismatch leaves the cursor where it was. -/
theorem cursor_next_of_noMatch (h : s.next.1 = some (.error .noMatch)) :
    s.next.2.cursor = s.cursor := by
  rw [next] at h ⊢
  by_cases hstop : s.halted ∨ s.cursor.onlyBlanksLeft
  · rw [if_pos hstop] at h
    cases h
  · rw [if_neg hstop] at h ⊢
    rcases hone : one s with ⟨t, s'⟩ | ⟨f, s'⟩
    · rw [hone] at h
      cases h
    · have hcursor := (ends_one_noMatch s).of_error hone
      rw [hone] at h
      cases h
      exact hcursor rfl

end NoMatch

/-! ### Going back is exact -/

/-- **Rewinding is exact.** Take an attempt of any rule made of actions, on any reader. What the
rule recorded stays, in any case. If the rule does not match the attempt finds nothing, the
cursor is back where it was, the settings are the same, and one event follows, from where the
rule had left the cursor to where it is now, which is not further on. Otherwise the reader is
left as the rule has left it, and the attempt tells how the rule ended. Behind a session no list
counts as open before the attempt or after it.

When nothing matches, one form and the next form of an iteration leave the cursor where it was,
and so does the end of the source, whatever comes of it; a form and nothing else leaves it
behind the form, if there is one and more than blanks follow; and all forms leave it behind the
last one read, in front of one that does not match. -/
theorem attempt_rewinds (s : Reader) (rule : Rule) :
    let came := s.came rule
    let inner := (s.follow rule).1
    let attempted := s.perform (.attempt rule)
    (∃ own, came.reader.events = s.events ++ own) ∧
    (came.result = .error .noMatch →
      attempted.1 = .attempted inner (.ok none) ∧ Rewound s came.reader attempted.2) ∧
    (came.result = .ok () → attempted = (.attempted inner (.ok (some ())), came.reader)) ∧
    (∀ f, f ≠ .noMatch → came.result = .error f →
      attempted = (.attempted inner (.error f), came.reader)) ∧
    (∀ source arena steps, s = ((ofBytes source arena).session steps).2 →
      let counted := ((Gauged.ofBytes source arena).session steps).2
      counted.reader = s ∧ counted.depth = 0 ∧
        (counted.perform (.attempt rule)).1 = attempted.1 ∧
        (counted.perform (.attempt rule)).2.reader = attempted.2 ∧
        (counted.perform (.attempt rule)).2.depth = 0) ∧
    ((s.run one).result = .error .noMatch → (s.run one).reader.cursor = s.cursor) ∧
    (s.next.1 = some (.error .noMatch) → s.next.2.cursor = s.cursor) ∧
    (s.run finish).reader.cursor = s.cursor ∧
    ((s.run whole).result = .error .noMatch →
      ((s.run one).result = .error .noMatch ∧ (s.run whole).reader.cursor = s.cursor) ∨
        ∃ t, (s.run one).result = .ok t ∧
          (s.run whole).reader.cursor = (s.run one).reader.cursor ∧
          (s.run whole).reader.cursor.onlyBlanksLeft = false) ∧
    ((s.run all).result = .error .noMatch →
      ∃ forms s', ReadsInTurn s forms s' ∧ s'.cursor.onlyBlanksLeft = false ∧
        (s'.run one).result = .error .noMatch ∧ (s.run all).reader.cursor = s'.cursor) := by
  intro came inner attempted
  refine ⟨?_, fun h => ⟨?_, rewound_of_noMatch s rule h⟩, perform_attempt_of_ok s rule,
    fun f hf h => perform_attempt_of_error s rule h hf, ?_,
    fun h => (ends_one_noMatch s).of_result_error h rfl, cursor_next_of_noMatch s, ?_,
    fun h => (ends_whole_noMatch s).of_result_error h rfl,
    fun h => (ends_all_noMatch s).of_result_error h rfl⟩
  · obtain ⟨own, hown⟩ := (keeps_came s rule).log
    refine ⟨own.reverse, ?_⟩
    rw [events, ← hown, List.reverse_append]
    rfl
  · exact congrArg Prod.fst (perform_attempt_of_noMatch s rule h)
  · rintro source arena steps rfl counted
    have hrest := Gauged.session_at_rest (g := Gauged.ofBytes source arena) rfl steps
    have hattempt := Gauged.perform_at_rest hrest.depth (.attempt rule)
    rw [hrest.reader] at hattempt
    exact ⟨hrest.reader, hrest.depth, hattempt.result, hattempt.reader, hattempt.depth⟩
  · rcases hresult : (s.run finish).result with f | _
    · rw [((ends_finish s).of_result_error hresult).2.1]
      rfl
    · rw [(ends_finish s).of_result_ok hresult]

/-- A rule that reads a form and then does not match takes the cursor back in front of it. -/
theorem attempt_rewinds_behind_form :
    let s := ofBytes (Text.bytes "a b")
    let rule : Rule := .step .one false (.done (some .noMatch))
    (s.came rule).result = .error .noMatch ∧ (s.came rule).reader.pos = 1 ∧
      (s.perform (.attempt rule)).2.pos = 0 := by
  have hresult : ((ofBytes (Text.bytes "a b")).came
      (.step .one false (.done (some .noMatch)))).result = .error .noMatch := by rfl
  have hpos : ((ofBytes (Text.bytes "a b")).came
      (.step .one false (.done (some .noMatch)))).reader.pos = 1 := by rfl
  intro s rule
  have hrewound := ((attempt_rewinds s rule).2.1 hresult).2
  exact ⟨hresult, hpos, congrArg Cursor.pos hrewound.cursor⟩

end Reader

end FormReader
