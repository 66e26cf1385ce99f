import FormReader.Proofs.LeftOpen
import FormReader.Proofs.Omissions
import FormReader.Proofs.SideBySide
import FormReader.Proofs.Simulation

/-!
# Diagnoses name the open brackets and the real cause

When no form can be read, a reader has tried many things and gone back from all of them. What it
has recorded on the way about lists that are not closed is nevertheless exact. There is one cause
for each list that was open where the machine got stuck, from the innermost list to the outermost,
and no other (`FormReader.Reader.one_names_open_brackets`).

One failure leads to the next on the way out. A list forgets the item that failed, which was the
first in it or a later one, and tries to close itself in front of it. There it finds what the
item begins with, so it fails as well. The induction is on the room for lists, and its statement
is about readers in general: a form that is read leaves no cause behind, and one that is not leaves
the diagnoses of what is left open ahead (`FormReader.Reader.Tells`). Items end where the next one
fails, so the same can be said in front of the closing bracket of a list
(`FormReader.Reader.tells_optionalItems`).
-/

namespace FormReader

namespace Reader

variable {α β : Type}

/-- **The causes** that a reader has recorded why lists are not closed, latest first. -/
def causes (s : Reader) : List Event := s.log.filter Event.isCause

/-! ### Rules that tell no cause -/

/-- **Rules that tell no cause**, however they end. -/
def Silent (rule : ReadM α) : Prop :=
  ∀ s : Reader, Ends rule s (fun _ s' => s'.causes = s.causes) fun _ s' => s'.causes = s.causes

/-- A refusal is recorded, and so is going back, but neither is the cause why a list is not
closed. -/
theorem silent_atom : Silent atom := omits_atom (fun _ => rfl) fun _ _ => rfl

theorem silent_push (forms : Scratch Form) (form : Form) : Silent (push forms form) :=
  omits_push (fun _ => rfl) forms form

theorem silent_link (forms : Scratch Form) : Silent (link forms) := omits_link (fun _ => rfl) forms

/-! ### Closing a list -/

/-- **A list that is not closed** has a cause, which is what comes next behind the blanks. -/
theorem causes_closeBracket (bracket : Bracket) (s : Reader) :
    Ends (closeBracket bracket) s (fun _ s' => s'.causes = s.causes)
      (fun _ s' => s'.causes =
        cause bracket (s.pos + (s.cursor.rest.takeWhile Byte.isBlank).length)
          (behindBlanks s.cursor.rest) :: s.causes) := by
  rw [closeBracket, ends_bind, ends_scanned, Cursor.skipWhile?_isBlank]
  by_cases hrest : behindBlanks s.cursor.rest = []
  · rw [if_pos hrest, hrest]
    rfl
  rw [if_neg hrest]
  simp only [↓reduceIte, ends_bind, ends_scanned, Cursor.literal?_singleton,
    Cursor.rest_skipBlanks]
  by_cases hclosing : (behindBlanks s.cursor.rest).head? = some bracket.closing
  · rw [if_pos hclosing]
    rfl
  · rw [if_neg hclosing]
    obtain ⟨b, behind, hbehind⟩ := List.exists_cons_of_ne_nil hrest
    simp only [Bool.false_eq_true, ↓reduceIte, ends_bind, ends_get, Cursor.peek?,
      Cursor.rest_skipBlanks, hbehind, cause, List.head?_cons, Option.bind_some]
    rcases Bracket.ofClosing? b with _ | other
    · rfl
    · rfl

/-! ### What is left open -/

/-- **Telling what is left open** ahead of a cursor: the diagnoses of it have been added to the
causes that were recorded before. -/
def Tells (c : Cursor) (before after : List Event) : Prop :=
  ∃ opened stop ahead, LeftOpen none c.pos c.rest opened stop ahead ∧
    after = (diagnoses opened stop ahead).reverse ++ before

/-- A rule for a form that tells what is left open where it does not match, and nothing where it
does. -/
def TellsForm (rule : ReadM Form) : Prop :=
  ∀ s, Ends rule s (fun _ s' => s'.causes = s.causes)
    fun f s' => f = .noMatch → Tells s.cursor s.causes s'.causes

/-- A rule for the items of a list that tells what is left open behind them. -/
def TellsItems (nested : ReadM (List Form)) : Prop :=
  ∀ s, Ends nested s (fun _ s' => Tells s'.cursor s.causes s'.causes) fun f _ => f ≠ .noMatch

section Lists

variable {s : Reader} {before : List Event}

/-- A dead end tells nothing. -/
theorem tells_of_deadEnd (h : DeadEnd none (behindBlanks s.cursor.rest)) :
    Tells s.cursor s.causes s.causes := by
  obtain ⟨blanks, hblanks, hrest⟩ := exists_blanks s.cursor.rest
  have hopen : LeftOpen none s.cursor.pos (blanks ++ behindBlanks s.cursor.rest) [] _ _ :=
    .deadEnd hblanks h
  rw [← hrest] at hopen
  exact ⟨[], _, _, hopen, rfl⟩

/-- **Behind items** a list is closed, and then nothing was told, or it is left open, too. -/
theorem tells_closeBracket {blanks inner : List Byte} {items : List Form}
    {bracket : Bracket} {c : Cursor} (hblanks : allBlank blanks)
    (hrest : c.rest = blanks ++ bracket.opening :: (inner ++ s.cursor.rest))
    (hpos : s.pos = c.pos + blanks.length + 1 + inner.length)
    (hitems : ItemsLaidOut inner items s.cursor.rest) (htells : Tells s.cursor before s.causes) :
    Ends (closeBracket bracket) s (fun _ s' => s'.causes = before)
      fun f s' => f = .noMatch → Tells c before s'.causes := by
  obtain ⟨opened, stop, ahead, hopen, hcauses⟩ := htells
  refine ((ends_closeBracket bracket s).and (causes_closeBracket bracket s)).imp
    (fun _ s' h => ?_) fun f s' h _ => ?_
  · obtain ⟨⟨hclosing, -⟩, hs'⟩ := h
    rcases opened with _ | ⟨o, opened⟩
    · exact hs'.trans hcauses
    · -- an opening bracket does not close the list
      have hopening := hopen.of_cons.2
      rw [hclosing] at hopening
      have hboth := congrArg Bracket.ofClosing? (Option.some.inj hopening)
      rw [Bracket.ofClosing?_closing, Bracket.ofClosing?_opening] at hboth
      cases hboth
  · obtain ⟨⟨-, hclosing⟩, hs'⟩ := h
    refine ⟨⟨bracket, c.pos + blanks.length⟩ :: opened, stop, ahead, ?_, ?_⟩
    · rw [hrest]
      refine .inside hblanks hitems ?_
      rw [← hpos]
      exact hopen.inList hclosing
    · rw [hs', hcauses, hopen.diagnoses_cons, List.reverse_append]
      rfl

section Bracketed

variable {limit : Nat} {nested : ReadM (List Form)} (hsteady : Steady nested)
  (hread : ∀ s, Ends nested s (fun items s' => ReadsItems limit s items s') fun _ _ => True)
  (htells : TellsItems nested)

include hsteady hread htells

/-- **Inside of a list**, whose opening bracket stands behind blanks: its items are read, and then
it is closed or left open. -/
theorem tells_inside {c : Cursor} {blanks : List Byte} {bracket : Bracket}
    (hblanks : allBlank blanks) (hrest : c.rest = blanks ++ bracket.opening :: s.cursor.rest)
    (hpos : s.pos = c.pos + blanks.length + 1) (hrange : s.pos ≤ s.cursor.source.size) :
    Ends (do
        let items ← nested
        closeBracket bracket
        return Form.list items) s (fun _ s' => s'.causes = s.causes)
      fun f s' => f = .noMatch → Tells c s.causes s'.causes := by
  rw [ends_bind]
  refine (((hread s).and (hsteady s)).and (htells s)).imp (fun items s₁ h => ?_)
    fun f s' h hf => absurd hf h.2
  obtain ⟨⟨hitems, hfollows⟩, htold⟩ := h
  obtain ⟨inner, hinner, hlaidOut⟩ := hitems.layout
  have hahead : c.rest = blanks ++ bracket.opening :: (inner ++ s₁.cursor.rest) := by
    rw [hrest, hinner]
  have hbehind : s₁.pos = c.pos + blanks.length + 1 + inner.length := by
    rw [hfollows.pos_eq hrange hinner, hpos]
  rw [ends_bind]
  exact tells_closeBracket hblanks hahead hbehind hlaidOut htold

/-- **A list** tells what is left open, if its items tell what is left open behind them. -/
theorem tells_bracketed (hahead : atomAhead? (behindBlanks s.cursor.rest) = none) :
    Ends (bracketed nested) s (fun _ s' => s'.causes = s.causes)
      fun f s' => f = .noMatch → Tells s.cursor s.causes s'.causes := by
  have hblank : ∀ b ∈ (behindBlanks s.cursor.rest).head?, Byte.isBlank b = false := by
    intro b hb
    obtain ⟨behind, hrest⟩ := List.head?_eq_some_iff.mp hb
    exact isBlank_of_behindBlanks hrest
  rw [bracketed, ends_bind, ends_blanks]
  split
  · next hnil => exact fun _ => tells_of_deadEnd (deadEnd_none hblank (by rw [hnil]; rfl) hahead)
  rw [ends_bind, ends_openBracket, rest_skipBlanks]
  rcases hopening : (behindBlanks s.cursor.rest).head?.bind Bracket.ofOpening? with _ | bracket
  · exact fun _ => tells_of_deadEnd (deadEnd_none hblank hopening hahead)
  · obtain ⟨inside, hinside⟩ := exists_of_ofOpening? hopening
    obtain ⟨blanks, hblanks, hrest⟩ := exists_blanks s.cursor.rest
    let t : Reader := { s.skipBlanks with cursor := s.skipBlanks.cursor.advance 1 }
    have htake : s.cursor.rest.takeWhile Byte.isBlank = blanks := by
      rw [hrest]
      exact takeWhile_run_append hblanks hblank
    have hpos : t.pos = s.cursor.pos + blanks.length + 1 :=
      congrArg (fun taken : List Byte => s.cursor.pos + taken.length + 1) htake
    have hbehind : t.cursor.rest = inside := rest_past_first hinside
    have hlist : s.cursor.rest = blanks ++ bracket.opening :: t.cursor.rest := by
      rw [hbehind, ← hinside]
      exact hrest
    have hrange : t.pos ≤ t.cursor.source.size := by
      have hlength := congrArg List.length hlist
      rw [Cursor.length_rest, Cursor.left, List.length_append, List.length_cons] at hlength
      rw [hpos]
      change _ ≤ s.cursor.source.size
      omega
    exact tells_inside hsteady hread htells hblanks hlist hpos hrange

end Bracketed

end Lists

/-! ### Items -/

/-- Running out of memory is not a mismatch. -/
theorem exhausted_ne_noMatch (e : Exhausted) : Failure.exhausted e ≠ .noMatch := by
  intro h
  cases h

section Items

variable {room : Nat} {form : ReadM Form}
  (hread : ∀ s, Ends form s (fun t s' => Reads room s t s') fun _ _ => True)
  (htells : TellsForm form)

include hread htells

/-- **Gathering** ends where the next item fails, and this has told what is left open there. -/
theorem tells_gather {before : List Event} (forms : Scratch Form) {s : Reader}
    (hs : s.causes = before) :
    Ends (gather (attempt form) push forms) s (fun _ s' => Tells s'.cursor before s'.causes)
      fun f _ => f ≠ .noMatch := by
  have hround : Round (attempt form) push (fun _ s => s.causes = before)
      (fun _ s' => Tells s'.cursor before s'.causes) fun f _ => f ≠ .noMatch := by
    intro forms s hs
    rw [ends_attempt]
    refine ((hread s).and (htells s)).imp (fun t s₁ h => ?_) fun f s₁ h => ?_
    · refine ((ends_push forms t s₁).and (silent_push forms t s₁)).imp (fun forms' s₂ h₂ => ?_)
        fun f s₂ h₂ => ?_
      · obtain ⟨⟨-, hcursor, -⟩, hcauses⟩ := h₂
        refine ⟨hcauses.trans (h.2.trans hs), Or.inl ?_⟩
        rw [hcursor]
        exact h.1.left_lt
      · obtain ⟨⟨⟨e, rfl⟩, -⟩, -⟩ := h₂
        exact exhausted_ne_noMatch e
    · split
      · next hf => exact hs ▸ h.2 hf
      · next hf => exact hf
  exact Ends.gather hround forms s hs

/-- **The items of a list** tell what is left open behind them, if forms do. -/
theorem tells_optionalItems : TellsItems (optionalItems form) := by
  intro s
  rw [optionalItems, items_eq_linkedItems, ends_bind, ends_attempt, linkedItems, ends_bind]
  refine (htells s).imp (fun t s₁ h₁ => ?_) fun f s' h => ?_
  · -- there is a first item, and then there are those that are gathered behind it
    have hfatal {f : Failure} {s' : Reader} (hf : ∃ e, f = .exhausted e) :
        if f = .noMatch then Ends (pure (none.getD []) : ReadM (List Form)) (s'.rewind s.cursor)
          (fun _ s' => Tells s'.cursor s.causes s'.causes) (fun f _ => f ≠ .noMatch)
        else f ≠ .noMatch := by
      obtain ⟨e, rfl⟩ := hf
      rw [if_neg (exhausted_ne_noMatch e)]
      exact exhausted_ne_noMatch e
    rw [ends_bind]
    refine ((ends_push _ t s₁).and (silent_push _ t s₁)).imp (fun forms s₂ h₂ => ?_)
      fun f s₂ h₂ => hfatal h₂.1.1
    rw [ends_bind]
    refine (tells_gather hread htells forms (h₂.2.trans h₁)).imp (fun forms' s₃ h₃ => ?_)
      fun f s₃ hf => ?_
    · refine ((ends_link forms' s₃).and (silent_link forms' s₃)).imp (fun items s₄ h₄ => ?_)
        fun f s₄ h₄ => hfatal h₄.1.1
      obtain ⟨⟨-, hcursor, -⟩, hcauses⟩ := h₄
      rw [ends_pure, hcursor, hcauses]
      exact h₃
    · rw [if_neg hf]
      exact hf
  · -- the first item fails, and the list goes on in front of it
    split
    · next hf => exact h hf
    · next hf => exact hf

end Items

/-! ### Forms -/

theorem tells_refuseNesting : TellsItems refuseNesting := by
  intro s h
  cases h

/-- **A form** tells what is left open, if what stands between the brackets does in case it is a
list. -/
theorem tells_element {limit : Nat} {nested : ReadM (List Form)} (hsteady : Steady nested)
    (hread : ∀ s, Ends nested s (fun items s' => ReadsItems limit s items s') fun _ _ => True)
    (htells : TellsItems nested) : TellsForm (element nested) := by
  intro s
  rw [element, ends_bind, ends_attempt]
  refine ((scans_atom s).and (silent_atom s)).imp (fun a s' h => h.2) fun f s' h => ?_
  obtain ⟨⟨e, rfl⟩ | ⟨rfl, hahead⟩, hcauses⟩ := h
  · rw [if_neg (exhausted_ne_noMatch e)]
    exact fun h => absurd h (exhausted_ne_noMatch e)
  · -- the cursor is back where the atom was looked for
    rw [if_pos rfl]
    have hback : (s'.rewind s.cursor).causes = s.causes := hcauses
    have hlist := tells_bracketed hsteady hread htells (s := s'.rewind s.cursor) hahead
    rw [hback] at hlist
    exact hlist

/-- **What is left open** ahead of a reader is told where no form is read, with any room. -/
theorem tells_form (room : Nat) : TellsForm (form room) := by
  induction room with
  | zero => exact tells_element steady_refuseNesting reads_refuseNesting tells_refuseNesting
  | succ room ih =>
    exact tells_element (steady_form room).optionalItems
      (reads_optionalItems (steady_form room) (reads_form room))
      (tells_optionalItems (reads_form room) ih)

theorem tells_one : TellsForm one := by
  intro s
  rw [one, ends_bind, ends_get, ends_bind, ends_attempt]
  refine (tells_form s.config.maxDepth s).imp (fun t s' h => h) fun f s' h => ?_
  split
  · next hf => exact fun _ => h hf
  · next hf => exact fun h => absurd h hf

/-- **Diagnoses name the open brackets and the real cause.** Where memory is not limited and no form
matches, there is exactly one way to tell which lists are left open ahead of the reader and where
the dead end is. The machine, which reads ahead in a single pass, ends there with the same lists
open. The causes that the reader has recorded are the diagnoses of this, so there is one for each
list that is left open, from the innermost to the outermost, and it names the bracket that was
expected. -/
theorem one_names_open_brackets (s : Reader) (hs : s.arena.Unlimited)
    (hone : (s.run one).result = .error .noMatch) :
    ∃ (opened : List OpenBracket) (stop : Nat) (ahead : List Byte),
      LeftOpen none s.pos s.cursor.rest opened stop ahead ∧
      (∀ (opened' : List OpenBracket) (stop' : Nat) (ahead' : List Byte),
        LeftOpen none s.pos s.cursor.rest opened' stop' ahead' →
          opened' = opened ∧ stop' = stop ∧ ahead' = ahead) ∧
      opened.Pairwise (fun o o' => o.pos < o'.pos) ∧
      (∃ frames : List Frame,
        Forward.run s.config.maxDepth ⟨s.pos, s.cursor.rest, []⟩ =
          (.error .noMatch, ⟨stop, ahead, frames⟩) ∧
        frames.map Frame.opened = opened.reverse) ∧
      ∃ own : List Event,
        (s.run one).reader.events = s.events ++ own ∧
        own.filter Event.isCause = diagnoses opened stop ahead ∧
        (own.filter Event.isCause).map Event.expected? =
          opened.reverse.map fun o => some o.bracket := by
  obtain ⟨opened, stop, ahead, hopen, hcauses⟩ := (tells_one s).of_result_error hone rfl
  -- the machine ends in every dead end that is told of
  have hends : ∀ {opened' : List OpenBracket} {stop' : Nat} {ahead' : List Byte},
      LeftOpen none s.pos s.cursor.rest opened' stop' ahead' →
      ∃ frames : List Frame, Forward.run s.config.maxDepth ⟨s.pos, s.cursor.rest, []⟩ =
          (.error .noMatch, ⟨stop', ahead', frames⟩) ∧
        frames.map Frame.opened = opened'.reverse := by
    intro opened' stop' ahead' hopen'
    rcases Forward.run_leftOpen hopen' [] rfl with ⟨frames, hrun, hframes⟩ | ⟨m, hrun⟩
    · exact ⟨frames, hrun, hframes.trans (List.append_nil _)⟩
    · have hresult := result_one hs
      change _ = (Forward.run s.config.maxDepth ⟨s.pos, s.cursor.rest, []⟩).1 at hresult
      rw [hone, hrun] at hresult
      cases hresult
  obtain ⟨frames, hrun, hframes⟩ := hends hopen
  refine ⟨opened, stop, ahead, hopen, ?_, hopen.pairwise_pos, ⟨frames, hrun, hframes⟩, ?_⟩
  · intro opened' stop' ahead' hopen'
    obtain ⟨frames', hrun', hframes'⟩ := hends hopen'
    rw [hrun] at hrun'
    cases hrun'
    exact ⟨List.reverse_injective (hframes'.symm.trans hframes), rfl, rfl⟩
  · obtain ⟨later, hlater⟩ := (steady_one.follows_run s).log
    have hown : later.reverse.filter Event.isCause = diagnoses opened stop ahead := by
      rw [causes, ← hlater, List.filter_append] at hcauses
      rw [List.filter_reverse, List.append_cancel_right hcauses, List.reverse_reverse]
    refine ⟨later.reverse, ?_, hown, ?_⟩
    · rw [events, events, ← hlater, List.reverse_append]
    · rw [hown, map_expected?_diagnoses]

/-- Two lists that cross: the inner one is closed by the bracket of the outer one, and what is in
the way of the outer one is that the inner one begins. -/
theorem one_names_crossed_brackets :
    let s := ofBytes (Text.bytes "(a [)")
    s.arena.Unlimited ∧ (s.run one).result = .error .noMatch ∧
      (s.run one).reader.events.filter Event.isCause =
        [.mismatched 4 .square .round, .unparsable 3 .round] := by
  intro s
  have hrun : Forward.run s.config.maxDepth ⟨s.pos, s.cursor.rest, []⟩ =
      (.error .noMatch, ⟨4, Text.bytes ")",
        [⟨.square, 3, []⟩, ⟨.round, 0, [.atom (.symbol "a")]⟩]⟩) := by
    rw [Forward.run_eq]
    change Forward.run 256 ⟨1, Text.bytes "a [)", [⟨.round, 0, []⟩]⟩ = _
    rw [Forward.run_eq]
    change Forward.run 256 ⟨2, Text.bytes " [)", [⟨.round, 0, [.atom (.symbol "a")]⟩]⟩ = _
    rw [Forward.run_eq]
    change Forward.run 256 ⟨4, Text.bytes ")",
      [⟨.square, 3, []⟩, ⟨.round, 0, [.atom (.symbol "a")]⟩]⟩ = _
    rw [Forward.run_eq]
    rfl
  have hresult : (s.run one).result = .error .noMatch :=
    (result_one Arena.unlimited_default).trans (congrArg Prod.fst hrun)
  obtain ⟨opened, stop, ahead, -, -, -, ⟨frames, hends, hframes⟩, own, hevents, hown, -⟩ :=
    one_names_open_brackets s Arena.unlimited_default hresult
  rw [hrun] at hends
  cases hends
  have hopened : opened = [⟨.round, 0⟩, ⟨.square, 3⟩] := List.reverse_injective hframes.symm
  refine ⟨Arena.unlimited_default, hresult, ?_⟩
  rw [hevents]
  change own.filter Event.isCause = _
  rw [hown, hopened]
  rfl

end Reader

end FormReader
