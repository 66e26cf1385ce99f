import FormReader.Proofs.SideBySide
import FormReader.Reader.Source

/-!
# Changes that rules do not see

A rule looks at very little of a reader: where its cursor stands, and its settings. Besides it may
ask for memory. So there are changes to a reader that a rule overlooks. It comes to the same
whether the change is made before the rule is run or behind it
(`FormReader.Reader.Overlooks`).

There are two sorts of them. A change that leaves the cursor and the settings alone
(`FormReader.Reader.Unseen`) is overlooked by every rule that does not ask for memory, so the arena
may be replaced. A change that leaves the arena alone as well (`FormReader.Reader.Irrelevant`) is
overlooked by all rules, so it makes no difference to them whether iteration has halted. In
contrast to a comparison of two readers (`FormReader.Reader.KeepPace`) nothing has to be supposed
of memory.
-/

namespace FormReader

/-- An outcome with a change to the reader. -/
def Outcome.changed {α : Type} (o : Outcome α) (change : Reader → Reader) : Outcome α :=
  { o with reader := change o.reader }

namespace Reader

variable {α β : Type} {change : Reader → Reader}

/-- **Unseen changes** leave the cursor and the settings alone, and do not get in the way of a move
or a record. -/
structure Unseen (change : Reader → Reader) : Prop where
  cursor : ∀ s : Reader, (change s).cursor = s.cursor
  config : ∀ s : Reader, (change s).config = s.config
  move : ∀ (s : Reader) (cursor : Cursor), change { s with cursor } = { change s with cursor }
  record : ∀ (s : Reader) (e : Event), change (s.record e) = (change s).record e

/-- **Irrelevant changes** leave the arena alone, too, and do not get in the way of a request. -/
structure Irrelevant (change : Reader → Reader) : Prop extends Unseen change where
  arena : ∀ s : Reader, (change s).arena = s.arena
  request : ∀ (s : Reader) (arena : Arena), change { s with arena } = { change s with arena }

theorem Unseen.rewind (hchange : Unseen change) (s : Reader) (cursor : Cursor) :
    (change s).rewind cursor = change (s.rewind cursor) := by
  rw [Reader.rewind, hchange.cursor]
  have hmoved := congrArg (Reader.record (.rewinding s.cursor.pos cursor.pos))
    (hchange.move s cursor).symm
  exact hmoved.trans (hchange.record _ _).symm

/-- **Overlooking a change**: a rule comes to the same before and behind it. -/
def Overlooks (change : Reader → Reader) (rule : ReadM α) : Prop :=
  ∀ s : Reader, (change s).run rule = (s.run rule).changed change

/-! ### Sequences, choices and repetitions -/

section Composition

variable {rule : ReadM α} {next : α → ReadM β}

theorem overlooks_pure (a : α) : Overlooks change (pure a : ReadM α) := fun _ => rfl

theorem overlooks_throw (f : Failure) : Overlooks change (throw f : ReadM α) := fun _ => rfl

theorem overlooks_found (found? : Option α) : Overlooks change (found found?) := by
  rcases found? with _ | a
  · exact overlooks_throw _
  · exact overlooks_pure a

theorem Overlooks.bind (h : Overlooks change rule) (hnext : ∀ a, Overlooks change (next a)) :
    Overlooks change (rule >>= next) := by
  intro s
  rw [run_bind, run_bind, h s]
  rcases s.run rule with ⟨f | a, s'⟩
  · rfl
  · exact hnext a s'

/-- A rule may look at the reader, but not at what is changed. -/
theorem Overlooks.look {next : Reader → ReadM α} (hsame : ∀ s, next (change s) = next s)
    (hnext : ∀ s, Overlooks change (next s)) : Overlooks change (get >>= next) := by
  intro s
  change (change s).run (next (change s)) = (s.run (next s)).changed change
  rw [hsame]
  exact hnext s s

/-- What is done in one case may also be what is done at the end of the other. -/
theorem Overlooks.ite {rule' : ReadM α} {c : Prop} [Decidable c] (h : Overlooks change rule)
    (h' : Overlooks change rule → Overlooks change rule') :
    Overlooks change (if c then rule else rule') := by
  split
  · exact h
  · exact h' h

variable (hchange : Unseen change)

include hchange

theorem Overlooks.attempt (h : Overlooks change rule) :
    Overlooks change (Reader.attempt rule) := by
  intro s
  rw [run_attempt, run_attempt, h s]
  rcases s.run rule with ⟨f | a, s'⟩
  · by_cases hf : f = .noMatch
    · have hrewind : (change s').rewind (change s).cursor = change (s'.rewind s.cursor) := by
        rw [hchange.cursor]
        exact hchange.rewind s' s.cursor
      simp only [Outcome.changed, if_pos hf, hrewind]
    · simp only [Outcome.changed, if_neg hf]
  · rfl

theorem Overlooks.choice {pick : Option α → ReadM β} (h : Overlooks change rule)
    (hsome : ∀ a, Overlooks change (pick (some a))) (hnone : Overlooks change (pick none)) :
    Overlooks change (Reader.attempt rule >>= pick) := by
  refine (h.attempt hchange).bind fun a? => ?_
  rcases a? with _ | a
  · exact hnone
  · exact hsome a

/-- **Repetitions** go through the same rounds, since the cursors are the same. -/
theorem Overlooks.gather {next : ReadM (Option β)} {keep : α → β → ReadM α}
    (hnext : Overlooks change next) (hkeep : ∀ acc item, Overlooks change (keep acc item))
    (acc : α) : Overlooks change (Reader.gather next keep acc) := by
  have hone (acc : α) : Overlooks change (gatherOne next keep acc) := by
    refine hnext.bind fun item? => ?_
    rcases item? with _ | item
    · exact overlooks_pure _
    · exact (hkeep acc item).bind fun _ => overlooks_pure _
  intro s
  induction hn : s.cursor.left using Nat.strongRecOn generalizing s acc with
  | ind n ih =>
    subst hn
    rw [run_gather, run_gather, hone acc s]
    rcases s.run (gatherOne next keep acc) with ⟨f | ⟨acc', more⟩, s'⟩
    · rfl
    · simp only [Outcome.changed, hchange.cursor]
      split
      · next hgo => exact ih _ hgo.2 acc' s' rfl
      · rfl

end Composition

/-! ### Without memory -/

section Unseen

variable (hchange : Unseen change)

include hchange

theorem overlooks_observe (e : Event) : Overlooks change (observe e) := by
  intro s
  change (⟨.ok (), (change s).record e⟩ : Outcome Unit) = ⟨.ok (), change (s.record e)⟩
  rw [hchange.record]

theorem overlooks_scan (move : Cursor → Option Cursor) : Overlooks change (scan move) := by
  intro s
  rw [run, run, scan, scan, hchange.cursor]
  rcases move s.cursor with _ | c
  · rfl
  · exact congrArg (Outcome.mk _) (hchange.move s c).symm

theorem overlooks_scanned (move : Cursor → Option Cursor) : Overlooks change (scanned move) := by
  intro s
  rw [run, run, scanned, scanned, hchange.cursor]
  rcases move s.cursor with _ | c
  · rfl
  · exact congrArg (Outcome.mk _) (hchange.move s c).symm

theorem overlooks_token : Overlooks change token := by
  intro s
  rw [run, run, token, token, hchange.cursor]
  rcases s.cursor.token? with _ | ⟨token, c⟩
  · rfl
  · exact congrArg (Outcome.mk _) (hchange.move s c).symm

theorem overlooks_slice (start stop : Nat) : Overlooks change (slice start stop) := by
  intro s
  rw [run, run, slice, slice, hchange.cursor]
  rcases s.cursor.slice? start stop with _ | bytes
  · rfl
  · rfl

theorem overlooks_blanks : Overlooks change blanks := overlooks_scan hchange _

theorem overlooks_number : Overlooks change number :=
  (overlooks_blanks hchange).bind fun _ => (overlooks_token hchange).bind fun _ =>
    overlooks_found _

theorem overlooks_boolean : Overlooks change boolean := by
  refine (overlooks_blanks hchange).bind fun _ => (overlooks_scan hchange _).bind fun _ =>
    (overlooks_scanned hchange _).bind fun value => ?_
  -- whichever letter was passed, the token has to end behind it
  refine Overlooks.ite (Overlooks.look (fun s => by rw [hchange.cursor]) fun s => ?_) fun hend =>
    (overlooks_scan hchange _).bind fun _ => hend
  exact (overlooks_pure value).ite fun _ => overlooks_throw _

theorem overlooks_openBracket : Overlooks change openBracket :=
  Overlooks.look (fun s => by rw [hchange.cursor]) fun _ => (overlooks_found _).bind fun _ =>
    (overlooks_scan hchange _).bind fun _ => overlooks_pure _

theorem overlooks_closeBracket (bracket : Bracket) : Overlooks change (closeBracket bracket) := by
  have hfail (e : Event) : Overlooks change (do observe e; throw .noMatch : ReadM Unit) :=
    (overlooks_observe hchange e).bind fun _ => overlooks_throw _
  refine (overlooks_scanned hchange _).bind fun more => Overlooks.ite ?_ fun hclose =>
    (overlooks_observe hchange _).bind fun _ => (overlooks_throw _).bind fun _ => hclose
  refine (overlooks_scanned hchange _).bind fun closed => (overlooks_pure _).ite fun _ => ?_
  refine Overlooks.look (fun s => by rw [pos, pos, hchange.cursor]) fun s => ?_
  dsimp only
  split
  · exact hfail _
  · exact hfail _

theorem overlooks_refuseNesting : Overlooks change refuseNesting :=
  Overlooks.look (fun s => by rw [hchange.config]) fun _ =>
    (overlooks_observe hchange _).bind fun _ => overlooks_throw _

theorem overlooks_finish : Overlooks change finish :=
  Overlooks.look (fun s => by rw [pos, pos, hchange.cursor]) fun _ =>
    (overlooks_pure ()).ite fun _ =>
      (overlooks_observe hchange _).bind fun _ => overlooks_throw _

end Unseen

/-! ### With memory -/

section Irrelevant

variable (hchange : Irrelevant change)

include hchange

theorem overlooks_ask (request : ArenaM α) : Overlooks change (ask request) := by
  intro s
  rw [run, run, ask, ask, hchange.arena]
  rcases request s.arena with ⟨a, arena⟩ | ⟨e, arena⟩
  · exact congrArg (Outcome.mk _) (hchange.request s arena).symm
  · have hrecorded := congrArg (record (.refused e)) (hchange.request s arena).symm
    exact congrArg (Outcome.mk _) (hrecorded.trans (hchange.record _ _).symm)

theorem overlooks_text (bytes : List Byte) : Overlooks change (text bytes) :=
  (overlooks_found _).bind fun _ => overlooks_ask hchange _

theorem overlooks_string : Overlooks change string := by
  have hscan := overlooks_scan hchange.toUnseen
  refine (overlooks_blanks hchange.toUnseen).bind fun _ => (hscan _).bind fun _ =>
    (overlooks_scanned hchange.toUnseen _).bind fun isEmpty => (overlooks_pure "").ite fun _ => ?_
  refine Overlooks.look (fun s => by simp only [pos, hchange.cursor]) fun _ =>
    (hscan _).bind fun _ => ?_
  refine Overlooks.look (fun s => by simp only [pos, hchange.cursor]) fun _ =>
    (hscan _).bind fun _ => ?_
  exact (overlooks_slice hchange.toUnseen _ _).bind fun bytes => overlooks_text hchange bytes

theorem overlooks_symbol : Overlooks change symbol := by
  have hname : Overlooks change
      (do
        let name ← token
        if name.isEmpty then throw .noMatch
        text name) := by
    refine (overlooks_token hchange.toUnseen).bind fun name =>
      Overlooks.ite ?_ fun _ => overlooks_text hchange name
    exact (overlooks_throw _).bind fun _ => overlooks_text hchange name
  refine (overlooks_blanks hchange.toUnseen).bind fun _ =>
    Overlooks.look (fun s => by rw [hchange.cursor]) fun s => ?_
  exact ((overlooks_throw _).bind fun _ => hname).ite fun _ => hname

theorem overlooks_atom : Overlooks change atom := by
  have hunseen := hchange.toUnseen
  refine (overlooks_number hunseen).choice hunseen (fun _ => overlooks_pure _) ?_
  refine (overlooks_boolean hunseen).choice hunseen (fun _ => overlooks_pure _) ?_
  refine (overlooks_string hchange).choice hunseen (fun _ => overlooks_pure _) ?_
  exact (overlooks_symbol hchange).choice hunseen (fun _ => overlooks_pure _) (overlooks_throw _)

theorem overlooks_push (forms : Scratch Form) (form : Form) :
    Overlooks change (push forms form) := overlooks_ask hchange _

theorem overlooks_link (forms : Scratch Form) : Overlooks change (link forms) :=
  overlooks_ask hchange _

theorem Overlooks.optionalItems {form : ReadM Form} (h : Overlooks change form) :
    Overlooks change (optionalItems form) := by
  have hunseen := hchange.toUnseen
  have hlinked : Overlooks change (linkedItems form) :=
    h.bind fun _ => (overlooks_push hchange _ _).bind fun forms =>
      ((h.attempt hunseen).gather hunseen (overlooks_push hchange) forms).bind
        (overlooks_link hchange)
  exact ((hlinked.bind fun _ => overlooks_found _).attempt hunseen).bind fun _ => overlooks_pure _

theorem Overlooks.element {nested : ReadM (List Form)} (h : Overlooks change nested) :
    Overlooks change (element nested) := by
  have hunseen := hchange.toUnseen
  refine (overlooks_atom hchange).choice hunseen (fun _ => overlooks_pure _) ?_
  exact (overlooks_blanks hunseen).bind fun _ => (overlooks_openBracket hunseen).bind fun bracket =>
    h.bind fun _ => (overlooks_closeBracket hunseen bracket).bind fun _ => overlooks_pure _

/-- **Reading a form** overlooks what is irrelevant. -/
theorem overlooks_form (room : Nat) : Overlooks change (form room) := by
  induction room with
  | zero => exact (overlooks_refuseNesting hchange.toUnseen).element hchange
  | succ room ih => exact (ih.optionalItems hchange).element hchange

/-! ### Sources -/

theorem overlooks_one : Overlooks change one :=
  Overlooks.look (fun s => by rw [hchange.config]) fun _ =>
    ((overlooks_form hchange _).attempt hchange.toUnseen).bind fun _ => overlooks_found _

theorem overlooks_whole : Overlooks change whole :=
  (overlooks_one hchange).bind fun _ => (overlooks_finish hchange.toUnseen).bind fun _ =>
    overlooks_pure _

theorem overlooks_oneMore : Overlooks change oneMore :=
  Overlooks.look (fun s => by rw [hchange.cursor]) fun _ => (overlooks_pure none).ite fun _ =>
    (overlooks_one hchange).bind fun _ => overlooks_pure _

theorem overlooks_all : Overlooks change all :=
  ((overlooks_oneMore hchange).gather hchange.toUnseen (overlooks_push hchange) _).bind
    (overlooks_link hchange)

end Irrelevant

end Reader

end FormReader
