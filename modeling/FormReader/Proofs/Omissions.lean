import FormReader.Proofs.Rules
import FormReader.Reader.Form

/-!
# What rules do not record

Few rules record anything. A move or a question leaves the record alone, a request records a
refusal, a choice records that it goes back, and only where a list is closed there is more to be
told. So if some sort of event is neither a refusal nor a step back, there is no event of this sort
from all that is done about atoms (`FormReader.Reader.omits_atom`); and none of the four rules for
atoms goes back at all. That a rule omits a sort of events (`FormReader.Reader.Omits`) is inherited
along sequences and choices.
-/

namespace FormReader

namespace Reader

variable {α β : Type} {sort : Event → Bool}

/-- **Omitting a sort of events**: however a rule ends, it has recorded none of them. -/
def Omits (sort : Event → Bool) (rule : ReadM α) : Prop :=
  ∀ s : Reader, Ends rule s (fun _ s' => s'.log.filter sort = s.log.filter sort)
    fun _ s' => s'.log.filter sort = s.log.filter sort

/-! ### Steps, sequences and choices -/

section Omits

variable {rule : ReadM α} {next : α → ReadM β}

theorem omits_pure (a : α) : Omits sort (pure a : ReadM α) := fun _ => rfl

theorem omits_throw (f : Failure) : Omits sort (throw f : ReadM α) := fun _ => rfl

theorem omits_get : Omits sort (get : ReadM Reader) := fun _ => rfl

theorem omits_found (found? : Option α) : Omits sort (found found?) := by
  rcases found? with _ | a
  · exact omits_throw _
  · exact omits_pure a

theorem omits_observe {e : Event} (he : sort e = false) : Omits sort (observe e) :=
  fun _ => List.filter_cons_of_neg (Bool.eq_false_iff.mp he)

theorem omits_scan (move : Cursor → Option Cursor) : Omits sort (scan move) := by
  intro s
  rw [ends_scan]
  rcases move s.cursor with _ | c
  · rfl
  · rfl

theorem omits_scanned (move : Cursor → Option Cursor) : Omits sort (scanned move) := by
  intro s
  rw [ends_scanned]
  rcases move s.cursor with _ | c
  · rfl
  · rfl

theorem omits_token : Omits sort token := by
  intro s
  rw [ends_token]
  rcases s.cursor.token? with _ | ⟨token, c⟩
  · rfl
  · rfl

theorem omits_slice (start stop : Nat) : Omits sort (slice start stop) := by
  intro s
  rw [ends_slice]
  rcases s.cursor.slice? start stop with _ | bytes
  · rfl
  · rfl

theorem omits_ask (hrefused : ∀ cause, sort (.refused cause) = false) (request : ArenaM α) :
    Omits sort (ask request) := by
  intro s
  rw [ends_ask]
  rcases request s.arena with ⟨a, arena⟩ | ⟨e, arena⟩
  · rfl
  · exact List.filter_cons_of_neg (Bool.eq_false_iff.mp (hrefused e))

theorem Omits.bind (h : Omits sort rule) (hnext : ∀ a, Omits sort (next a)) :
    Omits sort (rule >>= next) := by
  intro s
  rw [ends_bind]
  refine (h s).imp (fun a s' hs => ?_) fun f s' hs => hs
  exact (hnext a s').imp (fun _ _ hs' => hs'.trans hs) fun _ _ hs' => hs'.trans hs

theorem Omits.attempt (hrewinding : ∀ start target, sort (.rewinding start target) = false)
    (h : Omits sort rule) : Omits sort (Reader.attempt rule) := by
  intro s
  rw [ends_attempt]
  refine (h s).imp (fun a s' hs => hs) fun f s' hs => ?_
  split
  · exact (List.filter_cons_of_neg (Bool.eq_false_iff.mp (hrewinding _ _))).trans hs
  · exact hs

theorem Omits.choice (hrewinding : ∀ start target, sort (.rewinding start target) = false)
    {pick : Option α → ReadM β} (h : Omits sort rule) (hsome : ∀ a, Omits sort (pick (some a)))
    (hnone : Omits sort (pick none)) : Omits sort (Reader.attempt rule >>= pick) := by
  refine (h.attempt hrewinding).bind fun a? => ?_
  rcases a? with _ | a
  · exact hnone
  · exact hsome a

/-- What is done in one case may also be what is done at the end of the other. -/
theorem Omits.ite {rule' : ReadM α} {c : Prop} [Decidable c] (h : Omits sort rule)
    (h' : Omits sort rule → Omits sort rule') : Omits sort (if c then rule else rule') := by
  split
  · exact h
  · exact h' h

end Omits

/-! ### Rules that ask for nothing -/

theorem omits_blanks : Omits sort blanks := omits_scan _

theorem omits_number : Omits sort number :=
  omits_blanks.bind fun _ => omits_token.bind fun _ => omits_found _

theorem omits_boolean : Omits sort boolean := by
  refine omits_blanks.bind fun _ => (omits_scan _).bind fun _ =>
    (omits_scanned _).bind fun value => ?_
  -- whichever letter was passed, the token has to end behind it
  refine Omits.ite (omits_get.bind fun s => ?_) fun hend => (omits_scan _).bind fun _ => hend
  exact (omits_pure value).ite fun _ => omits_throw _

/-! ### Rules that ask for memory -/

section Refused

variable (hrefused : ∀ cause, sort (.refused cause) = false)

include hrefused

theorem omits_text (bytes : List Byte) : Omits sort (text bytes) :=
  (omits_found _).bind fun _ => omits_ask hrefused _

theorem omits_string : Omits sort string := by
  refine omits_blanks.bind fun _ => (omits_scan _).bind fun _ =>
    (omits_scanned _).bind fun isEmpty => (omits_pure "").ite fun _ => ?_
  exact omits_get.bind fun _ => (omits_scan _).bind fun _ => omits_get.bind fun _ =>
    (omits_scan _).bind fun _ => (omits_slice _ _).bind fun bytes => omits_text hrefused bytes

theorem omits_symbol : Omits sort symbol := by
  have hname : Omits sort
      (do
        let name ← token
        if name.isEmpty then throw .noMatch
        text name) := by
    refine omits_token.bind fun name => Omits.ite ?_ fun _ => omits_text hrefused name
    exact (omits_throw _).bind fun _ => omits_text hrefused name
  refine omits_blanks.bind fun _ => omits_get.bind fun s => ?_
  exact ((omits_throw _).bind fun _ => hname).ite fun _ => hname

/-- **An atom** is looked for without a word, but for refusals and steps back. -/
theorem omits_atom (hrewinding : ∀ start target, sort (.rewinding start target) = false) :
    Omits sort atom := by
  refine omits_number.choice hrewinding (fun _ => omits_pure _) ?_
  refine omits_boolean.choice hrewinding (fun _ => omits_pure _) ?_
  refine (omits_string hrefused).choice hrewinding (fun _ => omits_pure _) ?_
  exact (omits_symbol hrefused).choice hrewinding (fun _ => omits_pure _) (omits_throw _)

theorem omits_push (forms : Scratch Form) (form : Form) : Omits sort (push forms form) :=
  omits_ask hrefused _

theorem omits_link (forms : Scratch Form) : Omits sort (link forms) := omits_ask hrefused _

end Refused

end Reader

end FormReader
