import FormReader.Proofs.Omissions
import FormReader.Proofs.SideBySide
import FormReader.Proofs.Tallies
import FormReader.Rewinds

/-!
# The cost of going back

A rule that fails may have gone a long way before it does, and what it went past is looked at
again by the next one. Nothing keeps a reader from doing this at every level of a list, where it
would soon be too much. It does not happen: going back costs a reader no more than six steps for
each byte ahead and six more, whether there is a form or not, and if there is one the number of
steps is the tally `FormReader.Form.rewinds` of it (`FormReader.Reader.rewinds_determined`).

The reason is that a list which fails is not looked at again. The item that fails there is the last
one, and what comes in its place are the brackets around it, which do not go on looking either. So
two things have to be known of what is read between brackets. Whatever follows, the items
have cost no more than their bytes pay for, the one that was not there included
(`FormReader.Reader.Searched.le`); and if what follows is the end of the list, it took exactly six
steps to find that there are no more of them (`FormReader.Reader.Searched.eq`). The first is a
potential: every form that is read pays for itself out of the bytes that it takes
(`FormReader.Reader.Balanced.paid`), and as the bytes ahead are those that have not paid yet, what
fails can be charged to all of them.
-/

namespace FormReader

/-- An atom does not cost more than a byte pays for. -/
theorem Atom.rewinds_le (a : Atom) : a.rewinds ≤ 6 := by
  cases a with
  | number _ => exact Nat.zero_le 6
  | boolean _ => exact Nat.le_add_left 1 5
  | string _ => exact Nat.le_add_left 2 4
  | symbol _ => exact Nat.le_add_left 3 3

namespace Reader

variable {α : Type} {s s₁ s₂ : Reader}

/-- **A form pays for itself** out of the bytes that it takes. -/
theorem Reads.rewinds_le {limit : Nat} {t : Form} (h : Reads limit s t s₁) :
    t.rewinds + 6 * s₁.cursor.left ≤ 6 * s.cursor.left :=
  h.tally_le Atom.rewinds_le (Nat.le_add_left 11 1)

/-! ### Steps back -/

/-- How often a reader has gone back so far. -/
def rewinds (s : Reader) : Nat := s.log.countP Event.isRewinding

theorem rewinds_rewind (c : Cursor) (s : Reader) : (s.rewind c).rewinds = s.rewinds + 1 :=
  List.countP_cons_of_pos rfl

theorem Omits.rewinds_eq {rule : ReadM α} (h : Omits Event.isRewinding rule) (s : Reader) :
    Ends rule s (fun _ s' => s'.rewinds = s.rewinds) fun _ s' => s'.rewinds = s.rewinds := by
  have hcount : ∀ s' : Reader, s'.log.filter Event.isRewinding = s.log.filter Event.isRewinding →
      s'.rewinds = s.rewinds := by
    intro s' hs
    rw [rewinds, rewinds, List.countP_eq_length_filter, List.countP_eq_length_filter, hs]
  exact (h s).imp (fun _ s' => hcount s') fun _ s' => hcount s'

/-- A list is closed, or is not, without going back. -/
theorem omits_closeBracket (bracket : Bracket) :
    Omits Event.isRewinding (closeBracket bracket) := by
  refine (omits_scanned _).bind fun more => ?_
  dsimp only
  refine Omits.ite ((omits_scanned _).bind fun closed => ?_) fun hclose => ?_
  · refine (omits_pure _).ite fun _ => omits_get.bind fun s => ?_
    split
    · exact (omits_observe rfl).bind fun _ => omits_throw _
    · exact (omits_observe rfl).bind fun _ => omits_throw _
  · exact (omits_observe rfl).bind fun _ => (omits_throw _).bind fun _ => hclose

/-! ### Atoms -/

/-- **Trying sorts from a place on.** The sorts before the one that is found cost a step each, and
where none is found all of them do. -/
def TriesFrom (place : Nat) (rule : ReadM Atom) : Prop :=
  ∀ s : Reader, Ends rule s (fun a s' => s'.rewinds + place = s.rewinds + a.rewinds)
    fun f s' => s'.rewinds + place ≤ s.rewinds + 4 ∧
      (f = .noMatch → s'.rewinds + place = s.rewinds + 4)

/-- A sort that is not found costs a step, and then those that come behind it are tried. -/
theorem TriesFrom.orElse {place : Nat} {rule : ReadM α} {sort : α → Atom}
    {pick : Option α → ReadM Atom} (homits : Omits Event.isRewinding rule) (hle : place ≤ 4)
    (hplace : ∀ a, (sort a).rewinds = place) (hsome : ∀ a, pick (some a) = pure (sort a))
    (hnone : TriesFrom (place + 1) (pick none)) : TriesFrom place (attempt rule >>= pick) := by
  intro s
  rw [ends_bind, ends_attempt]
  refine (homits.rewinds_eq s).imp (fun a s' hs => ?_) fun f s' hs => ?_
  · rw [hsome, ends_pure, hplace, hs]
  · split
    · have hback := rewinds_rewind s.cursor s'
      refine (hnone (s'.rewind s.cursor)).imp (fun a s'' h => ?_) fun f s'' h => ⟨?_, fun hf => ?_⟩
      · omega
      · have hall := h.1
        omega
      · have hall := h.2 hf
        omega
    · next hf => exact ⟨by omega, fun h => absurd h hf⟩

/-- **An atom** costs a step for each sort before its own. -/
theorem triesFrom_atom : TriesFrom 0 atom := by
  have hrefused (cause : Exhausted) : (Event.refused cause).isRewinding = false := rfl
  refine TriesFrom.orElse omits_number (Nat.zero_le 4) (fun _ => rfl) (fun _ => rfl) ?_
  refine TriesFrom.orElse omits_boolean (Nat.le_add_left 1 3) (fun _ => rfl) (fun _ => rfl) ?_
  refine TriesFrom.orElse (omits_string hrefused) (Nat.le_add_left 2 2) (fun _ => rfl)
    (fun _ => rfl) ?_
  refine TriesFrom.orElse (omits_symbol hrefused) (Nat.le_add_left 3 1) (fun _ => rfl)
    (fun _ => rfl) ?_
  exact fun s => ⟨Nat.le_refl _, fun _ => rfl⟩

/-! ### What is known of forms and items -/

/-- A list may end here: what comes next behind the blanks is a closing bracket. -/
def ClosesAhead (s : Reader) : Prop :=
  ∃ bracket : Bracket, (behindBlanks s.cursor.rest).head? = some bracket.closing

/-- **Going back for a form.** What is read costs its tally. What fails is charged to the bytes
ahead, but for what it costs to find a closing bracket in place of a form. -/
def GoesBack (form : ReadM Form) : Prop :=
  ∀ s : Reader, Ends form s (fun t s' => s'.rewinds = s.rewinds + t.rewinds)
    fun f s' => s'.rewinds ≤ s.rewinds + 6 * s.cursor.left + 5 ∧
      (f = .noMatch → ClosesAhead s → s'.rewinds = s.rewinds + 5)

/-- **Items have been looked for**, until there were no more of them. -/
structure Searched (s : Reader) (items : List Form) (s' : Reader) : Prop where
  le : s'.rewinds ≤ s.rewinds + 6 * s.cursor.left + 6
  eq : ClosesAhead s' → s'.rewinds = s.rewinds + 6 + Form.tallyOfItems Atom.rewinds 11 items

/-- **Going back for items.** -/
def ItemsGoBack (nested : ReadM (List Form)) : Prop :=
  ∀ s : Reader, Ends nested s (fun items s' => Searched s items s')
    fun _ s' => s'.rewinds ≤ s.rewinds + 6 * s.cursor.left + 6

/-- **Balance**: what the items so far have cost is their tally, and the bytes that were passed have
paid for it. -/
structure Balanced (s : Reader) (items : List Form) (s' : Reader) : Prop where
  eq : s'.rewinds = s.rewinds + Form.tallyOfItems Atom.rewinds 11 items
  paid : s'.rewinds + 6 * s'.cursor.left ≤ s.rewinds + 6 * s.cursor.left

section Balanced

variable {items : List Form}

theorem Searched.congr (h : Searched s items s₁) (hrewinds : s₂.rewinds = s₁.rewinds)
    (hcursor : s₂.cursor = s₁.cursor) : Searched s items s₂ := by
  refine ⟨hrewinds ▸ h.le, fun hcloses => hrewinds.trans (h.eq ?_)⟩
  rw [ClosesAhead, hcursor] at hcloses
  exact hcloses

theorem Balanced.congr (h : Balanced s items s₁) (hrewinds : s₂.rewinds = s₁.rewinds)
    (hcursor : s₂.cursor = s₁.cursor) : Balanced s items s₂ := by
  refine ⟨hrewinds.trans h.eq, ?_⟩
  rw [hrewinds, hcursor]
  exact h.paid

theorem balanced_nil (s : Reader) : Balanced s [] s := by
  refine ⟨?_, Nat.le_refl _⟩
  rw [Form.tallyOfItems_nil, Nat.add_zero]

/-- A form that pays for itself may be added to those before it. -/
theorem Balanced.snoc {limit : Nat} {t : Form} (h : Balanced s items s₁)
    (hread : Reads limit s₁ t s₂) (hrewinds : s₂.rewinds = s₁.rewinds + t.rewinds) :
    Balanced s (items ++ [t]) s₂ := by
  have hcharged := hread.rewinds_le
  have hpaid := h.paid
  refine ⟨?_, by omega⟩
  rw [Form.tallyOfItems_concat, ← Nat.add_assoc, ← h.eq]
  exact hrewinds

/-- **The item that is not there** is charged to the bytes that have not paid yet. -/
theorem Balanced.searched {f : Failure} (h : Balanced s items s₁) (hf : f = .noMatch)
    (hfailed : s₂.rewinds ≤ s₁.rewinds + 6 * s₁.cursor.left + 5 ∧
      (f = .noMatch → ClosesAhead s₁ → s₂.rewinds = s₁.rewinds + 5)) :
    Searched s items (s₂.rewind s₁.cursor) := by
  have hback := rewinds_rewind s₁.cursor s₂
  have hpaid := h.paid
  have hle := hfailed.1
  refine ⟨by omega, fun hcloses => ?_⟩
  have heq := hfailed.2 hf hcloses
  have hitems := h.eq
  omega

end Balanced

/-! ### Items -/

section Items

variable {room : Nat} {form : ReadM Form}
  (hread : ∀ s, Ends form s (fun t s' => Reads room s t s') fun _ _ => True)
  (hform : GoesBack form)

/-- Pushing a form keeps the balance, and does not mismatch. -/
theorem balanced_push (forms : Scratch Form) (t : Form)
    (h : Balanced s (forms.items.toList ++ [t]) s₁) :
    Ends (push forms t) s₁
      (fun forms' s' => s'.cursor = s₁.cursor ∧ Balanced s forms'.items.toList s')
      fun f s' => f ≠ .noMatch ∧ s'.rewinds ≤ s.rewinds + 6 * s.cursor.left + 6 := by
  have hrewinds : Omits Event.isRewinding (push forms t) := omits_push (fun _ => rfl) forms t
  refine ((ends_push forms t s₁).and (hrewinds.rewinds_eq s₁)).imp (fun forms' s' hs' => ?_)
    fun f s' hs' => ?_
  · obtain ⟨⟨rfl, hcursor, -⟩, heq⟩ := hs'
    rw [Scratch.toList_pushed]
    exact ⟨hcursor, h.congr heq hcursor⟩
  · obtain ⟨⟨⟨e, rfl⟩, -⟩, heq⟩ := hs'
    have hpaid := h.paid
    exact ⟨nofun, by omega⟩

/-- Linking leaves what was found as it is, and does not mismatch. -/
theorem searched_link {forms : Scratch Form} (h : Searched s forms.items.toList s₁) :
    Ends (link forms) s₁ (fun items s' => Searched s items s')
      fun f s' => f ≠ .noMatch ∧ s'.rewinds ≤ s.rewinds + 6 * s.cursor.left + 6 := by
  have hrewinds : Omits Event.isRewinding (link forms) := omits_link (fun _ => rfl) forms
  refine ((ends_link forms s₁).and (hrewinds.rewinds_eq s₁)).imp (fun items s' hs' => ?_)
    fun f s' hs' => ?_
  · obtain ⟨⟨rfl, hcursor, -⟩, heq⟩ := hs'
    exact h.congr heq hcursor
  · obtain ⟨⟨⟨e, rfl⟩, -⟩, heq⟩ := hs'
    exact ⟨nofun, heq ▸ h.le⟩

include hread hform

/-- **Gathering** keeps the balance until there is no more item. -/
theorem searched_gather (forms : Scratch Form) (h : Balanced s forms.items.toList s₁) :
    Ends (gather (attempt form) push forms) s₁
      (fun forms' s' => Searched s forms'.items.toList s')
      fun f s' => f ≠ .noMatch ∧ s'.rewinds ≤ s.rewinds + 6 * s.cursor.left + 6 := by
  have hround : Round (attempt form) push
      (fun forms s₁ => Balanced s forms.items.toList s₁)
      (fun forms s' => Searched s forms.items.toList s')
      fun f s' => f ≠ .noMatch ∧ s'.rewinds ≤ s.rewinds + 6 * s.cursor.left + 6 := by
    intro forms s₁ hs₁
    rw [ends_attempt]
    refine ((hread s₁).and (hform s₁)).imp (fun t s₂ h₂ => ?_) fun f s₂ h₂ => ?_
    · refine (balanced_push forms t (hs₁.snoc h₂.1 h₂.2)).imp (fun forms' s₃ h₃ => ?_)
        fun f s₃ h₃ => h₃
      refine ⟨h₃.2, Or.inl ?_⟩
      rw [h₃.1]
      exact h₂.1.left_lt
    · split
      · next hf => exact hs₁.searched hf h₂.2
      · next hf =>
        have hpaid := hs₁.paid
        have hle := h₂.2.1
        exact ⟨hf, by omega⟩
  exact Ends.gather hround forms s₁ h

/-- **The items of a list** are looked for until there are no more of them, if forms go back as
they should. -/
theorem itemsGoBack_optionalItems : ItemsGoBack (optionalItems form) := by
  intro s
  -- no failure behind the first item is a mismatch
  have hfatal {f : Failure} {s' : Reader}
      (h : f ≠ .noMatch ∧ s'.rewinds ≤ s.rewinds + 6 * s.cursor.left + 6) :
      if f = .noMatch then Ends (pure (none.getD []) : ReadM (List Form)) (s'.rewind s.cursor)
        (fun items s' => Searched s items s')
        (fun _ s' => s'.rewinds ≤ s.rewinds + 6 * s.cursor.left + 6)
      else s'.rewinds ≤ s.rewinds + 6 * s.cursor.left + 6 := by
    rw [if_neg h.1]
    exact h.2
  rw [optionalItems, items_eq_linkedItems, ends_bind, ends_attempt, linkedItems, ends_bind]
  refine ((hread s).and (hform s)).imp (fun t s₁ h₁ => ?_) fun f s' h => ?_
  · rw [ends_bind]
    refine (balanced_push _ t ((balanced_nil s).snoc h₁.1 h₁.2)).imp (fun forms s₂ h₂ => ?_)
      fun f s₂ h₂ => hfatal h₂
    rw [ends_bind]
    refine (searched_gather hread hform forms h₂.2).imp (fun forms s₃ h₃ => ?_)
      fun f s₃ h₃ => hfatal h₃
    exact (searched_link h₃).imp (fun items s₄ h₄ => h₄) fun f s₄ h₄ => hfatal h₄
  · split
    · next hf => exact (balanced_nil s).searched hf h.2
    · next hf => exact Nat.le_succ_of_le h.2.1

end Items

/-! ### Forms -/

/-- A list does not end where one begins. -/
theorem not_closesAhead {bracket : Bracket}
    (h : (behindBlanks s.cursor.rest).head?.bind Bracket.ofOpening? = some bracket) :
    ¬ClosesAhead s := by
  rintro ⟨closing, hclosing⟩
  rw [hclosing, Option.bind_some, ofOpening?_closing] at h
  cases h

/-- **The bracket itself** pays for the item that will not be there. -/
theorem left_past_opening {bracket : Bracket}
    (h : (behindBlanks s.cursor.rest).head?.bind Bracket.ofOpening? = some bracket) :
    (s.skipBlanks.cursor.advance 1).left + 1 ≤ s.cursor.left := by
  obtain ⟨inside, hinside⟩ := exists_of_ofOpening? h
  obtain ⟨blanks, -, hrest⟩ := exists_blanks s.cursor.rest
  have hlength := congrArg List.length hrest
  rw [hinside, List.length_append, List.length_cons, Cursor.length_rest] at hlength
  rw [← Cursor.length_rest, rest_past_first hinside]
  omega

section Lists

variable {nested : ReadM (List Form)} (hnested : ItemsGoBack nested)

include hnested

/-- **What follows an opening bracket** costs what the items cost, since a list is closed or not
without going back. -/
theorem ends_inside_rewinds (bracket : Bracket) (t : Reader) :
    Ends (do let items ← nested; closeBracket bracket; return Form.list items) t
      (fun form s' => s'.rewinds + 5 = t.rewinds + form.rewinds)
      fun _ s' => s'.rewinds ≤ t.rewinds + 6 * t.cursor.left + 6 := by
  rw [ends_bind]
  refine (hnested t).imp (fun items s₁ hitems => ?_) fun f s' hle => hle
  rw [ends_bind]
  have hrewinds := (omits_closeBracket bracket).rewinds_eq s₁
  refine ((ends_closeBracket bracket s₁).and hrewinds).imp (fun _ s' hclosed => ?_)
    fun f s' hopen => ?_
  · obtain ⟨⟨hclosing, -⟩, heq⟩ := hclosed
    have hexact := hitems.eq ⟨bracket, hclosing⟩
    rw [ends_pure, Form.rewinds, Form.tally_list]
    omega
  · rw [hopen.2]
    exact hitems.le

/-- **A list** costs five steps less than its tally, if it is known to be one: those that it takes
to find that it is no atom. -/
theorem ends_bracketed_rewinds (s : Reader) :
    Ends (bracketed nested) s (fun t s' => s'.rewinds + 5 = s.rewinds + t.rewinds)
      fun f s' => s'.rewinds ≤ s.rewinds + 6 * s.cursor.left ∧
        (f = .noMatch → ClosesAhead s → s'.rewinds = s.rewinds) := by
  have hstays : s.rewinds ≤ s.rewinds + 6 * s.cursor.left := Nat.le_add_right _ _
  rw [bracketed, ends_bind, ends_blanks]
  split
  · exact ⟨hstays, fun _ _ => rfl⟩
  rw [ends_bind, ends_openBracket, rest_skipBlanks]
  rcases hopening : (behindBlanks s.cursor.rest).head?.bind Bracket.ofOpening? with _ | bracket
  · exact ⟨hstays, fun _ _ => rfl⟩
  · have hleft := left_past_opening hopening
    refine (ends_inside_rewinds hnested bracket _).imp (fun form s' h => h) fun f s' hle => ?_
    refine ⟨?_, fun _ hcloses => absurd hcloses (not_closesAhead hopening)⟩
    change s'.rewinds ≤ s.rewinds + 6 * (s.skipBlanks.cursor.advance 1).left + 6 at hle
    omega

/-- **A form** goes back as it should, if what stands between the brackets does in case it is a
list. -/
theorem goesBack_element : GoesBack (element nested) := by
  intro s
  rw [element, ends_bind, ends_attempt]
  refine (triesFrom_atom s).imp (fun a s' h => ?_) fun f s' h => ?_
  · rw [ends_pure, Form.rewinds, Form.tally_atom]
    exact h
  · split
    · next hf =>
      have hfive : (s'.rewind s.cursor).rewinds = s.rewinds + 5 := by
        rw [rewinds_rewind]
        exact congrArg Nat.succ (h.2 hf)
      refine (ends_bracketed_rewinds hnested (s'.rewind s.cursor)).imp (fun t s'' hlist => ?_)
        fun f s'' hlist => ⟨?_, fun hf hcloses => (hlist.2 hf hcloses).trans hfive⟩
      · omega
      · have hle : s''.rewinds ≤ (s'.rewind s.cursor).rewinds + 6 * s.cursor.left := hlist.1
        omega
    · next hf =>
      have hle := h.1
      exact ⟨by omega, fun h => absurd h hf⟩

end Lists

theorem itemsGoBack_refuseNesting : ItemsGoBack refuseNesting := by
  intro s
  change s.rewinds ≤ _
  omega

theorem goesBack_form (room : Nat) : GoesBack (form room) := by
  induction room with
  | zero => exact goesBack_element itemsGoBack_refuseNesting
  | succ room ih => exact goesBack_element (itemsGoBack_optionalItems (reads_form room) ih)

/-- One form is looked for once, and if there is none this is one more step back. -/
theorem ends_one_rewinds (s : Reader) :
    Ends one s (fun t s' => s'.rewinds = s.rewinds + t.rewinds)
      fun _ s' => s'.rewinds ≤ s.rewinds + 6 * (s.cursor.left + 1) := by
  rw [one, ends_bind, ends_get, ends_bind, ends_attempt]
  refine (goesBack_form s.config.maxDepth s).imp (fun t s' h => h) fun f s' h => ?_
  have hle := h.1
  split
  · change (s'.rewind s.cursor).rewinds ≤ _
    rw [rewinds_rewind]
    omega
  · change s'.rewinds ≤ _
    omega

/-- **Going back is determined by the form, and linear in any case.** Whatever the reader, its arena
and its settings are: if a form is read, the reader has gone back as often as the tally of the form
says, whatever its layout is. And whether a form is read or not, and for whatever reason, it has not
gone back more than six times for each byte that was ahead, and another six times. -/
theorem rewinds_determined (s : Reader) :
    ∃ own : List Event,
      (s.run one).reader.events = s.events ++ own ∧
      (∀ t : Form, (s.run one).result = .ok t → own.countP Event.isRewinding = t.rewinds) ∧
      own.countP Event.isRewinding ≤ 6 * (s.cursor.left + 1) := by
  obtain ⟨later, hlater⟩ := (steady_one.follows_run s).log
  have hcount : (s.run one).reader.rewinds =
      later.reverse.countP Event.isRewinding + s.rewinds := by
    rw [rewinds, rewinds, ← hlater, List.countP_append, List.countP_reverse]
  refine ⟨later.reverse, ?_, fun t ht => ?_, ?_⟩
  · rw [events, events, ← hlater, List.reverse_append]
  · have hexact := (ends_one_rewinds s).of_result_ok ht
    omega
  · rcases hresult : (s.run one).result with f | t
    · have hle := (ends_one_rewinds s).of_result_error hresult
      omega
    · have hexact := (ends_one_rewinds s).of_result_ok hresult
      have hcharged := ((reads_one s).of_result_ok hresult).rewinds_le
      omega

/-- A list of two sorts of brackets is gone back for as often as its tally says; and where lists are
left open, one behind the other, every byte costs six steps, as does the end of the source. -/
theorem rewinds_determined_tight :
    let s := ofBytes (Text.bytes "(a [#t \"s\" ()])")
    let t := Form.list [.atom (.symbol "a"),
      .list [.atom (.boolean true), .atom (.string "s"), .list []]]
    let unclosed := ofBytes (Text.bytes "([(")
    (s.run one).result = .ok t ∧
      (∃ own : List Event, (s.run one).reader.events = s.events ++ own ∧
        own.countP Event.isRewinding = 39) ∧
      unclosed.cursor.left = 3 ∧ (unclosed.run one).reader.rewinds = 6 * (3 + 1) := by
  intro s t unclosed
  have hone : (s.run one).result = .ok t := by decide +kernel
  obtain ⟨own, hown, hexact, -⟩ := rewinds_determined s
  exact ⟨hone, ⟨own, hown, hexact t hone⟩, rfl, by decide +kernel⟩

end Reader

end FormReader
