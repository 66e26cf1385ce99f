import FormReader.Proofs.Rules
import FormReader.Reader.Source

/-!
# The rules of the grammar are steady

Each rule of the grammar is put together from steps that keep a reader's source, settings
and arena and move its cursor forward, so each of them is steady. Next to nothing is said here
about what the rules find. There is one thing that all who take the rules apart should know, that
linked items are never none: the rule for items has a case for it, which does not occur
(`FormReader.Reader.items_eq_linkedItems`).
-/

namespace FormReader

namespace Reader

/-! ### Moves -/

theorem exists_advance_of_literal {bytes : List Byte} (c d : Cursor)
    (h : c.literal? bytes = some d) : ∃ n ≤ c.left, d = c.advance n := by
  obtain ⟨hbytes, hd⟩ := Cursor.literal?_eq_some_iff.mp h
  exact ⟨_, c.length_rest ▸ hbytes.length_le, hd⟩

theorem exists_advance_of_skipUntil {set : Byte → Bool} (c d : Cursor)
    (h : c.skipUntil? set = some d) : ∃ n ≤ c.left, d = c.advance n := by
  obtain ⟨passed, b, behind, hrest, -, -, rfl⟩ := Cursor.skipUntil?_eq_some_iff.mp h
  refine ⟨passed.length, ?_, rfl⟩
  rw [← c.length_rest, hrest, List.length_append]
  exact Nat.le_add_right _ _

theorem exists_advance_of_skipWhile {set : Byte → Bool} (c d : Cursor)
    (h : c.skipWhile? set = some d) : ∃ n ≤ c.left, d = c.advance n :=
  exists_advance_of_skipUntil c d h

/-! ### Atoms -/

theorem steady_blanks : Steady blanks := steady_scan exists_advance_of_skipWhile

theorem steady_text (bytes : List Byte) : Steady (text bytes) :=
  (steady_found _).bind fun s => steady_ask (Arena.gives_copyText s)

theorem steady_number : Steady number :=
  steady_blanks.bind fun _ => steady_token.bind fun _ => steady_found _

theorem steady_boolean : Steady boolean := by
  refine steady_blanks.bind fun _ => (steady_scan exists_advance_of_literal).bind fun _ =>
    (steady_scanned exists_advance_of_literal).bind fun value => ?_
  dsimp only
  -- whichever letter was passed, the token has to end behind it
  refine Steady.ite (steady_get.bind fun s => ?_) fun hend => ?_
  · exact (steady_pure value).ite fun _ => steady_noMatch
  · exact (steady_scan exists_advance_of_literal).bind fun _ => hend

theorem steady_string : Steady string := by
  refine steady_blanks.bind fun _ => (steady_scan exists_advance_of_literal).bind fun _ =>
    (steady_scanned exists_advance_of_literal).bind fun isEmpty => ?_
  split
  · exact steady_pure ""
  · exact steady_get.bind fun _ => (steady_scan exists_advance_of_skipUntil).bind fun _ =>
      steady_get.bind fun _ => (steady_scan exists_advance_of_literal).bind fun _ =>
        (steady_slice _ _).bind fun _ => steady_text _

theorem steady_symbol : Steady symbol := by
  refine steady_blanks.bind fun _ => steady_get.bind fun s => ?_
  have hname : Steady (do
      let name ← token
      if name.isEmpty then throw .noMatch
      text name) := by
    refine steady_token.bind fun name => ?_
    exact (steady_noMatch.bind fun _ => steady_text name).ite fun _ => steady_text name
  exact (steady_noMatch.bind fun _ => hname).ite fun _ => hname

theorem steady_atom : Steady atom := by
  refine steady_number.choice (fun _ => steady_pure _) ?_
  refine steady_boolean.choice (fun _ => steady_pure _) ?_
  refine steady_string.choice (fun _ => steady_pure _) ?_
  exact steady_symbol.choice (fun _ => steady_pure _) steady_noMatch

/-! ### Forms -/

theorem steady_openBracket : Steady openBracket :=
  steady_get.bind fun _ => (steady_found _).bind fun _ =>
    (steady_scan exists_advance_of_literal).bind fun _ => steady_pure _

theorem steady_closeBracket (bracket : Bracket) : Steady (closeBracket bracket) := by
  refine (steady_scanned exists_advance_of_skipWhile).bind fun more => ?_
  dsimp only
  -- what is left to do behind the blanks
  refine Steady.ite ((steady_scanned exists_advance_of_literal).bind fun closed => ?_)
    fun hclose => ?_
  · refine (steady_pure _).ite fun _ => steady_get.bind fun s => ?_
    split
    · exact (steady_observe _).bind fun _ => steady_noMatch
    · exact (steady_observe _).bind fun _ => steady_noMatch
  · exact (steady_observe _).bind fun _ => steady_noMatch.bind fun _ => hclose

/-- **Pushing** puts the form behind those gathered before it, if there is memory. -/
theorem ends_push (forms : Scratch Form) (form : Form) (s : Reader) :
    Ends (push forms form) s
      (fun forms' s' => forms' = forms.pushed s.arena.allocator form ∧ s'.cursor = s.cursor ∧
        Follows s s')
      (fun f s' => (∃ e, f = .exhausted e) ∧ ¬s.arena.Unlimited ∧ Follows s s') :=
  ends_ask_of_gives (Scratch.gives_push forms form) s

/-- **Linking** hands out what was gathered, if there is memory. -/
theorem ends_link (forms : Scratch Form) (s : Reader) :
    Ends (link forms) s
      (fun items s' => items = forms.items.toList ∧ s'.cursor = s.cursor ∧ Follows s s')
      (fun f s' => (∃ e, f = .exhausted e) ∧ ¬s.arena.Unlimited ∧ Follows s s') :=
  ends_ask_of_gives (Arena.gives_link forms.items.toList) s

theorem steady_push (forms : Scratch Form) (form : Form) : Steady (push forms form) :=
  steady_ask (Scratch.gives_push forms form)

theorem steady_link (forms : Scratch Form) : Steady (link forms) :=
  steady_ask (Arena.gives_link forms.items.toList)

theorem Steady.bracketed {nested : ReadM (List Form)} (h : Steady nested) :
    Steady (bracketed nested) :=
  steady_blanks.bind fun _ => steady_openBracket.bind fun bracket => h.bind fun _ =>
    (steady_closeBracket bracket).bind fun _ => steady_pure _

theorem pushed_ne_nil (forms : Scratch Form) (allocator : Allocator) (form : Form) :
    (forms.pushed allocator form).items.toList ≠ [] := by
  rw [Scratch.toList_pushed]
  exact List.concat_ne_nil _ _

/-- **Linked items are never none.** The first is pushed before the others are looked for, and
there is no way for it to get lost. -/
theorem ends_linkedItems (form : ReadM Form) (s : Reader) :
    Ends (linkedItems form) s (fun found _ => found ≠ []) fun _ _ => True := by
  have hround : Round (attempt form) push (fun forms _ => forms.items.toList ≠ [])
      (fun forms _ => forms.items.toList ≠ []) fun _ _ => True := by
    intro forms s₁ hforms
    refine ends_of_forall (fun item? s₂ => ?_) fun _ _ => trivial
    cases item? with
    | none => exact hforms
    | some item =>
      refine (ends_push forms item s₂).imp (fun forms' _ hpush => ?_) fun _ _ _ => trivial
      rw [hpush.1]
      exact ⟨pushed_ne_nil _ _ _, Or.inr (pushed_ne_nil _ _ _)⟩
  refine ends_bind.mpr (ends_of_forall (fun first s₁ => ?_) fun _ _ => trivial)
  refine ends_bind.mpr ((ends_push _ first s₁).imp (fun forms s₂ hpush => ?_) fun _ _ _ => trivial)
  have hforms : forms.items.toList ≠ [] := hpush.1 ▸ pushed_ne_nil _ _ _
  refine ends_bind.mpr ((Ends.gather hround forms s₂ hforms).imp (fun forms' s₃ hforms' => ?_)
    fun _ _ _ => trivial)
  refine (ends_link forms' s₃).imp (fun found _ hlink => ?_) fun _ _ _ => trivial
  rw [hlink.1]
  exact hforms'

/-- **The case of no items** does not occur, so the rule for items just links them. -/
theorem items_eq_linkedItems (form : ReadM Form) : items form = linkedItems form := by
  funext s
  have hlinked := ends_linkedItems form s
  rw [Ends] at hlinked
  simp only [items, bind, EStateM.bind]
  rcases hrun : linkedItems form s with ⟨_ | ⟨item, rest⟩, s'⟩ | ⟨f, s'⟩
  · rw [hrun] at hlinked
    exact absurd rfl hlinked
  · rfl
  · rfl

theorem Steady.linkedItems {form : ReadM Form} (h : Steady form) : Steady (linkedItems form) :=
  h.bind fun _ => (steady_push _ _).bind fun forms =>
    (h.attempt.gather steady_push forms).bind fun _ => steady_link _

theorem Steady.optionalItems {form : ReadM Form} (h : Steady form) :
    Steady (optionalItems form) := by
  rw [Reader.optionalItems, items_eq_linkedItems]
  exact h.linkedItems.attempt.bind fun _ => steady_pure _

theorem steady_refuseNesting : Steady refuseNesting :=
  steady_get.bind fun _ => (steady_observe _).bind fun _ => steady_throw nofun

theorem Steady.element {nested : ReadM (List Form)} (h : Steady nested) :
    Steady (element nested) :=
  steady_atom.choice (fun _ => steady_pure _) h.bracketed

/-- **Reading a form is steady**, whatever room there is. -/
theorem steady_form (room : Nat) : Steady (form room) := by
  induction room with
  | zero => exact steady_refuseNesting.element
  | succ room ih => exact ih.optionalItems.element

/-! ### Sources -/

theorem steady_one : Steady one :=
  steady_get.bind fun _ => (steady_form _).attempt.bind fun _ => steady_found _

theorem steady_finish : Steady finish := by
  refine steady_get.bind fun s => ?_
  split
  · exact steady_pure _
  · exact (steady_observe _).bind fun _ => steady_noMatch

theorem steady_whole : Steady whole :=
  steady_one.bind fun _ => steady_finish.bind fun _ => steady_pure _

theorem steady_oneMore : Steady oneMore := by
  refine steady_get.bind fun s => ?_
  split
  · exact steady_pure none
  · exact steady_one.bind fun t => steady_pure (some t)

theorem steady_all : Steady all :=
  (steady_oneMore.gather steady_push _).bind fun _ => steady_link _

end Reader

end FormReader
