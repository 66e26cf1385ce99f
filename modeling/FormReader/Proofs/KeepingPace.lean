import FormReader.Proofs.Abreast
import FormReader.Proofs.Steadiness

/-!
# Reading keeps pace

Reading does not part two readers that are abreast: what the first one finds the second one
finds, where the first one does not match the second one does not match, and the only other
thing that can happen is that the first one is cut short. There is one lemma for each rule, and
what makes the rules for forms interesting is the room that they are given. Inside the same
lists a reader with a lower limit has less room, and a form is read alike with both until there
is none left (`FormReader.Reader.keepPace_form`).

This one comparison answers three questions, by what is taken for the two readers: what a limit
on memory does, what the limit on nesting does, and what is left of all that was read before.
-/

namespace FormReader

namespace Reader

/-! ### Atoms -/

section Atoms

variable {k : Course}

theorem keepPace_blanks : KeepPace k.comparison Eq blanks blanks :=
  keepPace_scan steady_blanks fun _ _ h => h.skipWhile? _

theorem keepPace_literal (bytes : List Byte) :
    KeepPace k.comparison Eq (scan (·.literal? bytes)) (scan (·.literal? bytes)) :=
  keepPace_scan (steady_scan exists_advance_of_literal) fun _ _ h => h.literal? bytes

theorem keepPace_isLiteral (bytes : List Byte) :
    KeepPace k.comparison Eq (scanned (·.literal? bytes)) (scanned (·.literal? bytes)) :=
  keepPace_scanned (steady_scanned exists_advance_of_literal) fun _ _ h => h.literal? bytes

theorem keepPace_text (bytes : List Byte) : KeepPace k.comparison Eq (text bytes) (text bytes) :=
  (KeepPace.found _).andThen fun s =>
    keepPace_ask (Arena.gives_copyText s) (Arena.gives_copyText s) fun _ _ => rfl

theorem keepPace_number : KeepPace k.comparison Eq number number :=
  keepPace_blanks.andThen fun _ => keepPace_token.andThen fun _ => .found _

theorem keepPace_boolean : KeepPace k.comparison Eq boolean boolean := by
  refine keepPace_blanks.andThen fun _ => (keepPace_literal _).andThen fun _ =>
    (keepPace_isLiteral _).andThen fun value => ?_
  -- whichever letter was passed, the token has to end behind it
  refine KeepPace.ite (KeepPace.get.bind (fun t => ?_) fun s t hst => ?_) fun hend =>
    (keepPace_literal _).andThen fun _ => hend
  · exact (steady_pure value).ite fun _ => steady_noMatch
  · rw [hst.cursor.atBoundary]
    exact (KeepPace.pure rfl).ite fun _ => .mismatch

theorem keepPace_string : KeepPace k.comparison Eq string string := by
  refine keepPace_blanks.andThen fun _ => (keepPace_literal _).andThen fun _ =>
    (keepPace_isLiteral _).andThen fun isEmpty => (KeepPace.pure rfl).ite fun _ => ?_
  -- the two ends of the text are positions, which differ by the offset
  have hclose (start stop : Nat) : KeepPace k.comparison Eq
      (do
        scan (·.literal? [Byte.quote])
        text (← slice (start + k.offset) (stop + k.offset)))
      (do
        scan (·.literal? [Byte.quote])
        text (← slice start stop)) :=
    (keepPace_literal _).andThen fun _ => (keepPace_slice start stop).andThen fun _ =>
      keepPace_text _
  have hskip : KeepPace k.comparison Eq (scan (·.skipUntil? (· = Byte.quote)))
      (scan (·.skipUntil? (· = Byte.quote))) :=
    keepPace_scan (steady_scan exists_advance_of_skipUntil) fun _ _ h => h.skipUntil? _
  have hinside (start : Nat) : KeepPace k.comparison Eq
      (do
        scan (·.skipUntil? (· = Byte.quote))
        let stop := (← get).pos
        scan (·.literal? [Byte.quote])
        text (← slice (start + k.offset) stop))
      (do
        scan (·.skipUntil? (· = Byte.quote))
        let stop := (← get).pos
        scan (·.literal? [Byte.quote])
        text (← slice start stop)) := by
    refine hskip.andThen fun _ => KeepPace.get.bind (fun t => (hclose start t.pos).steady)
      fun s t hst => ?_
    rw [hst.pos]
    exact hclose start t.pos
  refine KeepPace.get.bind (fun t => (hinside t.pos).steady) fun s t hst => ?_
  rw [hst.pos]
  exact hinside t.pos

theorem keepPace_symbol : KeepPace k.comparison Eq symbol symbol := by
  have hname : KeepPace k.comparison Eq
      (do
        let name ← token
        if name.isEmpty then throw .noMatch
        text name)
      (do
        let name ← token
        if name.isEmpty then throw .noMatch
        text name) := by
    refine keepPace_token.andThen fun name => ?_
    exact (KeepPace.mismatch.andThen fun _ => keepPace_text name).ite fun _ => keepPace_text name
  refine keepPace_blanks.andThen fun _ => KeepPace.get.bind (fun t => ?_) fun s t hst => ?_
  · exact (steady_noMatch.bind fun _ => hname.steady).ite fun _ => hname.steady
  · rw [hst.cursor.peek?]
    exact (KeepPace.mismatch.andThen fun _ => hname).ite fun _ => hname

theorem keepPace_atom : KeepPace k.comparison Eq atom atom := by
  refine keepPace_number.orElse (fun _ => .pure rfl) ?_
  refine keepPace_boolean.orElse (fun _ => .pure rfl) ?_
  refine keepPace_string.orElse (fun _ => .pure rfl) ?_
  exact keepPace_symbol.orElse (fun _ => .pure rfl) .mismatch

end Atoms

/-! ### Forms -/

section Forms

variable {k : Course}

theorem keepPace_openBracket : KeepPace k.comparison Eq openBracket openBracket := by
  have hopen (b? : Option Bracket) : KeepPace k.comparison Eq
      (do
        let bracket ← found b?
        scan (·.literal? [bracket.opening])
        return bracket)
      (do
        let bracket ← found b?
        scan (·.literal? [bracket.opening])
        return bracket) :=
    (KeepPace.found b?).andThen fun _ => (keepPace_literal _).andThen fun _ => .pure rfl
  refine KeepPace.get.bind (fun t => (hopen _).steady) fun s t hst => ?_
  rw [hst.cursor.peek?]
  exact hopen _

/-- Why a list is not closed is the same for both, and found at the same byte. -/
theorem keepPace_closeBracket (bracket : Bracket) :
    KeepPace k.comparison Eq (closeBracket bracket) (closeBracket bracket) := by
  have hfail (e : Event) (he : e.level ≠ .warn) : KeepPace k.comparison Eq
      (do observe (e.shift k.offset); throw .noMatch : ReadM Unit) (do observe e; throw .noMatch) :=
    (keepPace_observe he).andThen fun _ => .mismatch
  have hskip : KeepPace k.comparison Eq (scanned (·.skipWhile? Byte.isBlank))
      (scanned (·.skipWhile? Byte.isBlank)) :=
    keepPace_scanned (steady_scanned exists_advance_of_skipWhile) fun _ _ h => h.skipWhile? _
  refine hskip.andThen fun more => KeepPace.ite ?_ fun hclose => ?_
  · refine (keepPace_isLiteral _).andThen fun closed => (KeepPace.pure rfl).ite fun _ => ?_
    -- the bracket is not the one that was expected
    refine KeepPace.get.bind (fun t => ?_) fun s t hst => ?_
    · dsimp only
      split
      · exact (steady_observe _).bind fun _ => steady_noMatch
      · exact (steady_observe _).bind fun _ => steady_noMatch
    · dsimp only
      rw [hst.cursor.peek?, hst.pos]
      split
      · next other _ => exact hfail (.mismatched t.pos bracket other) nofun
      · exact hfail (.unparsable t.pos bracket) nofun
  · exact (keepPace_observe (e := .unclosed bracket) nofun).andThen fun _ =>
      KeepPace.mismatch.andThen fun _ => hclose

/-- Scratch buffers **hold the same**, whatever room they have. -/
def SameItems (forms forms' : Scratch Form) : Prop := forms.items = forms'.items

/-- Pushing keeps pace, though the two allocators may see to it in different ways. -/
theorem keepPace_push {forms forms' : Scratch Form} (h : SameItems forms forms') (form : Form) :
    KeepPace k.comparison SameItems (push forms form) (push forms' form) := by
  refine keepPace_ask (Scratch.gives_push forms form) (Scratch.gives_push forms' form) ?_
  intro allocator allocator'
  rw [SameItems] at h ⊢
  rw [Scratch.items_pushed, Scratch.items_pushed, h]

theorem keepPace_link {forms forms' : Scratch Form} (h : SameItems forms forms') :
    KeepPace k.comparison Eq (link forms) (link forms') :=
  keepPace_ask (Arena.gives_link _) (Arena.gives_link _) fun _ _ => congrArg Array.toList h

/-- Gathering forms keeps pace if what finds them does. -/
theorem keepPace_gather {find find' : ReadM (Option Form)}
    (h : KeepPace k.comparison (Option.Rel Eq) find find') {forms forms' : Scratch Form}
    (hforms : SameItems forms forms') :
    KeepPace k.comparison SameItems (gather find push forms) (gather find' push forms') :=
  h.gather steady_push (fun _ _ item _ hacc hitem => hitem ▸ keepPace_push hacc item) hforms

theorem keepPace_optionalItems {form form' : ReadM Form}
    (h : KeepPace k.comparison Eq form form') :
    KeepPace k.comparison Eq (optionalItems form) (optionalItems form') := by
  have hsteady : Steady form' := h.steady
  have hlinked : KeepPace k.comparison Eq (linkedItems form) (linkedItems form') := by
    refine h.andThen fun first => (keepPace_push rfl first).bind (fun forms' => ?_)
      fun forms forms' hforms => (keepPace_gather h.attempt hforms).bind steady_link
        fun _ _ => keepPace_link
    exact (hsteady.attempt.gather steady_push forms').bind steady_link
  rw [optionalItems, optionalItems, items_eq_linkedItems, items_eq_linkedItems]
  exact hlinked.orElse (fun _ => .pure rfl) (.pure rfl)

theorem keepPace_element {nested nested' : ReadM (List Form)}
    (h : KeepPace k.comparison Eq nested nested') :
    KeepPace k.comparison Eq (element nested) (element nested') := by
  refine keepPace_atom.orElse (fun _ => .pure rfl) ?_
  exact keepPace_blanks.andThen fun _ => keepPace_openBracket.andThen fun bracket =>
    h.andThen fun _ => (keepPace_closeBracket bracket).andThen fun _ => .pure rfl

/-- A reader without levels left ends with the limit that it was given. -/
theorem run_refuseNesting {s : Reader} {limit : Nat} (h : s.config.maxDepth = limit) :
    s.run refuseNesting = ⟨.error (.tooDeep limit limit), s.record (.tooDeep limit limit)⟩ := by
  rw [← h]
  rfl

/-- Where neither reader has levels left both have ended. -/
theorem keepPace_refuseNesting (h : k.limit = k.limit') :
    KeepPace k.comparison Eq refuseNesting refuseNesting where
  steady := steady_refuseNesting
  alike s t hst := by
    obtain ⟨own, hown⟩ := hst.records
    rw [run_refuseNesting hst.maxDepth, run_refuseNesting (hst.maxDepth'.trans h.symm)]
    exact .ended ⟨hst.cursor, Or.inl ⟨rfl, h⟩, own, congrArg (_ :: ·) hown.log,
      congrArg (_ :: ·) hown.log', hown.calm⟩

/-- Where the first reader has no levels left and the second one has, the first one is cut
short. -/
theorem keepPace_refuseNesting_of_lt {nested : ReadM (List Form)} (h : k.limit < k.limit')
    (hsteady : Steady nested) : KeepPace k.comparison Eq refuseNesting nested where
  steady := hsteady
  alike s t hst := by
    obtain ⟨own, hown⟩ := hst.records
    obtain ⟨later, hlater⟩ := (hsteady.follows_run t).log
    rw [run_refuseNesting hst.maxDepth]
    refine .cut ⟨Or.inr ⟨rfl, h⟩, own, later, congrArg (_ :: ·) hown.log, ?_, hown.calm⟩
    rw [← hlater, hown.log']
    rfl

/-- **Reading a form** does not part two readers inside the same lists. -/
theorem keepPace_form {room room' : Nat} (h : room + k.limit' = room' + k.limit) :
    KeepPace k.comparison Eq (form room) (form room') := by
  have hlimit := k.limit_le
  induction room generalizing room' with
  | zero =>
    rcases room' with _ | room'
    · exact keepPace_element (keepPace_refuseNesting (by omega))
    · exact keepPace_element
        (keepPace_refuseNesting_of_lt (by omega) (steady_form room').optionalItems)
  | succ room ih =>
    rcases room' with _ | room'
    · omega
    · exact keepPace_element (keepPace_optionalItems (ih (by omega)))

end Forms

/-! ### What a reader is asked for -/

section Sources

variable {k : Course}

theorem keepPace_one : KeepPace k.comparison Eq one one := by
  have hone {limit limit' : Nat} (h : KeepPace k.comparison Eq (form limit) (form limit')) :
      KeepPace k.comparison Eq (do found (← attempt (form limit)))
        (do found (← attempt (form limit'))) :=
    h.orElse (fun _ => .found _) (.found _)
  refine KeepPace.get.bind (fun t => ?_) fun s t hst => ?_
  · exact (steady_form _).attempt.bind fun _ => steady_found _
  · rw [hst.maxDepth, hst.maxDepth']
    exact hone (keepPace_form (Nat.add_comm _ _))

theorem keepPace_finish : KeepPace k.comparison Eq finish finish := by
  refine KeepPace.get.bind (fun t => ?_) fun s t hst => ?_
  · exact (steady_pure _).ite fun _ => (steady_observe _).bind fun _ => steady_noMatch
  · rw [hst.cursor.onlyBlanksLeft, hst.pos]
    exact (KeepPace.pure rfl).ite fun _ =>
      (keepPace_observe (e := .trailing t.pos) nofun).andThen fun _ => .mismatch

theorem keepPace_whole : KeepPace k.comparison Eq whole whole :=
  keepPace_one.andThen fun _ => keepPace_finish.andThen fun _ => .pure rfl

theorem keepPace_oneMore : KeepPace k.comparison Eq oneMore oneMore := by
  refine KeepPace.get.bind (fun t => ?_) fun s t hst => ?_
  · exact (steady_pure none).ite fun _ => steady_one.bind fun t => steady_pure (some t)
  · rw [hst.cursor.onlyBlanksLeft]
    exact (KeepPace.pure rfl).ite fun _ => keepPace_one.andThen fun _ => .pure rfl

theorem keepPace_all : KeepPace k.comparison Eq all all := by
  have hfind : KeepPace k.comparison (Option.Rel Eq) oneMore oneMore := by
    refine keepPace_oneMore.imp ?_
    rintro (_ | t) _ rfl
    · exact .none
    · exact .some rfl
  exact (keepPace_gather hfind rfl).bind steady_link fun _ _ => keepPace_link

end Sources

end Reader

end FormReader
