import FormReader.Proofs.Iteration

/-!
# A source between brackets

Putting brackets around a source makes a list of it, and reading this list comes to the same as
reading all forms of the source (`FormReader.Reader.whole_between_brackets`). This is plain where
the source is laid out properly. But the source may be anything. It may close brackets that it
never opened, and the added opening one is then closed too early; it may leave lists open, and the
added closing one then closes one of those; and a string that does not end swallows the added
bracket. The claim is that none of this changes how reading fails.

Two loops are compared that stop for different reasons, so neither is followed. Each form of the
source is what the machine `FormReader.Forward` reads, and the machine is taken through the same
bytes once more with the added list at the bottom of its stack (`FormReader.Forward.enclose`).
There it goes the same way for as long as it did without, and what is left to see is what it does
where it had ended (`FormReader.Forward.enclosed_run`). Having met a stray closing bracket it may
close the added list, but then something is left behind, namely the added bracket at least; and at
the end of the source it has lists to close that one bracket is not enough for.
-/

namespace FormReader

/-! ### One more separator behind -/

section Concat

variable {c : Byte} (hc : Byte.isSeparator c = true)

include hc

theorem tokenOf_concat (bytes : List Byte) : tokenOf (bytes ++ [c]) = tokenOf bytes := by
  obtain ⟨behind, hbytes, hend⟩ := exists_behind_tokenOf bytes
  have hend' : endsToken (behind ++ [c]) := by
    rcases behind with _ | ⟨b, behind⟩
    · exact endsToken_cons hc
    · exact hend
  calc tokenOf (bytes ++ [c])
    _ = tokenOf (tokenOf bytes ++ (behind ++ [c])) := by rw [← List.append_assoc, ← hbytes]
    _ = tokenOf bytes := tokenOf_append (isToken_tokenOf bytes) hend'

theorem booleanAhead?_concat (bytes : List Byte) :
    booleanAhead? (bytes ++ [c]) = booleanAhead? bytes := by
  rcases bytes with _ | ⟨b, _ | ⟨b', behind⟩⟩
  · have htrue : c ≠ 't'.toUInt8 := by
      rintro rfl
      cases hc
    have hfalse : c ≠ 'f'.toUInt8 := by
      rintro rfl
      cases hc
    simp [booleanAhead?, htrue, hfalse]
  · simp [booleanAhead?, hc]
  · rfl

theorem stringAhead?_concat (bytes : List Byte) :
    stringAhead? (bytes ++ [c]) = stringAhead? bytes := by
  by_cases hquote : Byte.quote ∈ bytes
  · obtain ⟨inside, behind, rfl, hfree⟩ := List.eq_append_cons_of_mem hquote
    rw [List.append_assoc, List.cons_append, stringAhead?_append hfree, stringAhead?_append hfree]
  · have hne : Byte.quote ≠ c := by
      rintro rfl
      cases hc
    rw [stringAhead?_of_notMem hquote, stringAhead?_of_notMem (by simp [hquote, hne])]

/-- **A separator behind** some bytes makes no difference to the atom at their beginning. -/
theorem atomAhead?_concat {bytes : List Byte} (hne : bytes ≠ []) :
    atomAhead? (bytes ++ [c]) = atomAhead? bytes := by
  obtain ⟨b, behind, rfl⟩ := List.exists_cons_of_ne_nil hne
  have htoken := tokenOf_concat hc (b :: behind)
  rw [tokenOf, tokenOf, List.cons_append] at htoken
  rw [List.cons_append, atomAhead?, atomAhead?, booleanAhead?_concat hc, stringAhead?_concat hc,
    htoken]

end Concat

/-! ### The machine within one more list -/

/-- The same list, one byte further on. -/
def Frame.shift (frame : Frame) : Frame := { frame with pos := frame.pos + 1 }

namespace Forward

/-- **Enclosing** a machine in one more list: the list is open below all others, and its closing
bracket stands behind all that lies ahead. -/
def enclose (frame : Frame) (s : Forward) : Forward :=
  ⟨s.pos + 1, s.rest ++ [frame.bracket.closing], s.frames.map Frame.shift ++ [frame]⟩

section Enclose

variable {frame : Frame} {s : Forward}

theorem rest_enclose_of_nil (h : s.rest = []) :
    (s.enclose frame).rest = [frame.bracket.closing] := by
  rw [enclose, h]
  rfl

theorem rest_enclose_of_cons {b : Byte} {behind : List Byte} (h : s.rest = b :: behind) :
    (s.enclose frame).rest = b :: (behind ++ [frame.bracket.closing]) := by
  rw [enclose, h]
  rfl

theorem frames_enclose_of_nil (h : s.frames = []) : (s.enclose frame).frames = [frame] := by
  rw [enclose, h]
  rfl

theorem frames_enclose_of_cons {inner : Frame} {outer : List Frame}
    (h : s.frames = inner :: outer) :
    (s.enclose frame).frames = inner.shift :: (outer.map Frame.shift ++ [frame]) := by
  rw [enclose, h]
  rfl

theorem enclose_advance {n : Nat} (h : n ≤ s.rest.length) :
    (s.enclose frame).advance n = (s.advance n).enclose frame := by
  rw [enclose, advance, enclose, advance, List.drop_append_of_le_length h, Nat.add_right_comm]

theorem enclose_advance_one {b : Byte} {behind : List Byte} (h : s.rest = b :: behind) :
    (s.enclose frame).advance 1 = (s.advance 1).enclose frame := by
  refine enclose_advance ?_
  rw [h]
  exact Nat.le_add_left 1 _

/-- The brackets are not blank, so the same blanks are passed over. -/
theorem enclose_skipBlanks : (s.enclose frame).skipBlanks = s.skipBlanks.enclose frame := by
  have htake : (s.enclose frame).rest.takeWhile Byte.isBlank = s.rest.takeWhile Byte.isBlank := by
    change (s.rest ++ [frame.bracket.closing]).takeWhile Byte.isBlank = _
    rw [List.takeWhile_append]
    split
    · next hall =>
      have hself : s.rest.takeWhile Byte.isBlank = s.rest :=
        (List.takeWhile_prefix _).eq_of_length hall
      simp [hself]
    · rfl
  rw [skipBlanks, htake, skipBlanks, enclose_advance (List.takeWhile_prefix _).length_le]

end Enclose

/-! ### What becomes of a run -/

/-- **Not spanning** the source: no form was read, or there is something behind it. -/
def FailsToSpan : Except Failure Form × Forward → Prop
  | (.ok _, s) => ¬allBlank s.rest
  | (.error f, _) => f = .noMatch

/-- **What becomes of a run** within one more list. A form that was read is put into the list;
where nothing matched no form spans what lies ahead; and a bracket too many is one too many
still. -/
inductive Enclosed (limit : Nat) (frame : Frame) :
    Except Failure Form × Forward → Except Failure Form × Forward → Prop
  | completed {form : Form} {s : Forward} : s.frames = [] →
    Enclosed limit frame (.ok form, s) (run (limit + 1) (s.enclose (frame.append [form])))
  | noMatch {s : Forward} {o : Except Failure Form × Forward} : FailsToSpan o →
    Enclosed limit frame (.error .noMatch, s) o
  | tooDeep {s s' : Forward} :
    Enclosed limit frame (.error (.tooDeep limit limit), s)
      (.error (.tooDeep (limit + 1) (limit + 1)), s')

section Runs

variable {limit : Nat} {frame : Frame} {s : Forward}

/-- With a list open there is nothing to be read at the end of the source. -/
theorem failsToSpan_of_rest_eq_nil (h : s.rest = []) : FailsToSpan (run limit s) := by
  have hblank : allBlank s.rest := h ▸ allBlank_nil
  obtain ⟨s', hs'⟩ : ∃ s', run limit s = (.error .noMatch, s') := run_of_allBlank hblank
  rw [hs']
  rfl

/-- A complete form is put into the innermost list, which is the added one if there is no
other. -/
theorem enclosed_complete (form : Form)
    (h : ∀ frames, frames ≠ [] → Enclosed limit frame (run limit (s.withFrames frames))
      (run (limit + 1) ((s.withFrames frames).enclose frame))) :
    Enclosed limit frame ((s.complete form).outcome limit)
      (((s.enclose frame).complete form).outcome (limit + 1)) := by
  rcases hframes : s.frames with _ | ⟨inner, outer⟩
  · have hput : (s.enclose frame).withFrames [frame.append [form]] =
        s.enclose (frame.append [form]) := by
      rw [enclose, enclose, hframes]
      rfl
    rw [complete_of_nil hframes, outcome_ends, complete_of_cons (frames_enclose_of_nil hframes),
      outcome_goesOn, hput]
    exact .completed hframes
  · rw [complete_of_cons hframes, outcome_goesOn,
      complete_of_cons (frames_enclose_of_cons hframes), outcome_goesOn]
    exact h _ (List.cons_ne_nil _ _)

section Bytes

variable {bracket : Bracket} {b : Byte} {behind : List Byte}
  (h : ∀ v : Forward, v.rest.length < s.rest.length → v.frames ≠ [] →
    Enclosed limit frame (run limit v) (run (limit + 1) (v.enclose frame)))

include h

/-- **An opening bracket** opens a list in the same place, and the added list makes up for the
higher limit. -/
theorem enclosed_opening (hrest : s.rest = bracket.opening :: behind) :
    Enclosed limit frame (run limit s) (run (limit + 1) (s.enclose frame)) := by
  have hlength : (s.enclose frame).frames.length = s.frames.length + 1 := by
    rw [enclose, List.length_append, List.length_map]
    rfl
  rw [run_opening hrest, run_opening (rest_enclose_of_cons hrest)]
  rcases Nat.lt_or_ge s.frames.length limit with hlt | hge
  · rw [openList_of_lt hlt, openList_of_lt (by omega), enclose_advance_one hrest, outcome_goesOn,
      outcome_goesOn]
    refine h ((s.advance 1).withFrames (⟨bracket, s.pos, []⟩ :: s.frames)) ?_
      (List.cons_ne_nil _ _)
    change (s.advance 1).rest.length < _
    rw [length_rest_advance, hrest]
    exact Nat.lt_succ_self _
  · rw [openList_of_le hge, openList_of_le (by omega)]
    exact .tooDeep

/-- **A closing bracket** closes the same list. Where no list is open it closes the added one at
most, and is not the last. -/
theorem enclosed_closing (hrest : s.rest = bracket.closing :: behind) :
    Enclosed limit frame (run limit s) (run (limit + 1) (s.enclose frame)) := by
  rw [run_closing hrest, run_closing (rest_enclose_of_cons hrest)]
  rcases hframes : s.frames with _ | ⟨inner, outer⟩
  · have hclose : s.closeList bracket = .ends (.error .noMatch) s := by rw [closeList, hframes]
    rw [hclose, closeList_of_cons (frames_enclose_of_nil hframes)]
    refine .noMatch ?_
    split
    · -- the added list is closed, and the added bracket is left
      rw [complete_of_nil rfl, outcome_ends, enclose_advance_one hrest]
      intro hblank
      have hmem : frame.bracket.closing ∈ (s.advance 1).rest ++ [frame.bracket.closing] :=
        List.mem_append_right _ (List.mem_singleton.mpr rfl)
      have hclosing := hblank _ hmem
      rw [Byte.isBlank_closing] at hclosing
      cases hclosing
    · rfl
  · rw [closeList_of_cons hframes, closeList_of_cons (frames_enclose_of_cons hframes),
      enclose_advance_one hrest]
    change Enclosed limit frame _ ((if inner.bracket = bracket then _ else _ : Move).outcome _)
    split
    · refine enclosed_complete (s := (s.advance 1).withFrames outer) _ fun frames hne => ?_
      refine h _ ?_ hne
      change (s.advance 1).rest.length < _
      rw [length_rest_advance, hrest]
      exact Nat.lt_succ_self _
    · exact .noMatch rfl

/-- **Anything else** is the same atom, or none. -/
theorem enclosed_atom (hrest : s.rest = b :: behind) (hb : Byte.isBlank b = false)
    (hopening : Bracket.ofOpening? b = none) (hclosing : Bracket.ofClosing? b = none) :
    Enclosed limit frame (run limit s) (run (limit + 1) (s.enclose frame)) := by
  have hrest' : (s.enclose frame).rest = b :: (behind ++ [frame.bracket.closing]) :=
    rest_enclose_of_cons hrest
  have hahead : atomAhead? (s.enclose frame).rest = atomAhead? s.rest :=
    atomAhead?_concat (Byte.isSeparator_closing _) (by rw [hrest]; exact List.cons_ne_nil _ _)
  rcases hatom : atomAhead? s.rest with _ | ⟨a, n⟩
  · rw [run_of_no_atom hrest hb hopening hclosing hatom,
      run_of_no_atom hrest' hb hopening hclosing (hahead.trans hatom)]
    exact .noMatch rfl
  · obtain ⟨text, after, hsplit, rfl, hspelling, -⟩ := spelling_of_atomAhead? hatom
    obtain ⟨b', bytes, htext, hb'⟩ := exists_cons_of_spelling hspelling
    obtain rfl : b' = b := by
      rw [hrest, htext] at hsplit
      exact (List.cons.inj hsplit).1.symm
    have hlength : text.length ≤ s.rest.length := by
      rw [hsplit, List.length_append]
      exact Nat.le_add_right _ _
    rw [run_atom hrest hb' hatom, run_atom hrest' hb' (hahead.trans hatom),
      enclose_advance hlength]
    refine enclosed_complete _ fun frames hne => h _ ?_ hne
    change (s.advance text.length).rest.length < _
    have hpos := pos_of_atomAhead? hatom
    rw [length_rest_advance]
    omega

end Bytes

/-- **The end of the source**: the added bracket closes a list, but one more stays open. -/
theorem enclosed_nil (hrest : s.rest = []) (hframes : s.frames ≠ []) :
    Enclosed limit frame (run limit s) (run (limit + 1) (s.enclose frame)) := by
  have hblank : allBlank s.rest := hrest ▸ allBlank_nil
  obtain ⟨s', hs'⟩ : ∃ s', run limit s = (.error .noMatch, s') := run_of_allBlank hblank
  obtain ⟨inner, outer, houter⟩ := List.exists_cons_of_ne_nil hframes
  have hrest' : (s.enclose frame).rest = [frame.bracket.closing] := rest_enclose_of_nil hrest
  rw [hs', run_closing hrest', closeList_of_cons (frames_enclose_of_cons houter)]
  refine .noMatch ?_
  split
  · -- the added list is still below the one that was closed
    obtain ⟨next, below, hbelow⟩ :=
      List.exists_cons_of_ne_nil (List.append_ne_nil_of_right_ne_nil (outer.map Frame.shift)
        (List.cons_ne_nil frame []))
    rw [complete_of_cons hbelow, outcome_goesOn]
    refine failsToSpan_of_rest_eq_nil ?_
    change ((s.enclose frame).advance 1).rest = []
    rw [advance, hrest']
    rfl
  · rfl

/-- **A run within one more list.** Outside of all lists there has to be something to read, for
otherwise the added bracket closes the added list. -/
theorem enclosed_run (s : Forward) (h : s.frames ≠ [] ∨ ¬allBlank s.rest) :
    Enclosed limit frame (run limit s) (run (limit + 1) (s.enclose frame)) := by
  induction hn : s.rest.length using Nat.strongRecOn generalizing s with
  | ind n ih =>
    subst hn
    have hskip : s.skipBlanks.rest = behindBlanks s.rest :=
      rest_advance_of_append List.takeWhile_append_dropWhile.symm
    have hlength : s.skipBlanks.rest.length ≤ s.rest.length := by
      rw [hskip]
      exact (List.dropWhile_suffix _).length_le
    have ih' : ∀ v : Forward, v.rest.length < s.skipBlanks.rest.length → v.frames ≠ [] →
        Enclosed limit frame (run limit v) (run (limit + 1) (v.enclose frame)) :=
      fun v hv hne => ih _ (Nat.lt_of_lt_of_le hv hlength) v (Or.inl hne) rfl
    rw [← run_skipBlanks limit s, ← run_skipBlanks _ (s.enclose frame), enclose_skipBlanks]
    rcases hrest : s.skipBlanks.rest with _ | ⟨b, behind⟩
    · refine enclosed_nil hrest (h.resolve_right fun hne => hne ?_)
      exact behindBlanks_eq_nil_iff.mp (hskip.symm.trans hrest)
    rcases hopening : Bracket.ofOpening? b with _ | bracket
    · rcases hclosing : Bracket.ofClosing? b with _ | bracket
      · have hb : Byte.isBlank b = false := isBlank_of_behindBlanks (hskip.symm.trans hrest)
        exact enclosed_atom ih' hrest hb hopening hclosing
      · rw [Bracket.ofClosing?_eq_some_iff.mp hclosing] at hrest
        exact enclosed_closing ih' hrest
    · rw [Bracket.ofOpening?_eq_some_iff.mp hopening] at hrest
      exact enclosed_opening ih' hrest

end Runs

end Forward

/-! ### All forms, and the list of them -/

namespace Reader

open Forward

/-- **What becomes of reading all forms** where a list with some items is open around them: the
forms are put behind these items, and the list is closed by the last byte. -/
inductive EnclosedAll (limit : Nat) (items : List Form) :
    Except Failure (List Form) → Except Failure Form × Forward → Prop
  | closed {others : List Form} {s : Forward} : s.rest = [] →
    EnclosedAll limit items (.ok others) (.ok (.list (items ++ others)), s)
  | noMatch {o : Except Failure Form × Forward} : FailsToSpan o →
    EnclosedAll limit items (.error .noMatch) o
  | tooDeep {s : Forward} :
    EnclosedAll limit items (.error (.tooDeep limit limit))
      (.error (.tooDeep (limit + 1) (limit + 1)), s)

/-- An item of the list may as well be the first of the forms. -/
theorem EnclosedAll.cons {limit : Nat} {items : List Form} {t : Form}
    {forms : Except Failure (List Form)} {o : Except Failure Form × Forward}
    (h : EnclosedAll limit (items ++ [t]) forms o) :
    EnclosedAll limit items (forms.map (t :: ·)) o := by
  cases h with
  | closed hrest =>
    rw [List.append_assoc]
    exact .closed hrest
  | noMatch ho => exact .noMatch ho
  | tooDeep => exact .tooDeep

/-- Where only blanks are left the added list is closed behind them. -/
theorem enclosedAll_of_onlyBlanksLeft (limit : Nat) (frame : Frame) {s : Reader}
    (hleft : s.cursor.onlyBlanksLeft = true) :
    EnclosedAll limit frame.items.reverse (.ok [])
      (Forward.run (limit + 1) ((s.forward []).enclose frame)) := by
  have hrest : ((s.forward []).enclose frame).rest =
      s.cursor.rest ++ [frame.bracket.closing] := rfl
  have hclosing := Forward.rest_advance_of_append hrest
  rw [← run_advance_of_allBlank (List.all_eq_true.mp hleft) hrest, run_closing hclosing,
    closeList_of_cons rfl, if_pos rfl, complete_of_nil rfl, outcome_ends]
  have hend : ((((s.forward []).enclose frame).advance s.cursor.rest.length).advance 1).rest =
      [] := by
    rw [advance, hclosing]
    rfl
  have hclosed : EnclosedAll limit frame.items.reverse (.ok [])
      (.ok (.list (frame.items.reverse ++ [])),
        ((((s.forward []).enclose frame).advance s.cursor.rest.length).advance 1).withFrames
          []) := .closed hend
  rw [List.append_nil] at hclosed
  exact hclosed

/-- Where a form is left the machine reads it within the added list. -/
theorem enclosed_forward (limit : Nat) (frame : Frame) {s : Reader}
    (hleft : s.cursor.onlyBlanksLeft = false) :
    Enclosed limit frame (Forward.run limit (s.forward []))
      (Forward.run (limit + 1) ((s.forward []).enclose frame)) := by
  refine enclosed_run (s.forward []) (Or.inr fun hall => ?_)
  have hblank : s.cursor.onlyBlanksLeft = true := List.all_eq_true.mpr hall
  rw [hblank] at hleft
  cases hleft

/-- **All that an iteration hands out** is put into the added list, by the machine. -/
theorem enclosedAll_collect (frame : Frame) (s : Reader) (hs : s.arena.Unlimited)
    (hhalted : s.halted = false) :
    EnclosedAll s.config.maxDepth frame.items.reverse (allForms s.collect.1)
      (Forward.run (s.config.maxDepth + 1) ((s.forward []).enclose frame)) := by
  induction hn : s.cursor.left using Nat.strongRecOn generalizing s frame with
  | ind n ih =>
    subst hn
    cases hleft : s.cursor.onlyBlanksLeft with
    | true =>
      rw [collect_of_onlyBlanksLeft hleft]
      exact enclosedAll_of_onlyBlanksLeft _ frame hleft
    | false =>
      have hrun := enclosed_forward s.config.maxDepth frame hleft
      rcases hone : s.run one with ⟨f | t, s'⟩
      · obtain ⟨m, hm⟩ := run_forward_of_error hs hone
        rw [hm] at hrun
        rw [collect_of_run_error hhalted hleft hone]
        generalize Forward.run (s.config.maxDepth + 1) _ = o at hrun ⊢
        cases hrun with
        | noMatch ho => exact .noMatch ho
        | tooDeep => exact .tooDeep
      · have hm := run_forward_of_ok hs hone
        have hfollows := steady_one.follows_of_run hone
        have hlt := ((reads_one s).of_run_ok hone).left_lt
        rw [hm] at hrun
        rw [collect_of_run_ok hhalted hleft hone]
        have hrest := ih _ hlt (frame.append [t]) s' (hfollows.unlimited hs)
          (hfollows.halted.trans hhalted) rfl
        rw [hfollows.config, Frame.items_append, List.reverse_append, List.reverse_reverse] at hrest
        generalize Forward.run (s.config.maxDepth + 1) ((s.forward []).enclose frame) = o at hrun ⊢
        cases hrun with
        | completed _ => exact hrest.cons

/-! ### The whole source -/

/-- What the machine reads, if nothing is left behind it. -/
def spanning : Except Failure Form × Forward → Except Failure Form
  | (.ok t, s) => if s.rest.all Byte.isBlank then .ok t else .error .noMatch
  | (.error f, _) => .error f

theorem spanning_of_failsToSpan {o : Except Failure Form × Forward} (h : FailsToSpan o) :
    spanning o = .error .noMatch := by
  obtain ⟨f | t, s⟩ := o
  · exact congrArg Except.error h
  · exact if_neg fun hblank => h (List.all_eq_true.mp hblank)

/-- **A form and nothing else** is what the machine reads if nothing is left behind it. -/
theorem result_whole_eq_spanning (s : Reader) (hs : s.arena.Unlimited) :
    (s.run whole).result = spanning (Forward.run s.config.maxDepth (s.forward [])) := by
  rw [result_whole]
  rcases hone : s.run one with ⟨f | t, s'⟩
  · obtain ⟨m, hm⟩ := run_forward_of_error hs hone
    rw [hm]
    rfl
  · rw [run_forward_of_ok hs hone]
    rfl

/-- **The machine on a source between brackets** puts all forms of the source into one list. -/
theorem enclosedAll_forward (bracket : Bracket) (s t : Reader) (hs : s.arena.Unlimited)
    (hhalted : s.halted = false) (hpos : s.pos = 0) (htpos : t.pos = 0)
    (hrest : t.cursor.rest = bracket.opening :: s.cursor.rest ++ [bracket.closing]) :
    EnclosedAll s.config.maxDepth [] (s.run all).result
      (Forward.run (s.config.maxDepth + 1) (t.forward [])) := by
  have hopen : ((t.forward []).advance 1).withFrames [⟨bracket, t.pos, []⟩] =
      (s.forward []).enclose ⟨bracket, 0, []⟩ := by
    rw [enclose, forward, forward, advance, withFrames, hpos, htpos, hrest]
    rfl
  have hrun : Forward.run (s.config.maxDepth + 1) (t.forward []) =
      Forward.run (s.config.maxDepth + 1) ((s.forward []).enclose ⟨bracket, 0, []⟩) := by
    rw [run_opening hrest, openList_of_lt (Nat.succ_pos _), outcome_goesOn, ← hopen]
    rfl
  rw [(all_eq_allForms hs hhalted).1, hrun]
  exact enclosedAll_collect ⟨bracket, 0, []⟩ s hs hhalted

/-- **Putting brackets around a source** makes one form of all its forms, where memory is not
limited. A source of any kind goes through one bracket more with one more list open: the two
together are a list exactly if all forms of the source can be read, and these are its items; they
do not match exactly if the source does not; and they nest too deep exactly if the source does,
each at its own limit. There is nothing else that could happen. -/
theorem whole_between_brackets (source : List Byte) (maxDepth : Nat) (bracket : Bracket)
    (arena arena' : Arena) (harena : arena.Unlimited) (harena' : arena'.Unlimited) :
    let enclosed : Reader :=
      { ofBytes (bracket.opening :: source ++ [bracket.closing]) arena with
        config := { maxDepth := maxDepth + 1 } }
    let bare : Reader := { ofBytes source arena' with config := { maxDepth } }
    (∀ forms, (enclosed.run whole).result = .ok (.list forms) ↔
      (bare.run all).result = .ok forms) ∧
    ((enclosed.run whole).result = .error .noMatch ↔ (bare.run all).result = .error .noMatch) ∧
    ((enclosed.run whole).result = .error (.tooDeep (maxDepth + 1) (maxDepth + 1)) ↔
      (bare.run all).result = .error (.tooDeep maxDepth maxDepth)) ∧
    ((∃ forms, (bare.run all).result = .ok forms) ∨ (bare.run all).result = .error .noMatch ∨
      (bare.run all).result = .error (.tooDeep maxDepth maxDepth)) := by
  intro enclosed bare
  have hwhole := result_whole_eq_spanning enclosed harena
  have hall := enclosedAll_forward bracket bare enclosed harena' rfl rfl rfl rfl
  change EnclosedAll maxDepth [] _ (Forward.run (maxDepth + 1) _) at hall
  change _ = spanning (Forward.run (maxDepth + 1) _) at hwhole
  generalize Forward.run (maxDepth + 1) _ = o at hall hwhole
  generalize (bare.run all).result = forms at hall
  rw [hwhole]
  cases hall with
  | @closed forms s hrest =>
    have hlist : spanning (.ok (.list ([] ++ forms)), s) = .ok (.list forms) := by
      rw [spanning, hrest]
      rfl
    rw [hlist]
    exact ⟨fun others => by simp, by simp, by simp, Or.inl ⟨forms, rfl⟩⟩
  | noMatch ho =>
    rw [spanning_of_failsToSpan ho]
    exact ⟨fun others => by simp, by simp, by simp, Or.inr (Or.inl rfl)⟩
  | tooDeep => exact ⟨fun others => by simp [spanning], by simp [spanning], by simp [spanning],
      Or.inr (Or.inr rfl)⟩

/-- A closing bracket and an opening one do not match anything, and between brackets they are two
lists, which is one too many. -/
theorem whole_between_brackets_reversed :
    ({} : Arena).Unlimited ∧ ((ofBytes (Text.bytes ")(")).run all).result = .error .noMatch ∧
      (({ ofBytes (Text.bytes "()()") with config := { maxDepth := 257 } } : Reader).run
        whole).result = .error .noMatch := by
  have hall : ((ofBytes (Text.bytes ")(")).run all).result = .error .noMatch := by decide +kernel
  exact ⟨Arena.unlimited_default, hall, (whole_between_brackets (Text.bytes ")(") 256 .round {} {}
    Arena.unlimited_default Arena.unlimited_default).2.1.mpr hall⟩

end Reader

end FormReader
