import FormReader.Form.Depth
import FormReader.Proofs.Layouts

/-!
# Runs of the machine

The machine `FormReader.Forward` on sources that are laid out. A run is a step and what comes
of it (`FormReader.Forward.run_eq`), and a step is decided by the first byte that is not
blank, so there is one lemma for each sort of byte.

Over a layout of a form the machine comes to the point where it completes the form, if the
lists that are open leave enough room for it (`FormReader.Forward.run_laidOut`); otherwise it
meets an opening bracket too many (`FormReader.Forward.run_laidOut_tooDeep`). Both go by
recursion on the form, with what happens between the brackets of a list stated along with
it: there the items are put onto the innermost list, latest first.
-/

namespace FormReader

/-- A list with more items, put behind those that it has. -/
def Frame.append (frame : Frame) (items : List Form) : Frame :=
  { frame with items := items.reverse ++ frame.items }

@[simp] theorem Frame.bracket_append (frame : Frame) (items : List Form) :
    (frame.append items).bracket = frame.bracket := rfl

@[simp] theorem Frame.items_append (frame : Frame) (items : List Form) :
    (frame.append items).items = items.reverse ++ frame.items := rfl

theorem Frame.append_nil (frame : Frame) : frame.append [] = frame := rfl

theorem Frame.append_append (frame : Frame) (items items' : List Form) :
    (frame.append items).append items' = frame.append (items ++ items') := by
  simp [append]

namespace Forward

/-! ### A run from its first step -/

/-- **What comes of a move**: the run goes on from it, or is over. -/
def Move.outcome (limit : Nat) : Move → Except Failure Form × Forward
  | .goesOn s => run limit s
  | .ends result s => (result, s)

@[simp] theorem outcome_goesOn (limit : Nat) (s : Forward) :
    (Move.goesOn s).outcome limit = run limit s := rfl

@[simp] theorem outcome_ends (limit : Nat) (result : Except Failure Form) (s : Forward) :
    (Move.ends result s).outcome limit = (result, s) := rfl

/-- **A run** is a step and what comes of it. -/
theorem run_eq (limit : Nat) (s : Forward) : run limit s = (s.step limit).outcome limit := by
  rw [run]
  split
  · next result s' h => exact (congrArg (Move.outcome limit) h).symm
  · next s' h => exact (congrArg (Move.outcome limit) h).symm

/-! ### Blanks -/

/-- Passing over blanks makes no difference to a run. -/
theorem run_advance_of_allBlank {limit : Nat} {s : Forward} {blanks behind : List Byte}
    (hblanks : allBlank blanks) (hrest : s.rest = blanks ++ behind) :
    run limit (s.advance blanks.length) = run limit s := by
  -- both runs begin with the same step, from behind all of the blanks
  have hskip : (s.advance blanks.length).skipBlanks = s.skipBlanks := by
    have hdrop : s.rest.drop blanks.length = behind := by
      rw [hrest, List.drop_left]
    have htake : s.rest.takeWhile Byte.isBlank = blanks ++ behind.takeWhile Byte.isBlank := by
      rw [hrest, List.takeWhile_append_of_pos hblanks]
    rw [skipBlanks, skipBlanks, advance, advance, advance, htake, hdrop, List.length_append,
      ← List.drop_drop, hdrop, Nat.add_assoc]
  rw [run_eq, run_eq, step, step, hskip]

theorem run_skipBlanks (limit : Nat) (s : Forward) : run limit s.skipBlanks = run limit s :=
  run_advance_of_allBlank (fun _ hb => List.mem_takeWhile_imp hb)
    List.takeWhile_append_dropWhile.symm

/-- A run stands still before a byte that is not blank. -/
theorem run_of_not_blank {limit : Nat} {s : Forward} {b : Byte} {behind : List Byte}
    (hrest : s.rest = b :: behind) (hb : Byte.isBlank b = false) :
    run limit s = (s.decideNext limit).outcome limit := by
  have hskip : s.skipBlanks = s := by
    have htake : s.rest.takeWhile Byte.isBlank = [] := by
      rw [hrest, List.takeWhile_cons_of_neg]
      rw [hb]
      exact Bool.false_ne_true
    rw [skipBlanks, htake]
    rfl
  rw [run_eq, step, hskip]

/-- Where only blanks are left there is nothing to complete. -/
theorem run_of_allBlank {limit : Nat} {s : Forward} (h : allBlank s.rest) :
    ∃ s', run limit s = (.error .noMatch, s') := by
  have hrest : s.skipBlanks.rest = [] := by
    change s.rest.drop (s.rest.takeWhile Byte.isBlank).length = []
    rw [List.takeWhile_eq_self_iff.mpr h, List.drop_length]
  refine ⟨s.skipBlanks, ?_⟩
  rw [run_eq, step, decideNext, hrest]
  rfl

/-! ### One lemma for each sort of byte -/

section Bytes

variable {limit : Nat} {s : Forward} {bracket : Bracket} {b : Byte} {behind : List Byte}

theorem run_opening (hrest : s.rest = bracket.opening :: behind) :
    run limit s = (s.openList limit bracket).outcome limit := by
  rw [run_of_not_blank hrest (Byte.isBlank_opening bracket), decideNext, hrest]
  simp only [List.head?_cons, Bracket.ofOpening?_opening]

theorem run_closing (hrest : s.rest = bracket.closing :: behind) :
    run limit s = (s.closeList bracket).outcome limit := by
  rw [run_of_not_blank hrest (Byte.isBlank_closing bracket), decideNext, hrest]
  simp only [List.head?_cons, ofOpening?_closing, Bracket.ofClosing?_closing]

/-- An atom never begins with a bracket. -/
theorem run_atom {a : Atom} {n : Nat} (hrest : s.rest = b :: behind)
    (hb : Byte.isSeparator b = false) (hahead : atomAhead? s.rest = some (a, n)) :
    run limit s = ((s.advance n).complete (.atom a)).outcome limit := by
  rw [run_of_not_blank hrest (isBlank_of_isSeparator hb), decideNext, hahead, hrest]
  simp only [List.head?_cons, ofOpening?_of_isSeparator hb, ofClosing?_of_isSeparator hb]

theorem run_of_no_atom (hrest : s.rest = b :: behind) (hb : Byte.isBlank b = false)
    (hopening : Bracket.ofOpening? b = none) (hclosing : Bracket.ofClosing? b = none)
    (hahead : atomAhead? s.rest = none) : run limit s = (.error .noMatch, s) := by
  rw [run_of_not_blank hrest hb, decideNext, hahead, hrest]
  simp only [List.head?_cons, hopening, hclosing, outcome_ends]

end Bytes

/-! ### Lists that are open -/

/-- The machine with other lists open. -/
def withFrames (s : Forward) (frames : List Frame) : Forward := ⟨s.pos, s.rest, frames⟩

section Frames

variable {limit : Nat} {s : Forward} {bracket : Bracket} {frame : Frame} {outer : List Frame}
  {form : Form}

@[simp] theorem frames_withFrames (frames : List Frame) :
    (s.withFrames frames).frames = frames := rfl

@[simp] theorem withFrames_withFrames (frames frames' : List Frame) :
    (s.withFrames frames).withFrames frames' = s.withFrames frames' := rfl

@[simp] theorem advance_withFrames (frames : List Frame) (n : Nat) :
    (s.withFrames frames).advance n = (s.advance n).withFrames frames := rfl

@[simp] theorem frames_advance (n : Nat) : (s.advance n).frames = s.frames := rfl

theorem rest_advance_of_append {passed behind : List Byte} (h : s.rest = passed ++ behind) :
    (s.advance passed.length).rest = behind := by
  rw [advance, h]
  exact List.drop_left

theorem advance_advance (m n : Nat) : (s.advance m).advance n = s.advance (m + n) := by
  rw [advance, advance, advance, List.drop_drop, Nat.add_assoc]

theorem openList_of_lt (h : s.frames.length < limit) :
    s.openList limit bracket =
      .goesOn ((s.advance 1).withFrames (⟨bracket, s.pos, []⟩ :: s.frames)) := if_pos h

theorem openList_of_le (h : limit ≤ s.frames.length) :
    s.openList limit bracket = .ends (.error (.tooDeep limit limit)) (s.advance 1) :=
  if_neg (Nat.not_lt.mpr h)

theorem complete_of_nil (h : s.frames = []) : s.complete form = .ends (.ok form) s := by
  rw [complete, h]

theorem complete_of_cons (h : s.frames = frame :: outer) :
    s.complete form = .goesOn (s.withFrames (frame.append [form] :: outer)) := by
  rw [complete, h]
  rfl

theorem closeList_of_cons (h : s.frames = frame :: outer) :
    s.closeList bracket =
      if frame.bracket = bracket then
        ((s.advance 1).withFrames outer).complete (.list frame.items.reverse)
      else .ends (.error .noMatch) s := by
  rw [closeList, h]
  rfl

end Frames

/-! ### Running over a layout -/

mutual

/-- **Over a layout** of a form the machine comes to the point where it completes the form,
if there is room for it. -/
theorem run_laidOut : ∀ {form : Form} {text behind : List Byte}, LaidOut text form behind →
    ∀ {limit : Nat} {s : Forward}, s.rest = text ++ behind →
    s.frames.length + form.depth ≤ limit →
    run limit s = ((s.advance text.length).complete form).outcome limit
  | .atom a, text, behind, h, limit, s, hrest, _ => by
    cases h with
    | atom hspelling hend =>
      obtain ⟨b, bytes, htext, hb⟩ := exists_cons_of_spelling hspelling
      have hahead : atomAhead? s.rest = some (a, text.length) := by
        rw [hrest]
        exact atomAhead?_of_spelling hspelling hend
      rw [htext, List.cons_append] at hrest
      exact run_atom hrest hb hahead
  | .list items, _, behind, h, limit, s, hrest, hroom => by
    cases h with
    | @list bracket inner _ _ hitems =>
      rw [Form.depth_list] at hroom
      have hrest₁ : (s.advance 1).rest = inner ++ bracket.closing :: behind := by
        rw [advance, hrest]
        simp
      rw [List.cons_append, List.cons_append] at hrest
      have hrest₂ (frames : List Frame) :
          (((s.advance 1).advance inner.length).withFrames frames).rest =
            bracket.closing :: behind :=
        rest_advance_of_append hrest₁
      -- the list is opened, its items are gathered, and it is closed
      rw [run_opening hrest, openList_of_lt (by omega), outcome_goesOn,
        run_itemsLaidOut hitems hrest₁ (by omega), run_closing (hrest₂ _), closeList_of_cons rfl,
        Frame.bracket_append, if_pos rfl, Frame.items_append, List.append_nil, List.reverse_reverse]
      have hs : ((((s.advance 1).advance inner.length).withFrames
          (Frame.append ⟨bracket, s.pos, []⟩ items :: s.frames)).advance 1).withFrames s.frames =
            s.advance (bracket.opening :: inner ++ [bracket.closing]).length := by
        rw [advance_withFrames, withFrames_withFrames, advance_advance, advance_advance,
          List.length_append, List.length_cons, List.length_singleton, Nat.add_comm 1]
        rfl
      rw [hs]

/-- **Over a layout of items** the machine puts the items onto the innermost list, latest
first. -/
theorem run_itemsLaidOut : ∀ {items : List Form} {bytes behind : List Byte},
    ItemsLaidOut bytes items behind →
    ∀ {limit : Nat} {s : Forward} {frame : Frame} {outer : List Frame}, s.rest = bytes ++ behind →
    outer.length + (Form.depthOfItems items + 1) ≤ limit →
    run limit (s.withFrames (frame :: outer)) =
      run limit ((s.advance bytes.length).withFrames (frame.append items :: outer))
  | [], bytes, behind, h, limit, s, frame, outer, hrest, _ => by
    cases h with
    | nil hblanks =>
      have hrest' : (s.withFrames (frame :: outer)).rest = bytes ++ behind := hrest
      rw [← run_advance_of_allBlank hblanks hrest', Frame.append_nil, advance_withFrames]
  | item :: items, _, behind, h, limit, s, frame, outer, hrest, hroom => by
    cases h with
    | @cons blanks text rest _ _ _ hblanks hitem hitems =>
      rw [Form.depthOfItems] at hroom
      rw [List.append_assoc, List.append_assoc] at hrest
      have hrest₁ : (s.advance blanks.length).rest = text ++ (rest ++ behind) :=
        rest_advance_of_append hrest
      have hrest₂ : ((s.advance blanks.length).advance text.length).rest = rest ++ behind :=
        rest_advance_of_append hrest₁
      calc run limit (s.withFrames (frame :: outer))
        _ = run limit ((s.advance blanks.length).withFrames (frame :: outer)) :=
          (run_advance_of_allBlank (s := s.withFrames (frame :: outer)) hblanks hrest).symm
        _ = _ :=
          run_laidOut hitem (s := (s.advance blanks.length).withFrames (frame :: outer)) hrest₁
            (by rw [frames_withFrames, List.length_cons]; omega)
        _ = run limit (((s.advance blanks.length).advance text.length).withFrames
            (frame.append [item] :: outer)) := by
          rw [complete_of_cons rfl, outcome_goesOn]
          rfl
        _ = _ := run_itemsLaidOut hitems hrest₂ (by omega)
        _ = _ := by
          rw [Frame.append_append, List.singleton_append, advance_advance, advance_advance,
            List.length_append, List.length_append, Nat.add_assoc]

end

/-! ### Running out of room -/

mutual

/-- **Over a layout of a form that is too deep** the machine meets an opening bracket for
which there is no room. -/
theorem run_laidOut_tooDeep : ∀ {form : Form} {text behind : List Byte},
    LaidOut text form behind → ∀ {limit : Nat} {s : Forward}, s.rest = text ++ behind →
    s.frames.length ≤ limit → limit < s.frames.length + form.depth →
    ∃ s', run limit s = (.error (.tooDeep limit limit), s')
  | .atom a, text, behind, _, limit, s, _, hopen, hdeep => by
    rw [Form.depth_atom] at hdeep
    omega
  | .list items, _, behind, h, limit, s, hrest, hopen, hdeep => by
    cases h with
    | @list bracket inner _ _ hitems =>
      rw [Form.depth_list] at hdeep
      have hrest₁ : (s.advance 1).rest = inner ++ bracket.closing :: behind := by
        rw [advance, hrest]
        simp
      rw [List.cons_append, List.cons_append] at hrest
      rw [run_opening hrest]
      -- either this bracket is the one too many, or it is one inside the list
      rcases Nat.lt_or_ge s.frames.length limit with hroom | hfull
      · rw [openList_of_lt hroom, outcome_goesOn]
        exact run_itemsLaidOut_tooDeep hitems hrest₁ hroom (by omega)
      · rw [openList_of_le hfull, outcome_ends]
        exact ⟨_, rfl⟩

/-- Over a layout of items one of which is too deep the machine gathers those before it. -/
theorem run_itemsLaidOut_tooDeep : ∀ {items : List Form} {bytes behind : List Byte},
    ItemsLaidOut bytes items behind →
    ∀ {limit : Nat} {s : Forward} {frame : Frame} {outer : List Frame}, s.rest = bytes ++ behind →
    outer.length < limit → limit < outer.length + (Form.depthOfItems items + 1) →
    ∃ s', run limit (s.withFrames (frame :: outer)) = (.error (.tooDeep limit limit), s')
  | [], _, _, _, limit, _, _, outer, _, hopen, hdeep => by
    rw [Form.depthOfItems] at hdeep
    omega
  | item :: items, _, behind, h, limit, s, frame, outer, hrest, hopen, hdeep => by
    cases h with
    | @cons blanks text rest _ _ _ hblanks hitem hitems =>
      rw [Form.depthOfItems] at hdeep
      rw [List.append_assoc, List.append_assoc] at hrest
      have hrest₁ : ((s.advance blanks.length).withFrames (frame :: outer)).rest =
          text ++ (rest ++ behind) := rest_advance_of_append hrest
      have hlength : ((s.advance blanks.length).withFrames (frame :: outer)).frames.length =
          outer.length + 1 := rfl
      rw [← run_advance_of_allBlank (s := s.withFrames (frame :: outer)) hblanks hrest,
        advance_withFrames]
      rcases Nat.lt_or_ge limit (outer.length + 1 + item.depth) with hitemDeep | hfits
      · exact run_laidOut_tooDeep hitem hrest₁ (by omega) (by omega)
      · -- this item still fits, so it is one behind it that is too deep
        rw [run_laidOut hitem hrest₁ (by omega), complete_of_cons rfl, outcome_goesOn]
        have hrest₂ : ((s.advance blanks.length).advance text.length).rest = rest ++ behind :=
          rest_advance_of_append hrest₁
        exact run_itemsLaidOut_tooDeep hitems hrest₂ hopen (by omega)

end

end Forward

end FormReader
