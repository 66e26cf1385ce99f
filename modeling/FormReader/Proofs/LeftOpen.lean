import FormReader.LeftOpen
import FormReader.Proofs.Machine

/-!
# The machine ends in the dead end

Lists that are left open are what the machine holds on its stack when it gives up. Over complete
forms it comes back to the same stack (`FormReader.Forward.run_itemsLaidOut`), so it goes along
the lists that are left open as they are told, unless there are more of them than it may open
(`FormReader.Forward.run_leftOpen`). The machine does one thing only. Hence where it does not run
out of room there is only one way to tell which lists are left open, although it is told by a
relation.
-/

namespace FormReader

/-! ### Dead ends -/

/-- No atom is laid out at the beginning of some bytes exactly if none is found there. -/
theorem atomAhead?_eq_none_iff {ahead : List Byte} :
    atomAhead? ahead = none ↔ ∀ {text behind : List Byte} {a : Atom}, ahead = text ++ behind →
      ¬LaidOut text (.atom a) behind := by
  constructor
  · rintro hnone text behind a rfl htext
    cases htext with
    | atom hspelling hend =>
      rw [atomAhead?_of_spelling hspelling hend] at hnone
      cases hnone
  · intro hatom
    rcases hahead : atomAhead? ahead with _ | ⟨a, n⟩
    · rfl
    · obtain ⟨text, behind, hsplit, -, hspelling, hend⟩ := spelling_of_atomAhead? hahead
      exact absurd (.atom hspelling hend) (hatom hsplit)

section DeadEnd

variable {around : Option Bracket} {ahead : List Byte}

/-- **Outside of all lists** there is a dead end where neither an atom nor an opening bracket comes
next. -/
theorem deadEnd_none (hblank : ∀ b ∈ ahead.head?, Byte.isBlank b = false)
    (hopening : ahead.head?.bind Bracket.ofOpening? = none) (hatom : atomAhead? ahead = none) :
    DeadEnd none ahead where
  not_blank := hblank
  not_opening bracket h := by
    rw [h, Option.bind_some, Bracket.ofOpening?_opening] at hopening
    cases hopening
  not_closing := nofun
  no_atom := atomAhead?_eq_none_iff.mp hatom

/-- A dead end is one inside of a list, too, if it is not the end of the list. -/
theorem DeadEnd.inList {bracket : Bracket} (h : DeadEnd none ahead)
    (hclosing : ahead.head? ≠ some bracket.closing) : DeadEnd (some bracket) ahead where
  not_blank := h.not_blank
  not_opening := h.not_opening
  not_closing := by
    rintro _ ⟨⟩
    exact hclosing
  no_atom := h.no_atom

end DeadEnd

/-! ### What comes next -/

namespace LeftOpen

variable {around : Option Bracket} {pos stop : Nat} {rest ahead : List Byte} {o : OpenBracket}
  {opened : List OpenBracket}

/-- Where no list is left open the dead end comes next. -/
theorem of_nil (h : LeftOpen around pos rest [] stop ahead) :
    stop = pos + (rest.takeWhile Byte.isBlank).length ∧ ahead = behindBlanks rest := by
  cases h with
  | deadEnd hblanks hend =>
    rw [takeWhile_run_append hblanks hend.not_blank, behindBlanks_append hblanks hend.not_blank]
    exact ⟨rfl, rfl⟩

/-- Where a list is left open its opening bracket comes next. -/
theorem of_cons (h : LeftOpen around pos rest (o :: opened) stop ahead) :
    o.pos = pos + (rest.takeWhile Byte.isBlank).length ∧
      (behindBlanks rest).head? = some o.bracket.opening := by
  cases h with
  | @inside _ _ _ blanks inner rest _ bracket _ _ hblanks _ _ =>
    have hopening : ∀ b ∈ (bracket.opening :: (inner ++ rest)).head?, Byte.isBlank b = false := by
      rintro _ ⟨⟩
      exact Byte.isBlank_opening bracket
    rw [takeWhile_run_append hblanks hopening, behindBlanks_append hblanks hopening]
    exact ⟨rfl, rfl⟩

/-- What is told outside of all lists holds inside of a list, too, if this is not closed next. -/
theorem inList {bracket : Bracket} (h : LeftOpen none pos rest opened stop ahead)
    (hclosing : (behindBlanks rest).head? ≠ some bracket.closing) :
    LeftOpen (some bracket) pos rest opened stop ahead := by
  cases h with
  | deadEnd hblanks hend =>
    rw [behindBlanks_append hblanks hend.not_blank] at hclosing
    exact .deadEnd hblanks (hend.inList hclosing)
  | inside hblanks hitems hrest => exact .inside hblanks hitems hrest

/-- Open brackets do not come before the position that they are looked for from. -/
theorem le_pos (h : LeftOpen around pos rest opened stop ahead) : ∀ o ∈ opened, pos ≤ o.pos := by
  induction h with
  | deadEnd _ _ => exact nofun
  | inside _ _ _ ih =>
    refine List.forall_mem_cons.mpr ⟨Nat.le_add_right _ _, fun o ho => ?_⟩
    have hle := ih o ho
    omega

/-- **Open brackets** stand one behind the other. -/
theorem pairwise_pos (h : LeftOpen around pos rest opened stop ahead) :
    opened.Pairwise fun o o' => o.pos < o'.pos := by
  induction h with
  | deadEnd _ _ => exact .nil
  | inside _ _ hrest ih =>
    refine .cons (fun o ho => ?_) ih
    have hle := hrest.le_pos o ho
    dsimp only
    omega

/-- **The cause for the outermost list** comes last, and is what stands where the next byte that is
not blank is. -/
theorem diagnoses_cons (h : LeftOpen around pos rest opened stop ahead) (outer : OpenBracket) :
    diagnoses (outer :: opened) stop ahead =
      diagnoses opened stop ahead ++
        [cause outer.bracket (pos + (rest.takeWhile Byte.isBlank).length) (behindBlanks rest)] := by
  rcases opened with _ | ⟨next, opened⟩
  · obtain ⟨rfl, rfl⟩ := h.of_nil
    rfl
  · obtain ⟨hpos, hhead⟩ := h.of_cons
    rw [diagnoses, ← hpos, cause, hhead]
    simp only [Bracket.ofClosing?_opening]

end LeftOpen

/-! ### The machine -/

/-- The bracket with which a list on the stack was opened. -/
def Frame.opened (frame : Frame) : OpenBracket := ⟨frame.bracket, frame.pos⟩

namespace Forward

/-- **In a dead end** the machine ends where it stands. -/
theorem run_deadEnd {limit : Nat} {s : Forward}
    (h : DeadEnd (s.frames.head?.map Frame.bracket) s.rest) :
    run limit s = (.error .noMatch, s) := by
  rcases hrest : s.rest with _ | ⟨b, behind⟩
  · have hskip : s.skipBlanks = s := by
      rw [skipBlanks, advance, hrest, List.takeWhile_nil, List.length_nil, List.drop_nil, ← hrest]
      rfl
    rw [run_eq, step, hskip, decideNext, hrest]
    rfl
  · have hhead : s.rest.head? = some b := by
      rw [hrest]
      rfl
    rcases hclosing : Bracket.ofClosing? b with _ | other
    · have hopening : Bracket.ofOpening? b = none := by
        rcases hb : Bracket.ofOpening? b with _ | bracket
        · rfl
        · exact absurd (Bracket.ofOpening?_eq_some_iff.mp hb ▸ hhead) (h.not_opening bracket)
      exact run_of_no_atom hrest (h.not_blank b hhead) hopening hclosing
        (atomAhead?_eq_none_iff.mpr h.no_atom)
    · rw [Bracket.ofClosing?_eq_some_iff.mp hclosing] at hrest hhead
      rw [run_closing hrest]
      rcases hframes : s.frames with _ | ⟨frame, outer⟩
      · rw [closeList, hframes]
        rfl
      · -- the innermost list is closed by another bracket
        have hother : frame.bracket ≠ other := by
          rintro rfl
          exact h.not_closing frame.bracket (by rw [hframes]; rfl) hhead
        rw [closeList_of_cons hframes, if_neg hother]
        rfl

/-- **Along lists that are left open** the machine opens them, and ends in the dead end, unless
there is too little room. -/
theorem run_leftOpen {limit pos stop : Nat} {around : Option Bracket} {rest ahead : List Byte}
    {opened : List OpenBracket} (h : LeftOpen around pos rest opened stop ahead) :
    ∀ frames : List Frame, frames.head?.map Frame.bracket = around →
      (∃ inner, run limit ⟨pos, rest, frames⟩ = (.error .noMatch, ⟨stop, ahead, inner⟩) ∧
        inner.map Frame.opened = opened.reverse ++ frames.map Frame.opened) ∨
      ∃ m, run limit ⟨pos, rest, frames⟩ = (.error (.tooDeep limit limit), m) := by
  induction h with
  | @deadEnd around pos blanks ahead hblanks hend =>
    intro frames hframes
    refine Or.inl ⟨frames, ?_, rfl⟩
    rw [← run_advance_of_allBlank hblanks rfl, advance, List.drop_left]
    refine run_deadEnd ?_
    rw [hframes]
    exact hend
  | @inside around pos stop blanks inner rest ahead bracket items opened hblanks hitems hrest ih =>
    intro frames hframes
    have hopening : ((⟨pos, blanks ++ bracket.opening :: (inner ++ rest), frames⟩ : Forward).advance
        blanks.length) = ⟨pos + blanks.length, bracket.opening :: (inner ++ rest), frames⟩ := by
      rw [advance, List.drop_left]
    rw [← run_advance_of_allBlank hblanks rfl, hopening, run_opening rfl]
    rcases Nat.lt_or_ge frames.length limit with hroom | hfull
    · rw [openList_of_lt hroom, outcome_goesOn]
      rcases Nat.lt_or_ge limit (frames.length + (Form.depthOfItems items + 1)) with hdeep | hfits
      · exact Or.inr (run_itemsLaidOut_tooDeep hitems rfl hroom hdeep)
      · -- behind the complete forms the machine is inside the list that is left open
        rw [run_itemsLaidOut hitems rfl hfits]
        have hbehind := ih (Frame.append ⟨bracket, pos + blanks.length, []⟩ items :: frames) rfl
        have hplace : ((⟨pos + blanks.length, bracket.opening :: (inner ++ rest), frames⟩ :
            Forward).advance 1).advance inner.length =
              ⟨pos + blanks.length + 1 + inner.length, rest, frames⟩ := by
          rw [advance, advance, List.drop_one, List.tail_cons, List.drop_left]
        rw [hplace]
        refine hbehind.imp_left ?_
        rintro ⟨frames', hrun, hframes'⟩
        refine ⟨frames', hrun, ?_⟩
        rw [hframes', List.reverse_cons, List.append_assoc]
        rfl
    · rw [openList_of_le hfull, outcome_ends]
      exact Or.inr ⟨_, rfl⟩

end Forward

end FormReader
