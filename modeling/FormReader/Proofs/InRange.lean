import FormReader.Proofs.Footing
import FormReader.Proofs.Trails

/-!
# Nothing is asked that has no answer

A cursor can be set to any position, and bytes can be asked for that a source does not have: the
question then has no answer, and whoever asked it has made a mistake. No session makes one,
whatever the source, the arena and the settings are and whatever fails on the way
(`FormReader.Reader.session_in_range`). At every moment of it the cursor is in the source or at
its end, a token can be taken wherever one is, and a string is cut out between positions of the
source that are in order.

It is enough to look at the ground on which every position of the source has footing
(`FormReader.inRange`). That items are never linked out of nothing is another matter, and does
not depend on positions (`FormReader.Reader.ends_linkedItems`).
-/

namespace FormReader

/-- **The ground of all positions**, up to the end of the source. -/
def inRange (source : List Byte) : Ground where
  source := source
  footing p := p ≤ source.length
  piece _ := True
  footing_zero := Nat.zero_le _
  footing_length := Nat.le_refl _
  le_length := id
  footing_of_ascii := by
    intro p b hget _
    obtain ⟨hlt, -⟩ := List.getElem?_eq_some_iff.mp hget
    exact ⟨Nat.le_of_lt hlt, hlt⟩
  piece_of_footing _ _ _ := trivial

/-- **A moment is in range** of a source: the cursor is in the source or at its end, and what is
asked of the source is there. -/
structure Moment.InRange (source : List Byte) (m : Moment) : Prop where
  onSource : m.reader.cursor.source.toList = source
  pos : m.reader.pos ≤ source.length
  token : m.request = .token → m.reader.cursor.token? ≠ none
  slice : ∀ start stop, m.request = .slice start stop → start ≤ stop ∧ stop ≤ source.length

theorem Ground.Passes.inRange {source : List Byte} {m : Moment}
    (h : (FormReader.inRange source).Passes m) : m.InRange source where
  onSource := h.bears.cursor.source
  pos := h.bears.cursor.pos
  token := by
    intro _
    rw [Cursor.token?_eq, if_pos h.bears.cursor.pos_le]
    exact Option.some_ne_none _
  slice := by
    intro start stop hrequest
    obtain ⟨hle, -, hstop⟩ : (FormReader.inRange source).Allows (.slice start stop) :=
      hrequest ▸ h.allows
    exact ⟨hle, hstop⟩

namespace Reader

/-! ### Sessions -/

/-- **No session leaves its source.** From the beginning of any source on, with any arena, every
moment of any session is in range, the trail having no gaps; and so is the end of it. No answer, not
even one inside of an attempt, tells of a question that had none. Items that have been linked are
never none, so the rule for items has nothing to refuse. -/
theorem session_in_range (source : List Byte) (arena : Arena) (steps : List Step) :
    let s := ofBytes source arena
    Leads s (s.sessionTrail steps) (s.session steps).2 ∧
      (∀ m ∈ s.sessionTrail steps, m.InRange source) ∧
      (s.session steps).2.pos ≤ source.length ∧
      (∀ report ∈ (s.session steps).1, ¬report.answer.TellsOf .outOfRange) ∧
      ∀ (form : ReadM Form) (s : Reader),
        (∀ found, (s.run (linkedItems form)).result = .ok found → found ≠ []) ∧
          s.run (items form) = s.run (linkedItems form) := by
  have h := (inRange source).sustains_session steps (Ground.bears_ofBytes arena)
  refine ⟨leads_sessionTrail _ steps, fun m hm => (h.trail m hm).inRange, h.bears.cursor.pos,
    fun report hreport => ?_, fun form s => ⟨fun found hfound => ?_, ?_⟩⟩
  · exact h.answers _ (List.mem_map_of_mem hreport)
  · exact (ends_linkedItems form s).of_result_ok hfound
  · rw [items_eq_linkedItems]

end Reader

end FormReader
