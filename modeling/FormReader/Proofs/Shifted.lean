import FormReader.Cursor.Lemmas
import FormReader.Event
import Mathlib.Data.Option.Basic

/-!
# Sources that begin further on

What lies ahead of a cursor can be made a source of its own. A cursor at the beginning of it
stands before the same bytes and differs in its positions alone, by an offset
(`FormReader.Cursor.Shifted`), and every move does the same on both. The positions that are
told in events differ by the offset as well (`FormReader.Event.shift`).
-/

namespace FormReader

/-! ### Events and where they happened -/

/-- An event of a reader whose source begins `offset` bytes earlier. -/
def Event.shift (offset : Nat) : Event → Event
  | rewinding start target => rewinding (start + offset) (target + offset)
  | trailing pos => trailing (pos + offset)
  | mismatched pos expected found => mismatched (pos + offset) expected found
  | unparsable pos expected => unparsable (pos + offset) expected
  | e => e

@[simp] theorem Event.shift_zero (e : Event) : e.shift 0 = e := by
  cases e <;> rfl

theorem Event.map_shift_zero (events : List Event) : events.map (shift 0) = events := by
  rw [funext shift_zero, List.map_id']

/-! ### Cursors over the same bytes -/

namespace Cursor

/-- **Shifted cursors**: the source of the second one begins `offset` bytes further on, and
both stand before the same byte of it. -/
structure Shifted (offset : Nat) (c d : Cursor) : Prop where
  source : d.source.toList = c.source.toList.drop offset
  offset_le : offset ≤ c.source.size
  pos : c.pos = d.pos + offset

namespace Shifted

variable {offset : Nat} {c d c' d' : Cursor}

theorem size (h : c.Shifted offset d) : c.source.size = d.source.size + offset := by
  have hlength := congrArg List.length h.source
  have hoffset := h.offset_le
  rw [List.length_drop, Array.length_toList, Array.length_toList] at hlength
  omega

/-- They see the same bytes. -/
theorem rest (h : c.Shifted offset d) : c.rest = d.rest := by
  rw [c.rest_eq, d.rest_eq, h.source, List.drop_drop, h.pos, Nat.add_comm]

theorem left (h : c.Shifted offset d) : c.left = d.left := by
  rw [← c.length_rest, ← d.length_rest, h.rest]

/-- Shifted cursors go forward by the same number of bytes. -/
theorem advance (h : c.Shifted offset d) (n : Nat) :
    (c.advance n).Shifted offset (d.advance n) := by
  refine ⟨h.source, h.offset_le, ?_⟩
  rw [pos_advance, pos_advance, h.pos, Nat.add_right_comm]

/-- Without an offset the cursors are the same. -/
theorem eq_of_zero (h : c.Shifted 0 d) : c = d := by
  refine ext_of_pos (Array.toList_inj.mp ?_) h.pos
  rw [h.source, List.drop_zero]

theorem of_zero (c : Cursor) : c.Shifted 0 c :=
  ⟨List.drop_zero.symm, Nat.zero_le _, rfl⟩

/-- A cursor is shifted against the one at the beginning of what is left. -/
theorem ofBytes_rest (h : c.pos ≤ c.source.size) : c.Shifted c.pos (ofBytes c.rest) := by
  refine ⟨?_, h, (Nat.zero_add _).symm⟩
  rw [source_ofBytes, List.toList_toArray, c.rest_eq]

/-! What a move does depends on the bytes ahead alone. -/

theorem literal? (h : c.Shifted offset d) (bytes : List Byte) :
    Option.Rel (Shifted offset) (c.literal? bytes) (d.literal? bytes) := by
  rw [Cursor.literal?, Cursor.literal?, h.rest]
  split
  · exact .some (h.advance _)
  · exact .none

theorem skipUntil? (h : c.Shifted offset d) (set : Byte → Bool) :
    Option.Rel (Shifted offset) (c.skipUntil? set) (d.skipUntil? set) := by
  rw [Cursor.skipUntil?, Cursor.skipUntil?, h.rest]
  rcases d.rest.findIdx? set with _ | n
  · exact .none
  · exact .some (h.advance n)

theorem skipWhile? (h : c.Shifted offset d) (set : Byte → Bool) :
    Option.Rel (Shifted offset) (c.skipWhile? set) (d.skipWhile? set) :=
  h.skipUntil? _

theorem token? (h : c.Shifted offset d) :
    Option.Rel (fun x y => x.1 = y.1 ∧ x.2.Shifted offset y.2) c.token? d.token? := by
  have hinRange : c.pos ≤ c.source.size ↔ d.pos ≤ d.source.size := by
    rw [h.pos, h.size]
    omega
  have htoken : c.tokenAhead = d.tokenAhead := by rw [tokenAhead, tokenAhead, h.rest]
  rw [Cursor.token?_eq, Cursor.token?_eq, htoken]
  by_cases hd : d.pos ≤ d.source.size
  · rw [if_pos (hinRange.mpr hd), if_pos hd]
    exact .some ⟨rfl, h.advance _⟩
  · rw [if_neg (mt hinRange.mp hd), if_neg hd]
    exact .none

theorem slice? (h : c.Shifted offset d) (start stop : Nat) :
    c.slice? (start + offset) (stop + offset) = d.slice? start stop := by
  have hinRange : start + offset ≤ stop + offset ∧ stop + offset ≤ c.source.size ↔
      start ≤ stop ∧ stop ≤ d.source.size := by
    rw [h.size]
    omega
  rw [Cursor.slice?, Cursor.slice?]
  simp only [hinRange, Array.toList_extract, List.extract_eq_take_drop, h.source,
    List.drop_drop, Nat.add_sub_add_right, Nat.add_comm offset]

theorem peek? (h : c.Shifted offset d) : c.peek? = d.peek? := by
  rw [Cursor.peek?, Cursor.peek?, h.rest]

theorem atBoundary (h : c.Shifted offset d) : c.atBoundary = d.atBoundary := by
  rw [Cursor.atBoundary, Cursor.atBoundary, h.peek?]

theorem onlyBlanksLeft (h : c.Shifted offset d) : c.onlyBlanksLeft = d.onlyBlanksLeft := by
  rw [Cursor.onlyBlanksLeft, Cursor.onlyBlanksLeft, h.rest]

end Shifted

end Cursor

end FormReader
