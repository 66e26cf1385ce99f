import FormReader.Cursor.Basic
import Mathlib.Data.List.TakeWhile

/-!
# How cursors move

A cursor is determined by its source and its position, and every operation has a plain
description in terms of the bytes that lie ahead. What is proved here is enough never to
open a definition again:

* `FormReader.Cursor.literal?_eq_some_iff` – a literal is passed when it begins the rest;
* `FormReader.Cursor.skipUntil?_eq_some_iff` – a search stops before the first byte of the
  set, and `FormReader.Cursor.skipUntil?_eq_none_iff` – it fails where there is none;
* `FormReader.Cursor.token?_eq` – a token is the longest run without separators, and
  `FormReader.Cursor.token?_eq_some_iff` says which one is found.
-/

namespace FormReader

namespace Cursor

/-! ### Positions -/

theorem ext_of_pos {c d : Cursor} (hs : c.source = d.source) (hp : c.pos = d.pos) : c = d := by
  obtain ⟨_, _, _, hc⟩ := c
  obtain ⟨_, _, _, hd⟩ := d
  cases hs
  cases hp
  cases hc
  cases hd
  rfl

@[simp] theorem source_ofBytes (bytes : List Byte) :
    (ofBytes bytes).source = bytes.toArray := rfl

@[simp] theorem pos_ofBytes (bytes : List Byte) : (ofBytes bytes).pos = 0 := rfl

@[simp] theorem rest_ofBytes (bytes : List Byte) : (ofBytes bytes).rest = bytes := rfl

@[simp] theorem source_seek (c : Cursor) (pos : Nat) : (c.seek pos).source = c.source := rfl

@[simp] theorem pos_seek (c : Cursor) (pos : Nat) : (c.seek pos).pos = pos := rfl

@[simp] theorem seek_pos (c : Cursor) : c.seek c.pos = c := ext_of_pos rfl rfl

@[simp] theorem seek_seek (c : Cursor) (p q : Nat) : (c.seek p).seek q = c.seek q := rfl

@[simp] theorem source_advance (c : Cursor) (n : Nat) : (c.advance n).source = c.source := rfl

@[simp] theorem pos_advance (c : Cursor) (n : Nat) : (c.advance n).pos = c.pos + n := rfl

@[simp] theorem rest_advance (c : Cursor) (n : Nat) : (c.advance n).rest = c.rest.drop n := rfl

@[simp] theorem left_advance (c : Cursor) (n : Nat) : (c.advance n).left = c.left - n := by
  simp [left, Nat.sub_sub]

theorem advance_advance (c : Cursor) (m n : Nat) : (c.advance m).advance n = c.advance (m + n) :=
  ext_of_pos rfl (Nat.add_assoc _ _ _)

/-- Going forward past some bytes is going to what comes behind them. -/
theorem rest_advance_of_append {c : Cursor} {passed behind : List Byte}
    (h : c.rest = passed ++ behind) : (c.advance passed.length).rest = behind := by
  rw [rest_advance, h, List.drop_left]

/-- The bytes ahead are as many as are left. -/
theorem length_rest (c : Cursor) : c.rest.length = c.left := by
  simp [c.rest_eq, left]

/-- Beyond the end, and at the end, nothing lies ahead. -/
theorem rest_eq_nil_iff {c : Cursor} : c.rest = [] ↔ c.source.size ≤ c.pos := by
  rw [← List.length_eq_zero_iff, length_rest, left]
  omega

/-- Where something lies ahead the cursor is not beyond the end. -/
theorem pos_le_of_rest_ne_nil {c : Cursor} (h : c.rest ≠ []) : c.pos ≤ c.source.size :=
  Nat.le_of_lt (Nat.lt_of_not_le (mt rest_eq_nil_iff.mpr h))

/-! ### Moves -/

/-- **A literal** is passed exactly when it begins the rest. -/
theorem literal?_eq_some_iff {c d : Cursor} {bytes : List Byte} :
    c.literal? bytes = some d ↔ bytes <+: c.rest ∧ d = c.advance bytes.length := by
  simp only [literal?, List.isPrefixOf_iff_prefix]
  by_cases h : bytes <+: c.rest
  · simp [h, eq_comm]
  · simp [h]

/-- **A search** stops before the first byte of the set. -/
theorem skipUntil?_eq_some_iff {c d : Cursor} {set : Byte → Bool} :
    c.skipUntil? set = some d ↔
      ∃ passed b behind, c.rest = passed ++ b :: behind ∧ (∀ x ∈ passed, set x = false) ∧
        set b = true ∧ d = c.advance passed.length := by
  simp only [skipUntil?, Option.map_eq_some_iff, List.findIdx?_eq_some_iff_getElem]
  constructor
  · rintro ⟨n, ⟨hn, hset, hbefore⟩, rfl⟩
    refine ⟨c.rest.take n, c.rest[n], c.rest.drop (n + 1), ?_, ?_, hset, ?_⟩
    · rw [List.getElem_cons_drop, List.take_append_drop]
    · intro x hx
      obtain ⟨i, hi, rfl⟩ := List.mem_iff_getElem.mp hx
      simp only [List.length_take] at hi
      simpa using hbefore i (by omega)
    · rw [List.length_take, Nat.min_eq_left (Nat.le_of_lt hn)]
  · rintro ⟨passed, b, behind, hrest, hpassed, hb, rfl⟩
    refine ⟨passed.length, ⟨by simp [hrest], by simpa [hrest] using hb, ?_⟩, rfl⟩
    intro i hi
    simp only [hrest]
    rw [List.getElem_append_left hi]
    simpa using hpassed _ (List.getElem_mem hi)

/-- A search fails exactly where no byte of the set lies ahead. -/
theorem skipUntil?_eq_none_iff {c : Cursor} {set : Byte → Bool} :
    c.skipUntil? set = none ↔ ∀ b ∈ c.rest, set b = false := by
  simp [skipUntil?, List.findIdx?_eq_none_iff]

/-- The bytes between a position and the end of a run from there are the run. -/
theorem slice?_of_append {c d : Cursor} {run behind : List Byte} (hrest : c.rest = run ++ behind)
    (hsource : d.source = c.source) (hc : c.pos ≤ c.source.size) :
    d.slice? c.pos (c.pos + run.length) = some run := by
  have hlength := c.length_rest
  rw [hrest, List.length_append, left] at hlength
  rw [slice?, hsource, if_pos ⟨Nat.le_add_right _ _, by omega⟩, Array.toList_extract,
    List.extract_eq_take_drop, ← c.rest_eq, hrest, Nat.add_sub_cancel_left, List.take_left]

/-- Up to the first separator, or else to the end, there is a token. -/
theorem getD_skipUntil?_isSeparator {c : Cursor} (hc : c.pos ≤ c.source.size) :
    (c.skipUntil? Byte.isSeparator).getD (c.seek c.source.size) =
      c.advance c.tokenAhead.length := by
  rcases hfound : c.skipUntil? Byte.isSeparator with _ | d
  · -- the token is all there is
    have hall : c.tokenAhead = c.rest := by
      refine List.takeWhile_eq_self_iff.mpr fun b hb => ?_
      rw [skipUntil?_eq_none_iff.mp hfound b hb, Bool.not_false]
    refine ext_of_pos rfl ?_
    rw [hall, length_rest, left, pos_advance, Option.getD_none, pos_seek]
    omega
  · obtain ⟨passed, b, behind, hrest, hpassed, hb, rfl⟩ := skipUntil?_eq_some_iff.mp hfound
    have htoken : c.tokenAhead = passed := by
      have hrun : ∀ x ∈ passed, (!Byte.isSeparator x) = true := fun x hx => by
        rw [hpassed x hx, Bool.not_false]
      rw [tokenAhead, hrest, List.takeWhile_append_of_pos hrun,
        List.takeWhile_cons_of_neg (by rw [hb]; decide), List.append_nil]
    rw [htoken, Option.getD_some]

/-- **A token** is cut out wherever the cursor is not beyond the end, and it is the longest run
without separators. -/
theorem token?_eq (c : Cursor) :
    c.token? =
      if c.pos ≤ c.source.size then some (c.tokenAhead, c.advance c.tokenAhead.length)
      else none := by
  rw [token?]
  split
  · next hc =>
    have hrest : c.rest = c.tokenAhead ++ c.rest.dropWhile fun b => !Byte.isSeparator b :=
      List.takeWhile_append_dropWhile.symm
    rw [getD_skipUntil?_isSeparator hc, pos_advance, slice?_of_append hrest rfl hc]
    rfl
  · next hc =>
    have hnone : c.skipUntil? Byte.isSeparator = none := by
      rw [skipUntil?_eq_none_iff, rest_eq_nil_iff.mpr (Nat.le_of_not_le hc)]
      exact fun _ hb => nomatch hb
    rw [hnone, Option.getD_none, pos_seek, slice?, if_neg fun h => hc h.1]
    rfl

theorem token?_eq_some_iff {c d : Cursor} {token : List Byte} :
    c.token? = some (token, d) ↔
      c.pos ≤ c.source.size ∧ token = c.tokenAhead ∧ d = c.advance token.length := by
  by_cases h : c.pos ≤ c.source.size
  · rw [token?_eq, if_pos h, Option.some.injEq, Prod.mk.injEq]
    constructor
    · rintro ⟨rfl, rfl⟩
      exact ⟨h, rfl, rfl⟩
    · rintro ⟨-, rfl, rfl⟩
      exact ⟨rfl, rfl⟩
  · rw [token?_eq, if_neg h]
    simp [h]

theorem length_tokenAhead_le (c : Cursor) : c.tokenAhead.length ≤ c.left := by
  rw [← c.length_rest]
  exact (List.takeWhile_prefix _).length_le

end Cursor

end FormReader
