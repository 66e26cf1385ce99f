import FormReader.Proofs.Boundaries
import FormReader.Relayout
import Mathlib.Data.List.Forall2

/-!
# Sources in another layout

What a relayout does to the bytes of a source, and what is seen of it. A byte stays a blank, a
bracket or a byte of a token, so a cursor that stands at the same position of the changed source
can make the same moves. Tokens are the same bytes as before. What is cut out between two positions
has its bytes changed, and is a text exactly if it was one
(`FormReader.Relayout.isText_map_byte`): only bytes below 128 are replaced, and by such ones.
-/

namespace FormReader

/-! ### Four sorts of bytes -/

/-- A byte is a blank, one of the brackets, or a byte of a token. -/
theorem Byte.blank_or_bracket_or_token (b : Byte) :
    isBlank b = true ∨ (∃ p : Bracket, b = p.opening) ∨ (∃ p : Bracket, b = p.closing) ∨
      isSeparator b = false := by
  rcases hblank : isBlank b with _ | _
  · rcases hopening : Bracket.ofOpening? b with _ | p
    · rcases hclosing : Bracket.ofClosing? b with _ | p
      · refine Or.inr (Or.inr (Or.inr ?_))
        rw [isSeparator, hblank, hopening, hclosing]
        rfl
      · exact Or.inr (Or.inr (Or.inl ⟨p, Bracket.ofClosing?_eq_some_iff.mp hclosing⟩))
    · exact Or.inr (Or.inl ⟨p, Bracket.ofOpening?_eq_some_iff.mp hopening⟩)
  · exact Or.inl rfl

@[simp] theorem Bracket.ofOpening?_of_isBlank {b : Byte} (h : Byte.isBlank b = true) :
    ofOpening? b = none := by
  rcases hopening : ofOpening? b with _ | p
  · rfl
  · rw [ofOpening?_eq_some_iff.mp hopening, Byte.isBlank_opening] at h
    cases h

@[simp] theorem Bracket.ofClosing?_of_isBlank {b : Byte} (h : Byte.isBlank b = true) :
    ofClosing? b = none := by
  rcases hclosing : ofClosing? b with _ | p
  · rfl
  · rw [ofClosing?_eq_some_iff.mp hclosing, Byte.isBlank_closing] at h
    cases h

namespace Relayout

variable {k : Relayout}

theorem bracket_injective {p q : Bracket} (h : k.bracket p = k.bracket q) : p = q := by
  rw [bracket, bracket] at h
  split at h
  · cases p <;> cases q <;> first | rfl | cases h
  · exact h

/-! ### What becomes of a byte -/

section Bytes

variable (b : Byte)

theorem isBlank_byte : Byte.isBlank (k.byte b) = Byte.isBlank b := by
  rcases b.blank_or_bracket_or_token with h | ⟨p, rfl⟩ | ⟨p, rfl⟩ | h
  · rw [h, k.byte_of_blank b h]
  · rw [k.byte_opening, Byte.isBlank_opening, Byte.isBlank_opening]
  · rw [k.byte_closing, Byte.isBlank_closing, Byte.isBlank_closing]
  · rw [k.byte_of_token b h]

theorem ofOpening?_byte : Bracket.ofOpening? (k.byte b) = (Bracket.ofOpening? b).map k.bracket := by
  rcases b.blank_or_bracket_or_token with h | ⟨p, rfl⟩ | ⟨p, rfl⟩ | h
  · rw [Bracket.ofOpening?_of_isBlank h, Bracket.ofOpening?_of_isBlank (k.byte_of_blank b h)]
    rfl
  · rw [k.byte_opening, Bracket.ofOpening?_opening, Bracket.ofOpening?_opening]
    rfl
  · rw [k.byte_closing, ofOpening?_closing, ofOpening?_closing]
    rfl
  · rw [k.byte_of_token b h, ofOpening?_of_isSeparator h]
    rfl

theorem ofClosing?_byte : Bracket.ofClosing? (k.byte b) = (Bracket.ofClosing? b).map k.bracket := by
  rcases b.blank_or_bracket_or_token with h | ⟨p, rfl⟩ | ⟨p, rfl⟩ | h
  · rw [Bracket.ofClosing?_of_isBlank h, Bracket.ofClosing?_of_isBlank (k.byte_of_blank b h)]
    rfl
  · rw [k.byte_opening, Bracket.ofClosing?_opening, Bracket.ofClosing?_opening]
    rfl
  · rw [k.byte_closing, Bracket.ofClosing?_closing, Bracket.ofClosing?_closing]
    rfl
  · rw [k.byte_of_token b h, ofClosing?_of_isSeparator h]
    rfl

theorem isSeparator_byte : Byte.isSeparator (k.byte b) = Byte.isSeparator b := by
  rw [Byte.isSeparator, Byte.isSeparator, isBlank_byte, ofOpening?_byte, ofClosing?_byte,
    Option.isSome_map, Option.isSome_map]

/-- Nothing becomes a byte of a token but the byte itself. -/
theorem byte_eq_token_iff {c : Byte} (hc : Byte.isSeparator c = false) : k.byte b = c ↔ b = c := by
  constructor
  · rintro rfl
    rw [isSeparator_byte] at hc
    exact (k.byte_of_token b hc).symm
  · rintro rfl
    exact k.byte_of_token b hc

theorem byte_eq_opening_iff {p : Bracket} : k.byte b = (k.bracket p).opening ↔ b = p.opening := by
  constructor
  · intro h
    have hmap := ofOpening?_byte (k := k) b
    rw [h, Bracket.ofOpening?_opening] at hmap
    obtain ⟨q, hq, hpq⟩ := Option.map_eq_some_iff.mp hmap.symm
    rw [Bracket.ofOpening?_eq_some_iff.mp hq, bracket_injective hpq]
  · rintro rfl
    exact k.byte_opening p

theorem byte_eq_closing_iff {p : Bracket} : k.byte b = (k.bracket p).closing ↔ b = p.closing := by
  constructor
  · intro h
    have hmap := ofClosing?_byte (k := k) b
    rw [h, Bracket.ofClosing?_closing] at hmap
    obtain ⟨q, hq, hpq⟩ := Option.map_eq_some_iff.mp hmap.symm
    rw [Bracket.ofClosing?_eq_some_iff.mp hq, bracket_injective hpq]
  · rintro rfl
    exact k.byte_closing p

end Bytes

/-! ### What becomes of a text -/

/-- **Bytes that may stand for one another** in a text: they are the same, or characters of their
own. -/
def Interchangeable (b c : Byte) : Prop := b = c ∨ b < 0x80 ∧ c < 0x80

theorem Interchangeable.symm {b c : Byte} (h : Interchangeable b c) : Interchangeable c b :=
  h.imp Eq.symm And.symm

/-- The bytes of a character are one byte below 128, or none of them is. -/
theorem utf8EncodeChar_ascii_or (c : Char) :
    (∃ b, String.utf8EncodeChar c = [b] ∧ b < 0x80) ∨
      ∀ b ∈ String.utf8EncodeChar c, ¬b < 0x80 := by
  rw [String.utf8EncodeChar]
  split
  · next h =>
    refine Or.inl ⟨_, rfl, ?_⟩
    rw [UInt8.lt_iff_toNat_lt, UInt8.toNat_ofNat']
    change _ < 128
    omega
  · refine Or.inr ?_
    simp only [UInt8.lt_iff_toNat_lt]
    split
    · simp
      omega
    · split
      · simp
        omega
      · simp
        omega

theorem bytes_eq_flatMap (s : String) : Text.bytes s = s.toList.flatMap String.utf8EncodeChar := by
  have h := congrArg Text.bytes (String.ofList_toList (s := s))
  rw [← h, Text.bytes, String.toByteArray_ofList, List.utf8Encode]
  simp

theorem isText_utf8EncodeChar (c : Char) : isText (String.utf8EncodeChar c) := by
  refine ⟨String.singleton c, ?_⟩
  rw [bytes_eq_flatMap, String.toList_singleton, List.flatMap_singleton]

/-- Bytes of which none is below 128 do not change. -/
theorem eq_of_forall₂ {bytes bytes' : List Byte} (h : List.Forall₂ Interchangeable bytes' bytes)
    (hbytes : ∀ b ∈ bytes, ¬b < 0x80) : bytes' = bytes := by
  induction h with
  | nil => rfl
  | cons hb _ ih =>
    rw [List.forall_mem_cons] at hbytes
    rw [hb.resolve_right fun hlt => hbytes.1 hlt.2, ih hbytes.2]

/-- Interchanging bytes makes a text of a text. -/
theorem isText_of_forall₂ {bytes bytes' : List Byte} (h : List.Forall₂ Interchangeable bytes' bytes)
    (htext : isText bytes) : isText bytes' := by
  obtain ⟨s, rfl⟩ := htext
  rw [bytes_eq_flatMap] at h
  generalize s.toList = chars at h
  induction chars generalizing bytes' with
  | nil =>
    rw [List.forall₂_nil_right_iff.mp h]
    exact isText_nil
  | cons c chars ih =>
    rw [List.flatMap_cons] at h
    have htake := List.forall₂_take_append _ _ _ h
    rw [← List.take_append_drop (String.utf8EncodeChar c).length bytes']
    refine isText.append ?_ (ih (List.forall₂_drop_append _ _ _ h))
    rcases utf8EncodeChar_ascii_or c with ⟨b, hc, hb⟩ | hc
    · rw [hc] at htake
      obtain ⟨b', _, hb', hnil, heq⟩ := List.forall₂_cons_right_iff.mp htake
      rw [hc, heq, List.forall₂_nil_right_iff.mp hnil]
      refine isText_singleton ?_
      rcases hb' with rfl | hb'
      · exact hb
      · exact hb'.1
    · rw [eq_of_forall₂ htake hc]
      exact isText_utf8EncodeChar c
theorem interchangeable_byte (b : Byte) : Interchangeable (k.byte b) b := by
  cases hb : Byte.isSeparator b with
  | false => exact Or.inl (k.byte_of_token b hb)
  | true => exact Or.inr ⟨Byte.lt_of_isSeparator ((isSeparator_byte b).trans hb),
      Byte.lt_of_isSeparator hb⟩

/-- **A relayout makes a text of a text**, and of nothing else. -/
theorem isText_map_byte {bytes : List Byte} : isText (bytes.map k.byte) ↔ isText bytes := by
  have hall : List.Forall₂ Interchangeable (bytes.map k.byte) bytes :=
    List.forall₂_map_left_iff.mpr (List.forall₂_same.mpr fun b _ => interchangeable_byte b)
  have hback : List.Forall₂ Interchangeable bytes (bytes.map k.byte) :=
    (hall.imp fun _ _ h => h.symm).flip
  exact ⟨isText_of_forall₂ hback, isText_of_forall₂ hall⟩

theorem bytes_text (s : String) : Text.bytes (k.text s) = (Text.bytes s).map k.byte := by
  obtain ⟨t, ht⟩ := (isText_map_byte (k := k)).mpr (isText_bytes s)
  rw [text, Text.ofBytes?_eq_some_iff.mpr ht, Option.getD_some, ht]

theorem ofBytes?_map_byte (bytes : List Byte) :
    Text.ofBytes? (bytes.map k.byte) = (Text.ofBytes? bytes).map k.text := by
  rcases hs : Text.ofBytes? bytes with _ | s
  · rcases ht : Text.ofBytes? (bytes.map k.byte) with _ | t
    · rfl
    · obtain ⟨s, hs'⟩ := isText_map_byte.mp ⟨t, Text.bytes_of_ofBytes? ht⟩
      cases hs.symm.trans (Text.ofBytes?_eq_some_iff.mpr hs')
  · rw [← Text.bytes_of_ofBytes? hs, ← bytes_text, Text.ofBytes?_bytes]
    rfl

theorem text_empty : k.text "" = "" :=
  Text.bytes_eq_nil_iff.mp (bytes_text "")

/-- No text takes more memory than before. -/
theorem utf8ByteSize_text (s : String) : (k.text s).utf8ByteSize = s.utf8ByteSize := by
  rw [← Text.length_bytes, bytes_text, List.length_map, Text.length_bytes]

/-! ### What becomes of a cursor -/

section Cursors

variable (c : Cursor)

theorem cursor_ofBytes (source : List Byte) :
    k.cursor (Cursor.ofBytes source) = Cursor.ofBytes (source.map k.byte) :=
  Cursor.ext_of_pos List.map_toArray rfl

theorem left_cursor : (k.cursor c).left = c.left := by
  rw [Cursor.left, Cursor.left]
  change (c.source.map k.byte).size - c.pos = _
  rw [Array.size_map]

theorem cursor_advance (n : Nat) : (k.cursor c).advance n = k.cursor (c.advance n) :=
  Cursor.ext_of_pos rfl rfl

theorem peek?_cursor : (k.cursor c).peek? = c.peek?.map k.byte :=
  List.head?_map

theorem atBoundary_cursor : (k.cursor c).atBoundary = c.atBoundary := by
  rw [Cursor.atBoundary, Cursor.atBoundary, peek?_cursor]
  rcases c.peek? with _ | b
  · rfl
  · exact isSeparator_byte b

theorem onlyBlanksLeft_cursor : (k.cursor c).onlyBlanksLeft = c.onlyBlanksLeft := by
  rw [Cursor.onlyBlanksLeft, Cursor.onlyBlanksLeft]
  change (c.rest.map k.byte).all _ = _
  rw [List.all_map]
  exact congrArg c.rest.all (funext isBlank_byte)

/-- A byte is passed where one is that becomes it. -/
theorem literal?_cursor {b b' : Byte} (h : ∀ x, k.byte x = b' ↔ x = b) :
    (k.cursor c).literal? [b'] = (c.literal? [b]).map k.cursor := by
  have hprefix : [b'].isPrefixOf (k.cursor c).rest = [b].isPrefixOf c.rest := by
    change [b'].isPrefixOf (c.rest.map k.byte) = _
    rcases c.rest with _ | ⟨x, rest⟩
    · rfl
    · rw [List.map_cons, List.isPrefixOf_cons_cons, List.isPrefixOf_cons_cons,
        List.isPrefixOf_nil_left, List.isPrefixOf_nil_left, Bool.and_true, Bool.and_true,
        Bool.eq_iff_iff, beq_iff_eq, beq_iff_eq, eq_comm, h x, eq_comm]
  rw [Cursor.literal?, Cursor.literal?, hprefix]
  split
  · rw [cursor_advance]
    rfl
  · rfl

theorem skipUntil?_cursor {set : Byte → Bool} (h : ∀ b, set (k.byte b) = set b) :
    (k.cursor c).skipUntil? set = (c.skipUntil? set).map k.cursor := by
  have hfind : (k.cursor c).rest.findIdx? set = c.rest.findIdx? set := by
    change (c.rest.map k.byte).findIdx? set = _
    rw [List.findIdx?_map]
    exact congrArg (List.findIdx? · c.rest) (funext h)
  rw [Cursor.skipUntil?, Cursor.skipUntil?, hfind]
  rcases c.rest.findIdx? set with _ | n
  · rfl
  · exact congrArg some (cursor_advance c n)

/-- A token has no separators, so nothing becomes of it. -/
theorem tokenAhead_cursor : (k.cursor c).tokenAhead = c.tokenAhead := by
  rw [Cursor.tokenAhead, Cursor.tokenAhead]
  change (c.rest.map k.byte).takeWhile _ = _
  rw [List.takeWhile_map]
  have hset : (fun b => !Byte.isSeparator b) ∘ k.byte = fun b => !Byte.isSeparator b :=
    funext fun b => congrArg (!·) (isSeparator_byte b)
  rw [hset]
  refine (List.map_congr_left fun b hb => ?_).trans (List.map_id _)
  exact k.byte_of_token b (by simpa using List.mem_takeWhile_imp hb)

theorem token?_cursor :
    (k.cursor c).token? = c.token?.map fun x => (x.1, k.cursor x.2) := by
  have hsize : (k.cursor c).source.size = c.source.size := Array.size_map
  rw [Cursor.token?_eq, Cursor.token?_eq, tokenAhead_cursor, hsize]
  change (if c.pos ≤ _ then _ else _) = _
  split
  · rw [cursor_advance]
    rfl
  · rfl

theorem slice?_cursor (start stop : Nat) :
    (k.cursor c).slice? start stop = (c.slice? start stop).map (List.map k.byte) := by
  have hsize : (k.cursor c).source.size = c.source.size := Array.size_map
  rw [Cursor.slice?, Cursor.slice?, hsize]
  split
  · change some ((c.source.map k.byte).extract start stop).toList = _
    rw [Array.toList_extract, Array.toList_map, List.extract_eq_take_drop, ← List.map_drop,
      ← List.map_take, Option.map_some, Array.toList_extract, List.extract_eq_take_drop]
  · rfl

end Cursors

end Relayout

end FormReader
