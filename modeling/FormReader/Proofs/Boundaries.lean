import FormReader.Proofs.Footing
import FormReader.Proofs.InTurn
import FormReader.Proofs.Numerals
import FormReader.Proofs.Parsing
import FormReader.Proofs.Trails

/-!
# Texts are read between characters

The rules look at bytes and know nothing of characters. Still they never stop within one: a
cursor comes to stand next to blanks, brackets, quotes and the marks of a boolean, all of which
are bytes below 128, and a byte below 128 is a character of its own. So the boundaries between
the characters of a text are a ground (`FormReader.boundaries`), which sustains every session. In
particular what is cut out of a text is a text, and no symbol or string of it is refused for its
bytes.

The other way round the rules let through nothing but texts. Only the bytes of symbols and strings
are decoded, but those are all the bytes that could be wrong: what stands around them in a layout
is below 128 (`FormReader.LaidOut.isText`).
-/

namespace FormReader

/-! ### Bytes of texts -/

/-- Whether some bytes are those of a text. -/
def isText (bytes : List Byte) : Prop := ∃ text, Text.bytes text = bytes

theorem isText_bytes (text : String) : isText (Text.bytes text) := ⟨text, rfl⟩

theorem isText_nil : isText [] := isText_bytes ""

theorem isText.append {bytes bytes' : List Byte} (h : isText bytes) (h' : isText bytes') :
    isText (bytes ++ bytes') := by
  obtain ⟨text, rfl⟩ := h
  obtain ⟨text', rfl⟩ := h'
  exact ⟨text ++ text', Text.bytes_append text text'⟩

/-- Bytes are those of a text if they are valid. -/
theorem isText_iff_isValidUTF8 {bytes : List Byte} :
    isText bytes ↔ (⟨bytes.toArray⟩ : ByteArray).IsValidUTF8 := by
  constructor
  · rintro ⟨text, rfl⟩
    exact text.isValidUTF8
  · intro h
    exact ⟨⟨_, h⟩, rfl⟩

/-- A byte below 128 is a character of its own. -/
theorem isText_singleton {b : Byte} (hb : b < 0x80) : isText [b] := by
  have hsize : (Char.ofUInt8 b).utf8Size = 1 := by
    rw [Char.utf8Size_eq_one_iff, UInt32.le_iff_toNat_le]
    exact Nat.le_of_lt_succ (UInt8.lt_iff_toNat_lt.mp hb)
  have hbyte : (Char.ofUInt8 b).val.toUInt8 = b := UInt8.toUInt8_toUInt32 b
  refine ⟨String.singleton (Char.ofUInt8 b), ?_⟩
  rw [Text.bytes, String.toByteArray_singleton, List.utf8Encode_singleton,
    String.utf8EncodeChar_eq_singleton hsize, hbyte]
  rfl

theorem isText_of_lt {bytes : List Byte} (h : ∀ b ∈ bytes, b < 0x80) : isText bytes := by
  induction bytes with
  | nil => exact isText_nil
  | cons b bytes ih =>
    rw [List.forall_mem_cons] at h
    exact (isText_singleton h.1).append (ih h.2)

/-! ### Boundaries -/

/-- **Boundaries**: the positions between the characters of a text, and at its ends. -/
def isBoundary (text : String) (p : Nat) : Prop :=
  (⟨p⟩ : String.Pos.Raw).IsValid text

instance (text : String) (p : Nat) : Decidable (isBoundary text p) :=
  inferInstanceAs (Decidable ((⟨p⟩ : String.Pos.Raw).IsValid text))

/-- Between two positions of a text there are the bytes of a text if both are boundaries. -/
theorem isText_between_iff {text : String} {p q : Nat} (hle : p ≤ q)
    (hq : q ≤ (Text.bytes text).length) :
    isText (((Text.bytes text).drop p).take (q - p)) ↔
      p = q ∨ isBoundary text p ∧ isBoundary text q := by
  have hextract : (⟨(((Text.bytes text).drop p).take (q - p)).toArray⟩ : ByteArray) =
      text.toByteArray.extract p q := by
    refine ByteArray.ext (Array.toList_inj.mp ?_)
    rw [ByteArray.data_extract, Array.toList_extract, List.extract_eq_take_drop]
    rfl
  have hend : (⟨q⟩ : String.Pos.Raw) ≤ text.rawEndPos := by
    rw [Text.length_bytes] at hq
    exact hq
  rw [isText_iff_isValidUTF8, hextract, isBoundary, isBoundary,
    String.Pos.Raw.isValidUTF8_extract_iff ⟨p⟩ ⟨q⟩ hle hend, String.Pos.Raw.ext_iff]

/-- **The ground of boundaries**, from which texts can be cut out. -/
def boundaries (text : String) : Ground where
  source := Text.bytes text
  footing := isBoundary text
  piece := isText
  footing_zero := String.Pos.Raw.isValid_zero
  footing_length := by
    rw [Text.length_bytes]
    exact String.Pos.Raw.isValid_rawEndPos
  le_length := by
    intro p hp
    rw [Text.length_bytes]
    exact hp.le_rawEndPos
  footing_of_ascii := by
    intro p b hget hb
    obtain ⟨hlt, -⟩ := List.getElem?_eq_some_iff.mp hget
    have hbyte : ((Text.bytes text).drop p).take (p + 1 - p) = [b] := by
      rw [Nat.add_sub_cancel_left, List.drop_eq_getElem?_toList_append, hget]
      rfl
    have hboth := (isText_between_iff (Nat.le_succ p) hlt).mp (hbyte ▸ isText_singleton hb)
    exact hboth.resolve_left (Nat.ne_of_lt (Nat.lt_succ_self p))
  piece_of_footing := by
    intro p q hp hq hle
    refine (isText_between_iff hle ?_).mpr (Or.inr ⟨hp, hq⟩)
    rw [Text.length_bytes]
    exact hq.le_rawEndPos

/-- **A moment is on the boundaries** of a text: the cursor stands at one, and so do all positions
that were recorded; and what is to be decoded is the bytes of a text. -/
structure Moment.OnBoundaries (text : String) (m : Moment) : Prop where
  onText : m.reader.cursor.source.toList = Text.bytes text
  pos : isBoundary text m.reader.pos
  events : ∀ e ∈ m.reader.events, ∀ p ∈ e.positions, isBoundary text p
  decode : ∀ bytes, m.request = .decode bytes → ∃ t, Text.ofBytes? bytes = some t

theorem Ground.Passes.onBoundaries {text : String} {m : Moment} (h : (boundaries text).Passes m) :
    m.OnBoundaries text where
  onText := h.bears.cursor.source
  pos := h.bears.cursor.pos
  events := by
    intro e he
    exact h.bears.log e (List.mem_reverse.mp he)
  decode := by
    intro bytes hrequest
    obtain ⟨t, ht⟩ : (boundaries text).Allows (.decode bytes) := hrequest ▸ h.allows
    exact ⟨t, Text.ofBytes?_eq_some_iff.mpr ht⟩

/-! ### Layouts -/

theorem isText_of_allBlank {bytes : List Byte} (h : allBlank bytes) : isText bytes :=
  isText_of_lt fun b hb => Byte.lt_of_isBlank (h b hb)

theorem isText_of_isSeparator {b : Byte} (h : Byte.isSeparator b = true) : isText [b] :=
  isText_singleton (Byte.lt_of_isSeparator h)

/-- **Spellings are texts**, each for a reason of its own. -/
theorem isText_of_spelling {bytes : List Byte} {a : Atom} (h : Spelling bytes a) :
    isText bytes := by
  cases h with
  | number _ hread => exact isText_of_lt (Numeral.lt_of_mem_of_read? hread)
  | true => exact isText_bytes "#t"
  | false => exact isText_bytes "#f"
  | @string text _ =>
    have hquote : isText [Byte.quote] := isText_bytes "\""
    exact (hquote.append (isText_bytes text)).append hquote
  | @symbol name _ _ _ _ _ => exact isText_bytes name

mutual

/-- **Layouts are texts.** -/
theorem LaidOut.isText : ∀ {form : Form} {bytes behind : List Byte},
    LaidOut bytes form behind → FormReader.isText bytes
  | .atom a, _, _, h => by
    cases h with
    | atom hspelling _ => exact isText_of_spelling hspelling
  | .list items, _, _, h => by
    cases h with
    | @list bracket inner _ _ hitems =>
      have hopening : FormReader.isText [bracket.opening] :=
        isText_of_isSeparator (Byte.isSeparator_opening bracket)
      have hclosing : FormReader.isText [bracket.closing] :=
        isText_of_isSeparator (Byte.isSeparator_closing bracket)
      exact (hopening.append hitems.isText).append hclosing

theorem ItemsLaidOut.isText : ∀ {items : List Form} {bytes behind : List Byte},
    ItemsLaidOut bytes items behind → FormReader.isText bytes
  | [], _, _, h => by
    cases h with
    | nil hblanks => exact isText_of_allBlank hblanks
  | item :: items, _, _, h => by
    cases h with
    | cons hblanks hitem hitems =>
      exact ((isText_of_allBlank hblanks).append hitem.isText).append hitems.isText

end

/-! ### Texts in, texts out -/

/-- **Sound and complete for texts.** A reader that begins at a text stands at a boundary at every
moment of every session, on a trail that has no gaps, and so does whatever it records; and nothing
that it takes for a text is refused. Conversely, where any bytes are parsed as a form, or read as
forms to their end, they are the bytes of a text. -/
theorem sessions_on_boundaries :
    (∀ (text : String) (arena : Arena) (steps : List Step),
      let s := Reader.ofBytes (Text.bytes text) arena
      Leads s (s.sessionTrail steps) (s.session steps).2 ∧
        (∀ m ∈ s.sessionTrail steps, m.OnBoundaries text) ∧
        isBoundary text (s.session steps).2.pos ∧
        ∀ e ∈ (s.session steps).2.events, ∀ p ∈ e.positions, isBoundary text p) ∧
    ∀ (source : List Byte) (config : Config) (arena : Arena),
      (∀ form, (parseBytes source config arena).result = .ok form → isText source) ∧
        ∀ forms, (Reader.run Reader.all { Reader.ofBytes source arena with config }).result =
          .ok forms → isText source := by
  constructor
  · intro text arena steps
    have h := (boundaries text).sustains_session steps (Ground.bears_ofBytes arena)
    exact ⟨Reader.leads_sessionTrail _ steps, fun m hm => (h.trail m hm).onBoundaries,
      h.bears.cursor.pos, fun e he => h.bears.log e (List.mem_reverse.mp he)⟩
  · intro source config arena
    constructor
    · intro form hform
      rw [result_parseBytes] at hform
      exact (Reader.laysOut_of_whole hform).1.isText
    · intro forms hforms
      exact (Reader.laysOutAll_of_all hforms).isText

/-- Nothing that a reader may be asked for makes it stand within a letter of two bytes. The letter
is a symbol, and parsed as such. -/
theorem sessions_on_boundaries_letter :
    (∀ (arena : Arena) (steps : List Step),
      ∀ m ∈ (Reader.ofBytes (Text.bytes "λ") arena).sessionTrail steps, m.reader.pos ≠ 1) ∧
    (parseBytes (Text.bytes "λ")).result = .ok (.atom (.symbol "λ")) ∧
      isText (Text.bytes "λ") := by
  have htoken : isToken (Text.bytes "λ") := by
    intro b hb
    obtain rfl | rfl : b = 0xCE ∨ b = 0xBB := List.mem_pair.mp hb
    · decide
    · decide
  have hspelling : Spelling (Text.bytes "λ") (.symbol "λ") :=
    .symbol (by decide) htoken (by decide) (by decide) (by decide)
  have hlaysOut : LaysOut (Text.bytes "λ") (.atom (.symbol "λ")) :=
    ItemsLaidOut.single allBlank_nil (.atom hspelling fun _ _ => nofun)
  have hparse : (parseBytes (Text.bytes "λ")).result = .ok (.atom (.symbol "λ")) := by
    rw [result_parseBytes_of_laysOut Arena.unlimited_default hlaysOut]
    rfl
  refine ⟨fun arena steps m hm hpos => ?_, hparse, ?_⟩
  · have hboundary := ((sessions_on_boundaries.1 "λ" arena steps).2.1 m hm).pos
    rw [hpos] at hboundary
    exact absurd hboundary (by decide)
  · exact (sessions_on_boundaries.2 (Text.bytes "λ") {} {}).1 _ hparse

end FormReader
