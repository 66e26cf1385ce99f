import FormReader.Parse
import FormReader.Proofs.Completeness

/-!
# The grammar is exact

The two halves put together. A source that is read as a form, and nothing else, is a layout
of the form (`FormReader.Reader.laysOut_of_whole`), whatever the arena does. Conversely a
layout is read as its form where there is enough room for it and memory is not limited
(`FormReader.Reader.result_whole_of_laysOut`), since the machine reads it and reading in one
pass comes to the same. Together they characterize what can be parsed.
-/

namespace FormReader

namespace Reader

variable {s : Reader} {form : Form}

/-- **Soundness**: what was read as a whole is laid out, and is no deeper than allowed. -/
theorem laysOut_of_whole (h : (s.run whole).result = .ok form) :
    LaysOut s.cursor.rest form ∧ form.depth ≤ s.config.maxDepth := by
  obtain ⟨hread, hblank⟩ := (reads_whole s).of_result_ok h
  obtain ⟨blanks, text, hblanks, hrest, htext⟩ := hread.layout
  refine ⟨?_, hread.depth_le⟩
  rw [← List.append_nil (s.run whole).reader.cursor.rest] at htext
  rw [hrest]
  exact .cons hblanks htext (.nil hblank)

/-- **What is read as a whole** is what is laid out and no deeper than allowed. -/
theorem result_whole_eq_ok_iff (hs : s.arena.Unlimited) :
    (s.run whole).result = .ok form ↔
      LaysOut s.cursor.rest form ∧ form.depth ≤ s.config.maxDepth :=
  ⟨laysOut_of_whole, fun h => by rw [result_whole_of_laysOut hs h.1, if_pos h.2]⟩

end Reader

/-! ### Entry points -/

section Entry

variable {source : List Byte} {config : Config} {arena : Arena} {form : Form}

/-- The reader that parsing begins with, which has recorded as much. -/
def parsing (source : List Byte) (config : Config) (arena : Arena) : Reader :=
  ({ Reader.ofBytes source arena with config } : Reader).record
    (.parsing source.length config.maxDepth)

/-- The result of parsing is the one of reading as a whole. -/
theorem result_parseBytes :
    (parseBytes source config arena).result =
      ((parsing source config arena).run Reader.whole).result := rfl

/-- What a parse records ends with whether there is a result. -/
theorem events_parseBytes :
    (parseBytes source config arena).reader.events =
      ((parsing source config arena).run Reader.whole).reader.events ++
        [.parsed (isOk (parseBytes source config arena).result)
          (parseBytes source config arena).reader.arena.reserved] :=
  List.reverse_cons

theorem result_parseBytes_eq_ok_iff (harena : arena.Unlimited) :
    (parseBytes source config arena).result = .ok form ↔
      LaysOut source form ∧ form.depth ≤ config.maxDepth := by
  have hparsing : (parsing source config arena).arena.Unlimited := harena
  rw [result_parseBytes, Reader.result_whole_eq_ok_iff hparsing]
  exact Iff.rfl

/-- What parsing comes to where a form is laid out. -/
theorem result_parseBytes_of_laysOut (harena : arena.Unlimited) (h : LaysOut source form) :
    (parseBytes source config arena).result =
      if form.depth ≤ config.maxDepth then .ok form
      else .error (.tooDeep config.maxDepth config.maxDepth) := by
  have hparsing : (parsing source config arena).arena.Unlimited := harena
  exact Reader.result_whole_of_laysOut hparsing h

theorem result_parseBytes_eq_tooDeep (harena : arena.Unlimited) (h : LaysOut source form)
    (hdepth : config.maxDepth < form.depth) :
    (parseBytes source config arena).result =
      .error (.tooDeep config.maxDepth config.maxDepth) := by
  rw [result_parseBytes_of_laysOut harena h, if_neg (Nat.not_le.mpr hdepth)]

end Entry

/-- **The grammar is exact**: where memory is not limited, a source is read as a form – by a
reader that stands at its beginning, and by parsing its bytes or its text – exactly when it
is a layout of the form and the form is no deeper than allowed. -/
theorem parse_eq_ok_iff_laysOut (source : List Byte) (config : Config) (arena : Arena)
    (harena : arena.Unlimited) (form : Form) :
    ((({ Reader.ofBytes source arena with config } : Reader).run Reader.whole).result = .ok form ↔
      LaysOut source form ∧ form.depth ≤ config.maxDepth) ∧
    ((parseBytes source config arena).result = .ok form ↔
      LaysOut source form ∧ form.depth ≤ config.maxDepth) ∧
    ∀ text : String, Text.bytes text = source →
      ((parse text config arena).result = .ok form ↔
        LaysOut source form ∧ form.depth ≤ config.maxDepth) := by
  refine ⟨Reader.result_whole_eq_ok_iff harena, result_parseBytes_eq_ok_iff harena, ?_⟩
  rintro text rfl
  exact result_parseBytes_eq_ok_iff harena

/-- A pair of brackets of either sort is read as the empty list, blanks or not. -/
theorem parse_square_brackets :
    ({} : Arena).Unlimited ∧ LaysOut (Text.bytes " [\n]") (.list []) ∧
      (parse " [\n]").result = .ok (.list []) := by
  have hinner : ItemsLaidOut ['\n'.toUInt8] [] [Bracket.square.closing] :=
    .nil fun b hb => by
      rw [List.mem_singleton.mp hb]
      rfl
  have hblanks : allBlank [' '.toUInt8] := fun b hb => by
    rw [List.mem_singleton.mp hb]
    rfl
  have hlaysOut : LaysOut (Text.bytes " [\n]") (.list []) :=
    ItemsLaidOut.single hblanks (.list hinner)
  refine ⟨Arena.unlimited_default, hlaysOut, ?_⟩
  have hparse := (parse_eq_ok_iff_laysOut (Text.bytes " [\n]") {} {} Arena.unlimited_default
    (.list [])).2.2 " [\n]" rfl
  exact hparse.mpr ⟨hlaysOut, by decide⟩

end FormReader
