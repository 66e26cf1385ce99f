import FormReader.Proofs.Completeness
import FormReader.Proofs.SideBySide

/-!
# A form depends on its own bytes

The rules look far ahead. A number and a symbol take a whole token before they are tried, a
string looks for a quote in all that is left, and a list goes on until an item fails. None of
this shows in what was read. The bytes that a reader went past are enough to find the form again
wherever they stand, and all that matters of the bytes behind is whether the first one ends a
token (`FormReader.Reader.one_of_own_bytes`). Behind a list and behind a string not even that
matters.

The rules are not looked at for it. The bytes that were passed are blanks and a layout of the
form (`FormReader.Reader.Reads.passed`), a layout stays one if other bytes follow
(`FormReader.LaidOut.of_behind`), and what is laid out is read
(`FormReader.Reader.ends_one_of_laidOut`).
-/

namespace FormReader

/-! ### Other bytes behind a layout -/

/-- **Whether a form carries its own end**: a list ends with a bracket and a string with a quote.
Any other form is a bare token. -/
def Form.isClosed : Form → Prop
  | .atom a => ¬a.isBare
  | .list _ => True

/-- **Behind a form that carries its own end** anything may follow, and behind a bare token
whatever ends it. -/
theorem LaidOut.replace {text behind behind' : List Byte} {form : Form}
    (h : LaidOut text form behind) (hbehind' : form.isClosed ∨ endsToken behind') :
    LaidOut text form behind' := by
  cases h with
  | @atom _ a _ hspelling _ =>
    refine .atom hspelling fun hbare => ?_
    rcases hbehind' with hclosed | hend
    · exact absurd hbare hclosed
    · exact hend
  | @list bracket _ _ _ hitems => exact .list (hitems.of_behind fun _ => endsToken_cons
      (Byte.isSeparator_closing bracket))

namespace Reader

variable {s s' : Reader} {form : Form} {limit : Nat}

/-! ### The bytes passed -/

/-- The bytes of the source between two positions. -/
def between (s : Reader) (start stop : Nat) : List Byte :=
  (s.cursor.source.extract start stop).toList

/-- The bytes that a reader went past are those between the positions before and behind. -/
theorem between_of_append {passed behind : List Byte} (hrest : s.cursor.rest = passed ++ behind) :
    s.between s.pos (s.pos + passed.length) = passed := by
  rw [between, pos, Array.toList_extract, List.extract_eq_take_drop, ← s.cursor.rest_eq, hrest,
    Nat.add_sub_cancel_left, List.take_left]

/-- **The bytes passed** by reading a form: at least one, all of them in the source, and they are
blanks and a layout of the form. -/
theorem Reads.passed (h : Reads limit s form s') (hfollows : Follows s s') :
    s.pos < s'.pos ∧ s'.pos ≤ s.cursor.source.size ∧
      ∃ blanks text, allBlank blanks ∧ s.between s.pos s'.pos = blanks ++ text ∧
        LaidOut text form s'.cursor.rest := by
  obtain ⟨blanks, text, hblanks, hrest, htext⟩ := h.layout
  have hmoved := h.left_lt
  rw [Cursor.left, Cursor.left, hfollows.source] at hmoved
  have hstart : s.pos ≤ s.cursor.source.size := by
    rw [pos]
    omega
  refine ⟨?_, hfollows.source ▸ hfollows.inRange hstart, blanks, text, hblanks, ?_, htext⟩
  · rw [pos, pos]
    omega
  · rw [hfollows.pos_eq hstart hrest]
    exact between_of_append hrest

/-! ### A fresh reader -/

/-- **What is laid out at the beginning of a source** is read by a fresh reader, up to its last
byte. -/
theorem run_one_ofBytes {blanks text behind : List Byte} {config : Config} {arena : Arena}
    (harena : arena.Unlimited) (hblanks : allBlank blanks) (htext : LaidOut text form behind)
    (hfits : form.depth ≤ config.maxDepth) :
    let fresh : Reader := { ofBytes (blanks ++ text ++ behind) arena with config }
    (fresh.run one).result = .ok form ∧
      (fresh.run one).reader.pos = (blanks ++ text).length := by
  intro fresh
  have hfresh : fresh.cursor.rest = blanks ++ (text ++ behind) := List.append_assoc _ _ _
  have hreads := ends_one_of_laidOut (s := fresh) harena hfresh hblanks htext
  have hresult : (fresh.run one).result = .ok form := by
    rw [(hreads.imp (fun _ _ h => ⟨h.1, h.2.1⟩) fun _ _ h => h).result_eq_ite, if_pos hfits]
  refine ⟨hresult, ?_⟩
  obtain ⟨-, -, hrest⟩ := hreads.of_result_ok hresult
  have hahead : fresh.cursor.rest = (blanks ++ text) ++ (fresh.run one).reader.cursor.rest := by
    rw [hrest]
    rfl
  rw [(steady_one.follows_run fresh).pos_eq (Nat.zero_le _) hahead]
  exact Nat.zero_add _

/-- **A form depends on its own bytes and one byte of lookahead.** Reading a form goes past at
least one byte and stays in the source, and the bytes passed are enough: a fresh reader with the
same settings finds the form in them and stops behind them, whatever follows, if the form is a
list or a string or if what follows is nothing or begins with a separator. -/
theorem one_of_own_bytes (s : Reader) (form : Form)
    (hform : (s.run one).result = .ok form) :
    let stop := (s.run one).reader.pos
    s.pos < stop ∧ stop ≤ s.cursor.source.size ∧
      ∀ (behind : List Byte) (arena : Arena), arena.Unlimited →
        form.isClosed ∨ endsToken behind →
          let fresh : Reader :=
            { ofBytes (s.between s.pos stop ++ behind) arena with config := s.config }
          (fresh.run one).result = .ok form ∧ (fresh.run one).reader.pos = stop - s.pos := by
  intro stop
  have hread := (reads_one s).of_result_ok hform
  obtain ⟨hmoved, hstop, blanks, text, hblanks, hpassed, htext⟩ :=
    hread.passed (steady_one.follows_run s)
  refine ⟨hmoved, hstop, fun behind arena harena hbehind => ?_⟩
  have hlength : (s.between s.pos stop).length = stop - s.pos := by
    rw [between, Array.length_toList, Array.size_extract, Nat.min_eq_left hstop]
  rw [← hlength, hpassed]
  exact run_one_ofBytes harena hblanks (htext.replace hbehind) hread.depth_le

/-- A list that was read behind one symbol and before another is read again with a quote right
behind it. -/
theorem one_of_own_bytes_list :
    let s := ((ofBytes (Text.bytes "a [ ]b")).run one).reader
    let again := ofBytes (Text.bytes " [ ]" ++ [Byte.quote])
    (s.run one).result = .ok (.list []) ∧ (Form.list []).isClosed ∧ ({} : Arena).Unlimited ∧
      (again.run one).result = .ok (.list []) ∧ (again.run one).reader.pos = 4 := by
  intro s again
  have hresult : (s.run one).result = .ok (.list []) := by decide +kernel
  have hown : s.between s.pos (s.run one).reader.pos = Text.bytes " [ ]" := by decide +kernel
  have hlength : (s.run one).reader.pos - s.pos = 4 := by decide +kernel
  have hconfig : s.config = {} := by decide +kernel
  have hagain := (one_of_own_bytes s (.list []) hresult).2.2 [Byte.quote] {}
    Arena.unlimited_default (.inl trivial)
  rw [hown, hlength, hconfig] at hagain
  exact ⟨hresult, trivial, Arena.unlimited_default, hagain⟩

end Reader

end FormReader
