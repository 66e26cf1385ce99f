import FormReader.Form.Representable
import FormReader.Form.Text
import FormReader.Proofs.Bytes
import FormReader.Proofs.Lookahead
import FormReader.Proofs.Numerals

/-!
# Which forms have layouts

Layouts of items can be put behind one another (`FormReader.ItemsLaidOut.append`), which is
how a reader that goes from left to right collects them although the grammar adds items in
front.

A form that has a layout is representable (`FormReader.LaidOut.isRepresentable`), since no
rule of the grammar spells any other symbol or string. Conversely a representable form has
a layout, namely its source text (`FormReader.laidOut_text`).
-/

namespace FormReader

/-! ### Layouts behind one another -/

theorem ItemsLaidOut.single {blanks text behind : List Byte} {item : Form}
    (hblanks : allBlank blanks) (h : LaidOut text item behind) :
    ItemsLaidOut (blanks ++ text) [item] behind := by
  have hcons : ItemsLaidOut (blanks ++ text ++ []) [item] behind :=
    .cons hblanks h (.nil allBlank_nil)
  rwa [List.append_nil] at hcons

/-- Blanks may be put in front of items. -/
theorem ItemsLaidOut.blanks_append {blanks bytes behind : List Byte} {items : List Form}
    (hblanks : allBlank blanks) (h : ItemsLaidOut bytes items behind) :
    ItemsLaidOut (blanks ++ bytes) items behind := by
  cases h with
  | nil hbytes => exact .nil (allBlank_append.mpr ⟨hblanks, hbytes⟩)
  | @cons blanks' text rest item items _ hblanks' hitem hitems =>
    have hcons : ItemsLaidOut (blanks ++ blanks' ++ text ++ rest) (item :: items) behind :=
      .cons (allBlank_append.mpr ⟨hblanks, hblanks'⟩) hitem hitems
    rwa [List.append_assoc, List.append_assoc, ← List.append_assoc blanks'] at hcons

/-- **Layouts of items behind one another** lay out the items behind one another. -/
theorem ItemsLaidOut.append {xs ys behind : List Byte} {items items' : List Form}
    (h : ItemsLaidOut xs items (ys ++ behind)) (h' : ItemsLaidOut ys items' behind) :
    ItemsLaidOut (xs ++ ys) (items ++ items') behind := by
  -- the grammar adds items in front, so the induction is on those in front
  induction items generalizing xs with
  | nil =>
    cases h with
    | nil hblanks => exact h'.blanks_append hblanks
  | cons item items ih =>
    cases h with
    | @cons blanks text rest _ _ _ hblanks hitem hitems =>
      rw [← List.append_assoc] at hitem
      have hcons := ItemsLaidOut.cons hblanks hitem (ih hitems)
      rwa [← List.append_assoc] at hcons

/-- A layout of a source is a layout of its form between blanks. -/
theorem exists_of_laysOut {source : List Byte} {form : Form} (h : LaysOut source form) :
    ∃ blanks text rest, allBlank blanks ∧ allBlank rest ∧ source = blanks ++ (text ++ rest) ∧
      LaidOut text form rest := by
  cases h with
  | @cons blanks text rest _ _ _ hblanks hitem hitems =>
    cases hitems with
    | nil hrest =>
      rw [List.append_nil] at hitem
      exact ⟨blanks, text, rest, hblanks, hrest, List.append_assoc _ _ _, hitem⟩

/-! ### What follows a layout -/

mutual

/-- **What follows a layout** may be replaced, if a token that ends before it still does. -/
theorem LaidOut.of_behind : ∀ {form : Form} {text behind behind' : List Byte},
    LaidOut text form behind → (endsToken behind → endsToken behind') → LaidOut text form behind'
  | .atom _, _, _, _, h, hend => by
    cases h with
    | atom hspelling hfollowing => exact .atom hspelling fun hbare => hend (hfollowing hbare)
  | .list _, _, _, _, h, _ => by
    cases h with
    | @list bracket _ _ _ hitems =>
      exact .list (hitems.of_behind fun _ => endsToken_cons (Byte.isSeparator_closing bracket))

theorem ItemsLaidOut.of_behind : ∀ {items : List Form} {bytes behind behind' : List Byte},
    ItemsLaidOut bytes items behind → (endsToken behind → endsToken behind') →
    ItemsLaidOut bytes items behind'
  | [], _, _, _, h, _ => by
    cases h with
    | nil hblanks => exact .nil hblanks
  | item :: items, _, behind, behind', h, hend => by
    cases h with
    | @cons blanks text rest _ _ _ hblanks hitem hitems =>
      refine .cons hblanks ?_ (hitems.of_behind hend)
      -- only the last item is followed by something else
      rcases rest with _ | ⟨b, rest⟩
      · exact hitem.of_behind hend
      · exact hitem.of_behind fun hb => hb

end

/-! ### What a layout begins with -/

/-- A layout begins with a byte that is not blank. -/
theorem LaidOut.exists_cons {text behind : List Byte} {form : Form} (h : LaidOut text form behind) :
    ∃ b bytes, text = b :: bytes ∧ Byte.isBlank b = false := by
  cases h with
  | atom hspelling _ =>
    obtain ⟨b, bytes, htext, hb⟩ := exists_cons_of_spelling hspelling
    exact ⟨b, bytes, htext, isBlank_of_isSeparator hb⟩
  | @list bracket inner items _ hitems =>
    exact ⟨bracket.opening, inner ++ [bracket.closing], rfl, Byte.isBlank_opening bracket⟩

/-! ### What has a layout is representable -/

theorem isName_iff {name : String} :
    isName name = true ↔ name ≠ "" ∧ isToken (Text.bytes name) ∧
      (Text.bytes name).head? ≠ some Byte.hash ∧ (Text.bytes name).head? ≠ some Byte.quote ∧
      Numeral.read? (Text.bytes name) = none := by
  simp [isName, isToken, and_assoc, ← Text.bytes_eq_nil_iff]

theorem isQuotable_iff {text : String} :
    isQuotable text = true ↔ Byte.quote ∉ Text.bytes text := by
  rw [isQuotable, List.all_eq_true]
  constructor
  · intro h hmem
    simpa using h _ hmem
  · intro h b hb
    simpa using fun he : b = Byte.quote => h (he ▸ hb)

/-- **Only representable atoms are spelled.** -/
theorem isRepresentable_of_spelling {text : List Byte} {a : Atom} (h : Spelling text a) :
    a.isRepresentable = true := by
  cases h with
  | number _ _ => rfl
  | true => rfl
  | false => rfl
  | string hfree => exact isQuotable_iff.mpr hfree
  | symbol hne htoken hhash hquote hread =>
    exact isName_iff.mpr ⟨hne, htoken, hhash, hquote, hread⟩

mutual

/-- **Only representable forms are laid out.** -/
theorem LaidOut.isRepresentable : ∀ {form : Form} {text behind : List Byte},
    LaidOut text form behind → form.isRepresentable = true
  | .atom a, _, _, h => by
    rw [Form.isRepresentable_atom]
    cases h with
    | atom hspelling _ => exact isRepresentable_of_spelling hspelling
  | .list items, _, _, h => by
    rw [Form.isRepresentable_list]
    cases h with
    | list hitems => exact hitems.areRepresentable

theorem ItemsLaidOut.areRepresentable : ∀ {items : List Form} {bytes behind : List Byte},
    ItemsLaidOut bytes items behind → Form.areRepresentable items = true
  | [], _, _, _ => rfl
  | item :: items, _, _, h => by
    rw [Form.areRepresentable, Bool.and_eq_true]
    cases h with
    | cons _ hitem hitems => exact ⟨hitem.isRepresentable, hitems.areRepresentable⟩

end

/-- **Only representable forms** have layouts. -/
theorem isRepresentable_of_laysOut {source : List Byte} {form : Form} (h : LaysOut source form) :
    form.isRepresentable = true := by
  obtain ⟨_, _, _, _, _, _, htext⟩ := exists_of_laysOut h
  exact htext.isRepresentable

/-! ### What is representable has a layout -/

/-- **The source text of an atom** spells it. -/
theorem spelling_text {a : Atom} (h : a.isRepresentable = true) :
    Spelling (Text.bytes a.text) a := by
  cases a with
  | number n =>
    exact .number (Numeral.isSeparator_of_mem_bytes_text n) (Numeral.read?_bytes_text n)
  | boolean b =>
    cases b with
    | true => exact Spelling.true
    | false => exact Spelling.false
  | symbol name =>
    obtain ⟨hne, htoken, hhash, hquote, hread⟩ := isName_iff.mp h
    exact .symbol hne htoken hhash hquote hread
  | string text =>
    have hbytes : Text.bytes (Atom.string text).text =
        Byte.quote :: Text.bytes text ++ [Byte.quote] := by
      rw [Atom.text, Text.bytes_append, Text.bytes_append]
      rfl
    rw [hbytes]
    exact .string (isQuotable_iff.mp h)

/-- What follows an item in a list ends a token. -/
theorem endsToken_followingText (items : List Form) {behind : List Byte}
    (hend : endsToken behind) : endsToken (Text.bytes (Form.followingText items) ++ behind) := by
  cases items with
  | nil => exact hend
  | cons item items =>
    rw [Form.followingText, Text.bytes_append, Text.bytes_append]
    exact endsToken_cons rfl

mutual

/-- **The source text of a form** is a layout of it. -/
theorem laidOut_text : ∀ {form : Form} {behind : List Byte}, form.isRepresentable = true →
    endsToken behind → LaidOut (Text.bytes form.text) form behind
  | .atom a, behind, h, hend => by
    rw [Form.isRepresentable_atom] at h
    rw [Form.text]
    exact .atom (spelling_text h) fun _ => hend
  | .list items, behind, h, _ => by
    rw [Form.isRepresentable_list] at h
    have hitems : ItemsLaidOut (Text.bytes (Form.spacedText items)) items
        (Bracket.round.closing :: behind) :=
      itemsLaidOut_spacedText h (endsToken_cons (Byte.isSeparator_closing .round))
    rw [Form.text, Text.bytes_append, Text.bytes_append]
    exact LaidOut.list hitems

theorem itemsLaidOut_spacedText : ∀ {items : List Form} {behind : List Byte},
    Form.areRepresentable items = true → endsToken behind →
    ItemsLaidOut (Text.bytes (Form.spacedText items)) items behind
  | [], _, _, _ => .nil allBlank_nil
  | item :: items, behind, h, hend => by
    rw [Form.areRepresentable, Bool.and_eq_true] at h
    have hitem := laidOut_text h.1 (endsToken_followingText items hend)
    rw [Form.spacedText, Text.bytes_append]
    exact .cons allBlank_nil hitem (itemsLaidOut_followingText h.2 hend)

theorem itemsLaidOut_followingText : ∀ {items : List Form} {behind : List Byte},
    Form.areRepresentable items = true → endsToken behind →
    ItemsLaidOut (Text.bytes (Form.followingText items)) items behind
  | [], _, _, _ => .nil allBlank_nil
  | item :: items, behind, h, hend => by
    rw [Form.areRepresentable, Bool.and_eq_true] at h
    have hitem := laidOut_text h.1 (endsToken_followingText items hend)
    rw [Form.followingText, Text.bytes_append, Text.bytes_append]
    -- the one space in front of the item is the only blank
    refine .cons (fun b hb => ?_) hitem (itemsLaidOut_followingText h.2 hend)
    rw [List.mem_singleton.mp hb]
    rfl

end

/-- **The source text** of a representable form lays it out. -/
theorem laysOut_text {form : Form} (h : form.isRepresentable = true) :
    LaysOut (Text.bytes form.text) form :=
  ItemsLaidOut.single allBlank_nil (laidOut_text h fun _ hb => nomatch hb)

end FormReader
