import FormReader.Form.Tally
import FormReader.Proofs.Soundness

/-!
# Tallies and the text that they take

Every atom takes a byte at least and every list two brackets, and no byte serves two of them. So a
tally in which an atom contributes no more than `k` and a list no more than `2 * k` is bounded
by `k` times the text of the form, whatever its layout is (`FormReader.LaidOut.tally_le`). For a
reader this says that it has passed enough bytes for what it has read
(`FormReader.Reader.Reads.tally_le`), which is how the size of forms and the work spent on them are
charged to the source.
-/

namespace FormReader

variable {ofAtom : Atom → Nat} {ofList k : Nat}

/-! ### Layouts -/

mutual

/-- **A tally is bounded by the text** of the form. -/
theorem LaidOut.tally_le (hatom : ∀ a, ofAtom a ≤ k) (hlist : ofList ≤ 2 * k) :
    ∀ {form : Form} {text behind : List Byte},
    LaidOut text form behind → form.tally ofAtom ofList ≤ k * text.length
  | .atom a, _, _, h => by
    obtain ⟨b, bytes, rfl, -⟩ := h.exists_cons
    rw [Form.tally_atom, List.length_cons, Nat.mul_succ]
    exact Nat.le_trans (hatom a) (Nat.le_add_left k _)
  | .list items, _, _, h => by
    cases h with
    | list hitems =>
      have hinner := hitems.tallyOfItems_le hatom hlist
      -- the two brackets pay for the list itself
      rw [Form.tally_list, List.cons_append, List.length_cons, List.length_append,
        List.length_singleton, Nat.mul_succ, Nat.mul_succ]
      omega

theorem ItemsLaidOut.tallyOfItems_le (hatom : ∀ a, ofAtom a ≤ k) (hlist : ofList ≤ 2 * k) :
    ∀ {items : List Form} {bytes behind : List Byte},
    ItemsLaidOut bytes items behind → Form.tallyOfItems ofAtom ofList items ≤ k * bytes.length
  | [], _, _, _ => by
    rw [Form.tallyOfItems_nil]
    exact Nat.zero_le _
  | item :: items, _, _, h => by
    cases h with
    | cons _ hitem hitems =>
      have hfirst := hitem.tally_le hatom hlist
      have hothers := hitems.tallyOfItems_le hatom hlist
      rw [Form.tallyOfItems_cons, List.length_append, List.length_append, Nat.mul_add, Nat.mul_add]
      omega

end

/-! ### Readers -/

namespace Reader

variable {limit : Nat} {s s' : Reader} {form : Form} {items : List Form}

/-- What has been passed and what is left is what was left before. -/
theorem left_of_passed {passed : List Byte} (h : s.cursor.rest = passed ++ s'.cursor.rest) :
    s.cursor.left = passed.length + s'.cursor.left := by
  rw [← Cursor.length_rest, ← Cursor.length_rest, h, List.length_append]

/-- **What was read** is charged to the bytes that were passed. -/
theorem Reads.tally_le (h : Reads limit s form s') (hatom : ∀ a, ofAtom a ≤ k)
    (hlist : ofList ≤ 2 * k) :
    form.tally ofAtom ofList + k * s'.cursor.left ≤ k * s.cursor.left := by
  obtain ⟨blanks, text, -, hrest, htext⟩ := h.layout
  have hform := htext.tally_le hatom hlist
  rw [left_of_passed hrest, List.length_append, Nat.mul_add, Nat.mul_add]
  omega

theorem ReadsItems.tally_le (h : ReadsItems limit s items s') (hatom : ∀ a, ofAtom a ≤ k)
    (hlist : ofList ≤ 2 * k) :
    Form.tallyOfItems ofAtom ofList items + k * s'.cursor.left ≤ k * s.cursor.left := by
  obtain ⟨bytes, hrest, hbytes⟩ := h.layout
  have hitems := hbytes.tallyOfItems_le hatom hlist
  rw [left_of_passed hrest, Nat.mul_add]
  exact Nat.add_le_add_right hitems _

end Reader

end FormReader
