import FormReader.Form.Basic
import Mathlib.Algebra.GroupWithZero.Nat

/-!
# Tallies

Many quantities of a form are sums over its parts: an atom contributes something that depends on
the atom, and every list contributes a fixed amount besides what its items do. Such a sum is a
*tally* of the form (`FormReader.Form.tally`). The number of atoms in a form is a tally, and so
is the number of lists, itself included; together they say how much text a form takes at
least (`FormReader.Form.extent`).
-/

namespace FormReader

namespace Form

mutual

/-- **A tally** of a form, from what an atom and a list contribute. -/
def tally (ofAtom : Atom → Nat) (ofList : Nat) : Form → Nat
  | atom value => ofAtom value
  | list items => ofList + tallyOfItems ofAtom ofList items

/-- The tallies of some forms taken together. -/
def tallyOfItems (ofAtom : Atom → Nat) (ofList : Nat) : List Form → Nat
  | [] => 0
  | item :: items => item.tally ofAtom ofList + tallyOfItems ofAtom ofList items

end

/-- How many atoms there are in a form. -/
def atomCount : Form → Nat := tally (fun _ => 1) 0

/-- How many lists there are in a form, the form itself included if it is one. -/
def listCount : Form → Nat := tally (fun _ => 0) 1

/-- **The extent** of a form: a byte for each atom and two brackets for each list. -/
def extent (form : Form) : Nat := form.atomCount + 2 * form.listCount

/-! ### Tallies of composed forms -/

section Tally

variable {ofAtom ofAtom' : Atom → Nat} {ofList ofList' : Nat}

@[simp] theorem tally_atom (a : Atom) : (atom a).tally ofAtom ofList = ofAtom a := by rw [tally]

@[simp] theorem tally_list (items : List Form) :
    (list items).tally ofAtom ofList = ofList + tallyOfItems ofAtom ofList items := by rw [tally]

@[simp] theorem tallyOfItems_nil : tallyOfItems ofAtom ofList [] = 0 := by rw [tallyOfItems]

@[simp] theorem tallyOfItems_cons (item : Form) (items : List Form) :
    tallyOfItems ofAtom ofList (item :: items) =
      item.tally ofAtom ofList + tallyOfItems ofAtom ofList items := by rw [tallyOfItems]

theorem tallyOfItems_eq_sum (items : List Form) :
    tallyOfItems ofAtom ofList items = (items.map (tally ofAtom ofList)).sum := by
  induction items with
  | nil => rw [tallyOfItems_nil, List.map_nil, List.sum_nil]
  | cons item items ih => rw [tallyOfItems_cons, ih, List.map_cons, List.sum_cons]

theorem tallyOfItems_concat (items : List Form) (item : Form) :
    tallyOfItems ofAtom ofList (items ++ [item]) =
      tallyOfItems ofAtom ofList items + item.tally ofAtom ofList := by
  rw [tallyOfItems_eq_sum, List.map_append, List.sum_append, ← tallyOfItems_eq_sum,
    List.map_singleton, List.sum_singleton]

mutual

/-- **Tallies add up**, and one of them may count several times. -/
theorem tally_add_mul (k : Nat) : ∀ form : Form,
    form.tally ofAtom ofList + k * form.tally ofAtom' ofList' =
      form.tally (fun a => ofAtom a + k * ofAtom' a) (ofList + k * ofList')
  | atom _ => by rw [tally_atom, tally_atom, tally_atom]
  | list items => by
    have hitems := tallyOfItems_add_mul k items
    rw [tally_list, tally_list, tally_list, ← hitems, Nat.mul_add]
    omega

theorem tallyOfItems_add_mul (k : Nat) : ∀ items : List Form,
    tallyOfItems ofAtom ofList items + k * tallyOfItems ofAtom' ofList' items =
      tallyOfItems (fun a => ofAtom a + k * ofAtom' a) (ofList + k * ofList') items
  | [] => by rw [tallyOfItems_nil, tallyOfItems_nil, tallyOfItems_nil, Nat.mul_zero]
  | item :: items => by
    have hitem := tally_add_mul k item
    have hitems := tallyOfItems_add_mul k items
    rw [tallyOfItems_cons, tallyOfItems_cons, tallyOfItems_cons, ← hitem, ← hitems, Nat.mul_add]
    omega

end

end Tally

/-! ### The extent -/

theorem extent_eq_tally (form : Form) : form.extent = form.tally (fun _ => 1) 2 :=
  tally_add_mul 2 form

/-- Nothing at all is no form. -/
theorem extent_pos (form : Form) : 0 < form.extent := by
  rw [extent_eq_tally]
  cases form with
  | atom a =>
    rw [tally_atom]
    exact Nat.one_pos
  | list items =>
    rw [tally_list]
    exact Nat.add_pos_left Nat.two_pos _

example : (list [atom (.symbol "f"), list [], list [atom (.number 1)]]).extent = 8 := rfl

end Form

end FormReader
