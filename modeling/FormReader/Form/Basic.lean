/-!
# Forms

A form is what one stretch of text is read as: an *atom* – a number, a boolean, a
symbol or a string – or a list of forms. The brackets a list was written with, and
the blanks between its items, leave no trace in the form.

Two forms are equal when they are built alike; `FormReader.Form.decEq` decides it
by walking both at once.
-/

namespace FormReader

/-- A form without parts. -/
inductive Atom where
  /-- A number of 64 bits with sign. -/
  | number (value : Int64)
  /-- One of the two truth values. -/
  | boolean (value : Bool)
  /-- A name. -/
  | symbol (name : String)
  /-- A piece of text. -/
  | string (text : String)
deriving DecidableEq, Inhabited

/-- **Forms**: atoms, and lists of forms of any length, the empty one included. -/
inductive Form where
  /-- A form without parts. -/
  | atom (value : Atom)
  /-- A list of forms. -/
  | list (items : List Form)

instance : Inhabited Form := ⟨.list []⟩

instance : Coe Atom Form := ⟨.atom⟩

/-! ### Looking into an atom -/

namespace Atom

/-- The number that the atom is. -/
def number? : Atom → Option Int64
  | number value => some value
  | _ => none

/-- The truth value that the atom is. -/
def boolean? : Atom → Option Bool
  | boolean value => some value
  | _ => none

/-- The name that the atom is. -/
def symbol? : Atom → Option String
  | symbol name => some name
  | _ => none

/-- The text that the atom is. -/
def string? : Atom → Option String
  | string text => some text
  | _ => none

end Atom

/-! ### Looking into a form -/

namespace Form

/-- The atom that the form is. -/
def atom? : Form → Option Atom
  | atom value => some value
  | list _ => none

/-- The items of the form, if it is a list. -/
def items? : Form → Option (List Form)
  | atom _ => none
  | list items => some items

/-- Whether the form is the list without items. -/
def isEmptyList : Form → Bool
  | list [] => true
  | _ => false

/-! ### Equality -/

mutual

/-- Decide whether two forms are equal. -/
def decEq : (x y : Form) → Decidable (x = y)
  | atom a, atom b =>
    if h : a = b then .isTrue (congrArg atom h) else .isFalse fun e => h (Form.atom.inj e)
  | list xs, list ys =>
    match decEqItems xs ys with
    | .isTrue h => .isTrue (congrArg list h)
    | .isFalse h => .isFalse fun e => h (Form.list.inj e)
  | atom _, list _ => .isFalse nofun
  | list _, atom _ => .isFalse nofun

/-- Decide whether two sequences of forms are equal, item by item. -/
def decEqItems : (xs ys : List Form) → Decidable (xs = ys)
  | [], [] => .isTrue rfl
  | x :: xs, y :: ys =>
    match decEq x y with
    | .isFalse h => .isFalse fun e => h (List.cons.inj e).1
    | .isTrue h =>
      match decEqItems xs ys with
      | .isTrue hs => .isTrue (congr (congrArg List.cons h) hs)
      | .isFalse hs => .isFalse fun e => hs (List.cons.inj e).2
  | [], _ :: _ => .isFalse nofun
  | _ :: _, [] => .isFalse nofun

end

instance : DecidableEq Form := decEq

end Form

end FormReader
