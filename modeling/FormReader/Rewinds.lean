import FormReader.Event
import FormReader.Form.Tally

/-!
# How often a reader goes back

A reader looks for the sorts of atoms in a fixed order, and for a list after all of them. Before
it finds what is there it has to go back from everything that it has tried in vain. How often it
does so over a whole form is a tally of the form (`FormReader.Form.rewinds`), so nothing else
matters: not the blanks, nor the brackets, nor how a number is written.

An atom costs one step back for each sort that is tried before its own. A list costs eleven of its
own. To find that it is no atom takes one for each sort and one for the atom as a whole. In front
of its closing bracket an item is looked for once more, and this is given up after the same
number, and one for the item itself.
-/

namespace FormReader

/-- Whether an event tells of going back. -/
def Event.isRewinding : Event → Bool
  | rewinding .. => true
  | _ => false

/-- **The place of an atom's sort** among those that are tried: how many of them come before. -/
def Atom.rewinds : Atom → Nat
  | number _ => 0
  | boolean _ => 1
  | string _ => 2
  | symbol _ => 3

/-- **How often a reader goes back** when it reads the form. -/
def Form.rewinds : Form → Nat := tally Atom.rewinds 11

end FormReader
