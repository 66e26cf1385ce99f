import FormReader.Event
import FormReader.Layout

/-!
# Lists that are left open

Where no form can be read, something stands in the way. To say what it is one goes over the
source once: past the forms that are complete, and into a list wherever a bracket is opened that
is not closed again. At the end of this there are certain lists that were left open, one inside
the other, and a dead end (`FormReader.LeftOpen`).

What should be said about it is a cause for each of these lists, the innermost first
(`FormReader.diagnoses`). It is the dead end that is in the way of the innermost list. In the way
of every other list is the bracket that opens the next one, which might as well not be there.
-/

namespace FormReader

/-! ### Why a list is not closed -/

/-- **The bracket that was expected**, if an event tells why a list is not closed. -/
def Event.expected? : Event → Option Bracket
  | unclosed expected => some expected
  | mismatched _ expected _ => some expected
  | unparsable _ expected => some expected
  | _ => none

/-- Whether an event tells why a list is not closed. -/
def Event.isCause (e : Event) : Bool := e.expected?.isSome

/-- **The cause** why a list is not closed, from what lies ahead at the position where its closing
bracket should be: nothing at all, another closing bracket, or something else. -/
def cause (expected : Bracket) (pos : Nat) (ahead : List Byte) : Event :=
  match ahead.head? with
  | none => .unclosed expected
  | some b =>
    match Bracket.ofClosing? b with
    | some found => .mismatched pos expected found
    | none => .unparsable pos expected

/-! ### Lists that are left open -/

/-- **A bracket that is open.** -/
structure OpenBracket where
  bracket : Bracket
  /-- The position of the opening bracket. -/
  pos : Nat
deriving DecidableEq, Repr

/-- **A dead end** inside a list with the given brackets, or outside of all lists: the source is at
its end, or there is a byte that is not blank, does not open a list nor close the one around it,
and does not begin an atom. -/
structure DeadEnd (around : Option Bracket) (ahead : List Byte) : Prop where
  not_blank : ∀ b ∈ ahead.head?, Byte.isBlank b = false
  not_opening : ∀ bracket : Bracket, ahead.head? ≠ some bracket.opening
  not_closing : ∀ bracket ∈ around, ahead.head? ≠ some bracket.closing
  no_atom : ∀ {text behind : List Byte} {a : Atom}, ahead = text ++ behind →
    ¬LaidOut text (.atom a) behind

/-- **Lists left open** from a position on where certain bytes lie ahead, with the list around
it, if any: the brackets that are open, outermost first, the position of the dead end, and what
lies ahead there. -/
inductive LeftOpen : Option Bracket → Nat → List Byte → List OpenBracket → Nat → List Byte → Prop
  where
  /-- There are only blanks in front of the dead end. -/
  | deadEnd {around : Option Bracket} {pos : Nat} {blanks ahead : List Byte} :
      allBlank blanks → DeadEnd around ahead →
      LeftOpen around pos (blanks ++ ahead) [] (pos + blanks.length) ahead
  /-- Behind blanks a bracket is opened, and forms are complete in front of what comes next. -/
  | inside {around : Option Bracket} {pos stop : Nat} {blanks inner rest ahead : List Byte}
      {bracket : Bracket} {items : List Form} {opened : List OpenBracket} :
      allBlank blanks → ItemsLaidOut inner items rest →
      LeftOpen (some bracket) (pos + blanks.length + 1 + inner.length) rest opened stop ahead →
      LeftOpen around pos (blanks ++ bracket.opening :: (inner ++ rest))
        (⟨bracket, pos + blanks.length⟩ :: opened) stop ahead

/-- **The causes** why lists are not closed, innermost first, from the brackets that are open,
outermost first, and the dead end. -/
def diagnoses : List OpenBracket → Nat → List Byte → List Event
  | [], _, _ => []
  | [innermost], stop, ahead => [cause innermost.bracket stop ahead]
  | outer :: next :: opened, stop, ahead =>
    diagnoses (next :: opened) stop ahead ++ [.unparsable next.pos outer.bracket]

/-- There is one cause for each list, and it names the bracket that was expected. -/
theorem map_expected?_diagnoses (opened : List OpenBracket) (stop : Nat) (ahead : List Byte) :
    (diagnoses opened stop ahead).map Event.expected? =
      opened.reverse.map fun o => some o.bracket := by
  induction opened with
  | nil => rfl
  | cons outer opened ih =>
    rcases opened with _ | ⟨next, opened⟩
    · rw [diagnoses, cause]
      split
      · rfl
      · split
        · rfl
        · rfl
    · have houter : (outer :: next :: opened).reverse = (next :: opened).reverse ++ [outer] :=
        List.reverse_cons
      rw [diagnoses, houter, List.map_append, List.map_append, ih]
      rfl

end FormReader
