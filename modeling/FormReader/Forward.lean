import FormReader.Text
import FormReader.Numeral
import FormReader.Failure
import FormReader.Form.Basic

/-!
# Reading in one pass

A form can also be read without ever going back. `FormReader.Forward` is the state of a
machine that does so: it keeps a stack of the lists that are open – the bracket each was
opened with, where, and its items so far – and in every step it passes over blanks and
decides by the next byte what to do. An opening bracket opens a list, a closing bracket
has to close the innermost one, and anything else begins an atom, of which there is at
most one that it can be.

The machine fails where it stands, and its stack then names the lists that were never
closed. Every step takes at least one byte or ends the run, so a run ends.
-/

namespace FormReader

/-! ### Atoms -/

/-- The atom that begins with a hash sign, from the bytes behind the sign. -/
def booleanAhead? : List Byte → Option (Atom × Nat)
  | [] => none
  | b :: behind =>
    if behind.head?.all Byte.isSeparator then
      if b = 't'.toUInt8 then some (.boolean true, 2)
      else if b = 'f'.toUInt8 then some (.boolean false, 2)
      else none
    else none

/-- The atom that begins with a quote, from the bytes behind the quote. -/
def stringAhead? (bytes : List Byte) : Option (Atom × Nat) :=
  let text := bytes.takeWhile (· ≠ Byte.quote)
  if text.length < bytes.length then
    (Text.ofBytes? text).map fun s => (.string s, text.length + 2)
  else none

/-- The atom that a token is. -/
def tokenAtom? (token : List Byte) : Option Atom :=
  match Numeral.read? token with
  | some n => some (.number n)
  | none => (Text.ofBytes? token).map .symbol

/-- **The atom at the beginning** of some bytes, and how many of them it takes. -/
def atomAhead? : List Byte → Option (Atom × Nat)
  | [] => none
  | b :: behind =>
    if b = Byte.hash then booleanAhead? behind
    else if b = Byte.quote then stringAhead? behind
    else
      let token := (b :: behind).takeWhile fun c => !Byte.isSeparator c
      if token.isEmpty then none else (tokenAtom? token).map fun a => (a, token.length)

theorem pos_of_atomAhead? {bytes : List Byte} {a : Atom} {n : Nat}
    (h : atomAhead? bytes = some (a, n)) : 0 < n := by
  cases bytes with
  | nil => simp [atomAhead?] at h
  | cons b behind =>
    rw [atomAhead?] at h
    split at h
    · cases behind with
      | nil => simp [booleanAhead?] at h
      | cons c behind => grind [booleanAhead?]
    · split at h
      · simp only [stringAhead?] at h
        split at h
        · obtain ⟨_, _, ⟨⟩⟩ := Option.map_eq_some_iff.mp h
          omega
        · cases h
      · simp only at h
        split at h
        · cases h
        · next hne =>
          obtain ⟨_, _, ⟨⟩⟩ := Option.map_eq_some_iff.mp h
          exact List.length_pos_iff.mpr (by simpa [List.isEmpty_iff] using hne)

/-! ### The machine -/

/-- A list that is open. -/
structure Frame where
  /-- The brackets of the list. -/
  bracket : Bracket
  /-- The position of its opening bracket. -/
  pos : Nat
  /-- Its items so far, latest first. -/
  items : List Form := []

/-- **The machine**: where it stands, what lies ahead, and which lists are open. -/
structure Forward where
  pos : Nat
  rest : List Byte
  /-- The lists that are open, innermost first. -/
  frames : List Frame := []

namespace Forward

/-- What comes of a step: the machine goes on, or it has ended. -/
inductive Move where
  | goesOn (s : Forward)
  | ends (result : Except Failure Form) (s : Forward)

/-- Go forward by `n` bytes. -/
def advance (s : Forward) (n : Nat) : Forward :=
  { s with pos := s.pos + n, rest := s.rest.drop n }

/-- Pass over blanks. -/
def skipBlanks (s : Forward) : Forward :=
  s.advance (s.rest.takeWhile Byte.isBlank).length

/-- Open a list, unless too many are open already. -/
def openList (limit : Nat) (bracket : Bracket) (s : Forward) : Move :=
  if s.frames.length < limit then
    .goesOn { s.advance 1 with frames := { bracket, pos := s.pos } :: s.frames }
  else .ends (.error (.tooDeep limit limit)) (s.advance 1)

/-- Put a complete form where it belongs: into the innermost list, or out. -/
def complete (form : Form) (s : Forward) : Move :=
  match s.frames with
  | [] => .ends (.ok form) s
  | frame :: outer =>
    .goesOn { s with frames := { frame with items := form :: frame.items } :: outer }

/-- Close the innermost list, if the bracket is the right one. -/
def closeList (bracket : Bracket) (s : Forward) : Move :=
  match s.frames with
  | [] => .ends (.error .noMatch) s
  | frame :: outer =>
    if frame.bracket = bracket then
      complete (.list frame.items.reverse) { s.advance 1 with frames := outer }
    else .ends (.error .noMatch) s

/-- Decide by the next byte what to do. -/
def decideNext (limit : Nat) (s : Forward) : Move :=
  match s.rest.head? with
  | none => .ends (.error .noMatch) s
  | some b =>
    match Bracket.ofOpening? b, Bracket.ofClosing? b with
    | some bracket, _ => s.openList limit bracket
    | none, some bracket => s.closeList bracket
    | none, none =>
      match atomAhead? s.rest with
      | some (a, n) => (s.advance n).complete (.atom a)
      | none => .ends (.error .noMatch) s

/-- **One step.** -/
def step (limit : Nat) (s : Forward) : Move :=
  s.skipBlanks.decideNext limit

/-! ### Progress -/

theorem length_rest_advance (s : Forward) (n : Nat) :
    (s.advance n).rest.length = s.rest.length - n := by
  simp [advance]

theorem rest_of_complete {form : Form} {s s' : Forward} (h : s.complete form = .goesOn s') :
    s'.rest = s.rest := by
  unfold complete at h
  split at h <;> cases h
  rfl

/-- A step that goes on has taken at least one byte. -/
theorem length_rest_lt_of_step {limit : Nat} {s s' : Forward}
    (h : s.step limit = .goesOn s') : s'.rest.length < s.rest.length := by
  have skip : s.skipBlanks.rest.length ≤ s.rest.length := by
    simp [skipBlanks, length_rest_advance]
  refine Nat.lt_of_lt_of_le ?_ skip
  unfold step decideNext at h
  generalize s.skipBlanks = t at h ⊢
  cases ht : t.rest with
  | nil => simp [ht] at h
  | cons b behind =>
    simp only [ht, List.head?_cons] at h
    split at h
    · unfold openList at h
      split at h <;> cases h
      simp [advance, ht]
    · unfold closeList at h
      split at h
      · cases h
      · split at h
        · rw [rest_of_complete h]
          simp [advance, ht]
        · cases h
    · split at h
      · next a n ha =>
        rw [rest_of_complete h, length_rest_advance, ht]
        have := pos_of_atomAhead? ha
        simp only [List.length_cons]
        omega
      · cases h

/-- **A run**: steps until the machine ends, with the result and where it stands. -/
def run (limit : Nat) (s : Forward) : Except Failure Form × Forward :=
  match h : s.step limit with
  | .ends result s' => (result, s')
  | .goesOn s' =>
    have : s'.rest.length < s.rest.length := length_rest_lt_of_step h
    run limit s'
termination_by s.rest.length

end Forward

end FormReader
