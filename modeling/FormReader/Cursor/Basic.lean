import FormReader.Byte

/-!
# Cursors

A cursor stands at a position of a source and looks at the bytes from there on. Its
moves either succeed and go forward, or answer `none`, in which case the old cursor is
still at hand. They come in three sorts:

* over a fixed run of bytes (`FormReader.Cursor.literal?`);
* over all bytes of a set, or all bytes outside of it (`FormReader.Cursor.skipWhile?`,
  `FormReader.Cursor.skipUntil?`), where running into the end of the source is a failure;
* over a token (`FormReader.Cursor.token?`), where the end of the source is as good an
  end as a separator.

The position is a plain number and can be set freely (`FormReader.Cursor.seek`), also
beyond the end of the source. There the cursor behaves as if it were at the end, except
that a token cannot be cut out of bytes that do not exist.
-/

namespace FormReader

/-- **Cursors.** The bytes from the position on are kept at hand as a list, so that
a move need not look for them. -/
structure Cursor where
  /-- The bytes of the source. -/
  source : Array Byte
  /-- The position of the cursor: how many bytes of the source lie before it. -/
  pos : Nat
  /-- The bytes that lie ahead. -/
  rest : List Byte
  rest_eq : rest = source.toList.drop pos

namespace Cursor

/-- The cursor at the beginning of a source. -/
def ofBytes (source : List Byte) : Cursor :=
  ⟨source.toArray, 0, source, rfl⟩

/-- How many bytes lie ahead. -/
def left (c : Cursor) : Nat := c.source.size - c.pos

/-- Go to a position, wherever it is. -/
def seek (c : Cursor) (pos : Nat) : Cursor :=
  ⟨c.source, pos, c.source.toList.drop pos, rfl⟩

/-- Go forward by `n` bytes. -/
def advance (c : Cursor) (n : Nat) : Cursor :=
  ⟨c.source, c.pos + n, c.rest.drop n, by rw [c.rest_eq, List.drop_drop]⟩

/-! ### Looking ahead -/

/-- The byte at the cursor. -/
def peek? (c : Cursor) : Option Byte := c.rest.head?

/-- Whether the cursor stands before a separator or at the end of the source. -/
def atBoundary (c : Cursor) : Bool := c.peek?.all Byte.isSeparator

/-- Whether nothing but blanks lies ahead. -/
def onlyBlanksLeft (c : Cursor) : Bool := c.rest.all Byte.isBlank

/-- The bytes between two positions, if the source has them. -/
def slice? (c : Cursor) (start stop : Nat) : Option (List Byte) :=
  if start ≤ stop ∧ stop ≤ c.source.size then some (c.source.extract start stop).toList else none

/-! ### Moves -/

/-- Go past the given bytes, if they are the next ones. -/
def literal? (c : Cursor) (bytes : List Byte) : Option Cursor :=
  if bytes.isPrefixOf c.rest then some (c.advance bytes.length) else none

/-- Go to the next byte that is in the set, if there is one. -/
def skipUntil? (c : Cursor) (set : Byte → Bool) : Option Cursor :=
  (c.rest.findIdx? set).map c.advance

/-- Go to the next byte that is not in the set, if there is one. -/
def skipWhile? (c : Cursor) (set : Byte → Bool) : Option Cursor :=
  c.skipUntil? fun b => !set b

/-- The bytes up to the next separator or the end of the source. -/
def tokenAhead (c : Cursor) : List Byte :=
  c.rest.takeWhile fun b => !Byte.isSeparator b

/-- **Take a token**: the bytes up to the next separator or the end of the source, and
the cursor behind them. The token may be empty. There is none beyond the end. -/
def token? (c : Cursor) : Option (List Byte × Cursor) :=
  let behind := (c.skipUntil? Byte.isSeparator).getD (c.seek c.source.size)
  (c.slice? c.pos behind.pos).map fun token => (token, behind)

end Cursor

end FormReader
