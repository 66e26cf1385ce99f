/-!
# The inspection format

Besides the text it is read from, every value of this library has an *inspection
text* that shows how it is built. The format has five shapes, and this file holds
one function for each of them:

* a constructor applied to values, `Number(-7)` (`FormReader.Inspect.tagged`);
* a record with named fields (`FormReader.Inspect.record`);
* an optional value, `None` or `Some(1)` (`FormReader.Inspect.optional`);
* a sequence, `[5, -1]` (`FormReader.Inspect.sequence`);
* a quoted text (`FormReader.Inspect.quoted`), in which a quote, a backslash and
  the control characters are escaped, so that it always stands on one line.
-/

namespace FormReader

namespace Inspect

/-- A constructor and the value it is applied to. -/
def tagged (name value : String) : String :=
  name ++ "(" ++ value ++ ")"

/-- A field of a record. -/
def field (name value : String) : String :=
  name ++ ": " ++ value

/-- A record: its name and, in braces, its fields. -/
def record (name : String) (fields : List (String × String)) : String :=
  name ++ " \x7b " ++ ", ".intercalate (fields.map fun f => field f.1 f.2) ++ " \x7d"

/-- An optional value. -/
def optional : Option String → String
  | none => "None"
  | some value => tagged "Some" value

/-- A sequence of values. -/
def sequence (values : List String) : String :=
  "[" ++ ", ".intercalate values ++ "]"

/-! ### Quoted text -/

/-- The control characters, which have no shape of their own to be shown with. -/
def isControl (c : Char) : Bool :=
  c.val < 0x20 || 0x7f ≤ c.val && c.val < 0xa0

/-- **Escaping**: a quote and a backslash take a backslash, four control
characters have letters of their own, and the others are written by their number
in hexadecimal. An apostrophe needs no escape. -/
def escape (c : Char) : String :=
  match c with
  | '"' => "\\\""
  | '\\' => "\\\\"
  | '\n' => "\\n"
  | '\r' => "\\r"
  | '\t' => "\\t"
  | '\x00' => "\\0"
  | _ =>
    if isControl c then
      "\\u\x7b" ++ String.ofList (Nat.toDigits 16 c.toNat) ++ "\x7d"
    else c.toString

/-- A text between quotes, with every character of it escaped that needs to be. -/
def quoted (s : String) : String :=
  "\"" ++ String.join (s.toList.map escape) ++ "\""

end Inspect

end FormReader
