import FormReader.Denotation
import FormReader.Proofs.Numerals

/-!
# Numerals are read as what they denote

Reading a numeral takes its sign and its mark off and adds up the digits one by one, in as many
bits as it takes. That this finds what the numeral denotes, and that it finds nothing else, comes
down to two things. The parts of a numeral can be told apart from the front: digits do not begin
with a sign, and decimal digits do not go on with the letter of a mark behind a zero, so each part
is taken off as it was written (`FormReader.Numeral.splitSign_append`,
`FormReader.Numeral.splitRadix_append`). And adding up from the first digit gives the number that
mathematics counts from the last one (`FormReader.Numeral.foldlM_appendDigit_eq_some_iff`).

The width comes in at the very end: what does not fit into 64 bits is not read
(`FormReader.Numeral.numerals_read_exactly`).
-/

namespace FormReader

/-! ### Digits and marks -/

namespace Radix

theorem digitValue?_spec :
    ∀ n < 256, ∀ d ∈ digitValue? (UInt8.ofNat n), d < 16 ∧
      ∃ c ∈ digitChars[d]?, EitherCase c (UInt8.ofNat n) := by
  decide +kernel

theorem digitValue?_digitChars :
    ∀ d < 16, ∀ c ∈ digitChars[d]?, digitValue? c.toUInt8 = some d ∧
      digitValue? c.toUpper.toUInt8 = some d := by
  decide +kernel

theorem base_le (r : Radix) : r.base ≤ 16 := by
  cases r <;> decide

/-- **A digit** is taken for its value, and nothing else is. -/
theorem digit?_eq_some_iff {r : Radix} {b : Byte} {d : Nat} :
    r.digit? b = some d ↔ r.IsDigit b d := by
  rw [digit?, Option.filter_eq_some_iff, decide_eq_true_eq, IsDigit]
  constructor
  · rintro ⟨hvalue, hd⟩
    have hspec := digitValue?_spec b.toNat b.toNat_lt d
    rw [UInt8.ofNat_toNat] at hspec
    exact ⟨hd, (hspec hvalue).2⟩
  · rintro ⟨hd, c, hc, hb⟩
    have hspec := digitValue?_digitChars d (Nat.lt_of_lt_of_le hd r.base_le) c hc
    rcases hb with rfl | rfl
    · exact ⟨hspec.1, hd⟩
    · exact ⟨hspec.2, hd⟩

theorem ofMark?_spec :
    ∀ n < 256, ∀ r ∈ ofMark? (UInt8.ofNat n), ∃ c ∈ r.markChar?, EitherCase c (UInt8.ofNat n) := by
  decide +kernel

/-- **A letter** is taken for the radix that it marks, and nothing else is. -/
theorem ofMark?_eq_some_iff {b : Byte} {r : Radix} :
    ofMark? b = some r ↔ ∃ c ∈ r.markChar?, EitherCase c b := by
  constructor
  · intro h
    have hspec := ofMark?_spec b.toNat b.toNat_lt r
    rw [UInt8.ofNat_toNat] at hspec
    exact hspec h
  · rintro ⟨c, hc, hb⟩
    cases r with
    | binary => cases hc; rcases hb with rfl | rfl <;> rfl
    | octal => cases hc; rcases hb with rfl | rfl <;> rfl
    | decimal => cases hc
    | hexadecimal => cases hc; rcases hb with rfl | rfl <;> rfl

/-- A digit of any radix is no sign. -/
theorem IsDigit.ne_sign {r : Radix} {b : Byte} {d : Nat} (h : r.IsDigit b d) :
    b ≠ '-'.toUInt8 ∧ b ≠ '+'.toUInt8 := by
  obtain ⟨hd, c, hc, hb⟩ := h
  have hvalue := digitValue?_digitChars d (Nat.lt_of_lt_of_le hd r.base_le) c hc
  have hread : digitValue? b = some d := by
    rcases hb with rfl | rfl
    · exact hvalue.1
    · exact hvalue.2
  constructor
  · rintro rfl
    cases hread
  · rintro rfl
    cases hread

/-- A decimal digit is not the letter of a mark. -/
theorem ofMark?_of_isDigit {b : Byte} {d : Nat} (h : decimal.IsDigit b d) : ofMark? b = none := by
  have hspec : ∀ n < 256, decimal.digit? (UInt8.ofNat n) ≠ none →
      ofMark? (UInt8.ofNat n) = none := by
    decide +kernel
  have hb := hspec b.toNat b.toNat_lt
  rw [UInt8.ofNat_toNat, digit?_eq_some_iff.mpr h] at hb
  exact hb nofun

end Radix

namespace Numeral

/-! ### Taking the parts off -/

/-- Whatever the bytes behind a sign are, it is taken off. -/
theorem splitSign_append {sign unsigned : List Byte} {factor : Int} (hsign : Sign sign factor)
    (hunsigned : sign = [] → ∀ b ∈ unsigned.head?, b ≠ '-'.toUInt8 ∧ b ≠ '+'.toUInt8) :
    splitSign (sign ++ unsigned) = (decide (factor = -1), unsigned) := by
  cases hsign with
  | none =>
    rcases unsigned with _ | ⟨b, rest⟩
    · rfl
    · obtain ⟨hminus, hplus⟩ := hunsigned rfl b rfl
      rw [List.nil_append, splitSign, if_neg hminus, if_neg hplus]
      rfl
  | plus => rfl
  | minus => rfl

/-- What is taken off is a sign. -/
theorem exists_sign {token unsigned : List Byte} {negative : Bool}
    (h : splitSign token = (negative, unsigned)) :
    ∃ sign factor, Sign sign factor ∧ token = sign ++ unsigned ∧
      negative = decide (factor = -1) := by
  rcases token with _ | ⟨b, rest⟩
  · cases h
    exact ⟨[], 1, .none, rfl, rfl⟩
  rw [splitSign] at h
  split at h
  · next hb =>
    cases h
    exact ⟨_, -1, .minus, hb ▸ rfl, rfl⟩
  · split at h
    · next hb =>
      cases h
      exact ⟨_, 1, .plus, hb ▸ rfl, rfl⟩
    · cases h
      exact ⟨[], 1, .none, rfl, rfl⟩

/-- Whatever the bytes behind a zero and the letter of a mark are, the two are taken off. -/
theorem splitRadix_marked {mark digits : List Byte} {r : Radix} (hmark : Radix.Mark mark r)
    (hr : r ≠ .decimal) : splitRadix (mark ++ digits) = (r, digits) := by
  cases hmark with
  | bare => exact absurd rfl hr
  | @marked letter b _ hletter hb =>
    have hof : Radix.ofMark? b = some r := Radix.ofMark?_eq_some_iff.mpr ⟨letter, hletter, hb⟩
    rw [List.cons_append, List.singleton_append, splitRadix, if_pos rfl, hof]

/-- Decimal digits have nothing that looks like a mark. -/
theorem splitRadix_bare {digits : List Byte} {values : List Nat}
    (h : AreDigits .decimal digits values) : splitRadix digits = (.decimal, digits) := by
  rcases h with _ | ⟨hfirst, _ | ⟨hsecond, hrest⟩⟩
  · rfl
  · rfl
  · rw [splitRadix, Radix.ofMark?_of_isDigit hsecond]
    split
    · rfl
    · rfl

theorem splitRadix_append {mark digits : List Byte} {r : Radix} {values : List Nat}
    (hmark : Radix.Mark mark r) (hdigits : AreDigits r digits values) :
    splitRadix (mark ++ digits) = (r, digits) := by
  cases hmark with
  | bare => exact splitRadix_bare hdigits
  | marked hletter hb =>
    refine splitRadix_marked (.marked hletter hb) ?_
    rintro rfl
    cases hletter

/-- What is taken off is a mark. -/
theorem exists_mark {unsigned digits : List Byte} {r : Radix}
    (h : splitRadix unsigned = (r, digits)) :
    ∃ mark, Radix.Mark mark r ∧ unsigned = mark ++ digits := by
  rcases unsigned with _ | ⟨zero, _ | ⟨b, rest⟩⟩
  · cases h
    exact ⟨[], .bare, rfl⟩
  · cases h
    exact ⟨[], .bare, rfl⟩
  rw [splitRadix] at h
  split at h
  · next hzero =>
    split at h
    · next radix hof =>
      cases h
      obtain ⟨letter, hletter, hb⟩ := Radix.ofMark?_eq_some_iff.mp hof
      exact ⟨_, .marked hletter hb, hzero ▸ rfl⟩
    · cases h
      exact ⟨[], .bare, rfl⟩
  · cases h
    exact ⟨[], .bare, rfl⟩

/-- A mark and digits do not begin with a sign. -/
theorem ne_sign_of_digits {mark digits : List Byte} {r : Radix} {values : List Nat}
    (hmark : Radix.Mark mark r) (hdigits : AreDigits r digits values) :
    ∀ b ∈ (mark ++ digits).head?, b ≠ '-'.toUInt8 ∧ b ≠ '+'.toUInt8 := by
  intro b hb
  cases hmark with
  | bare =>
    cases hdigits with
    | nil => cases hb
    | cons hfirst _ =>
      cases hb
      exact hfirst.ne_sign
  | marked _ _ =>
    cases hb
    decide

/-! ### Adding up the digits -/

/-- **The digits are added up** from the first one on. What was there before them moves up by as
many places as there are digits. -/
theorem foldlM_appendDigit_eq_some_iff {r : Radix} {digits : List Byte} {start m : Nat} :
    digits.foldlM (appendDigit r) start = some m ↔
      ∃ values, AreDigits r digits values ∧
        m = Nat.ofDigits r.base values.reverse + r.base ^ values.length * start := by
  induction digits generalizing start with
  | nil =>
    rw [List.foldlM_nil, Option.pure_def, Option.some.injEq]
    constructor
    · rintro rfl
      exact ⟨[], .nil, by simp⟩
    · rintro ⟨_, ⟨⟩, rfl⟩
      simp
  | cons b digits ih =>
    -- the value of the first digit stands in front of those of the others
    have hplace (d : Nat) (values : List Nat) :
        Nat.ofDigits r.base values.reverse + r.base ^ values.length * (start * r.base + d) =
          Nat.ofDigits r.base (d :: values).reverse + r.base ^ (d :: values).length * start := by
      rw [List.reverse_cons, Nat.ofDigits_append, Nat.ofDigits_singleton, List.length_reverse,
        List.length_cons, pow_succ]
      ring
    rw [List.foldlM_cons]
    constructor
    · intro h
      obtain ⟨start', hstart', hrest⟩ := Option.bind_eq_some_iff.mp h
      obtain ⟨d, hd, rfl⟩ := Option.map_eq_some_iff.mp hstart'
      obtain ⟨values, hvalues, rfl⟩ := ih.mp hrest
      exact ⟨d :: values, .cons (Radix.digit?_eq_some_iff.mp hd) hvalues, hplace d values⟩
    · rintro ⟨_, _ | ⟨hd, hvalues⟩, rfl⟩
      rw [appendDigit, Radix.digit?_eq_some_iff.mpr hd]
      exact ih.mpr ⟨_, hvalues, (hplace _ _).symm⟩

/-- **The magnitude** is the number that has these digits, of which there has to be one. -/
theorem magnitude?_eq_some_iff {r : Radix} {digits : List Byte} {m : Nat} :
    magnitude? r digits = some m ↔
      digits ≠ [] ∧ ∃ values, AreDigits r digits values ∧
        m = Nat.ofDigits r.base values.reverse := by
  rw [magnitude?]
  by_cases hempty : digits = []
  · simp [hempty]
  · rw [if_neg (mt List.isEmpty_iff.mp hempty), foldlM_appendDigit_eq_some_iff]
    simp [hempty]

/-! ### Reading exactly -/

/-- What a sign makes of a number. -/
theorem signed_eq {sign : List Byte} {factor : Int} (h : Sign sign factor) (m : Nat) :
    signed (decide (factor = -1)) m = factor * m := by
  cases h with
  | none => simp [signed]
  | plus => simp [signed]
  | minus => simp [signed]

/-- **The value of a token** is what it denotes, and a token that denotes nothing has none. -/
theorem value?_eq_some_iff {token : List Byte} {v : Int} :
    value? token = some v ↔ Denotes token v := by
  constructor
  · intro h
    rcases hsign : splitSign token with ⟨negative, unsigned⟩
    rcases hradix : splitRadix unsigned with ⟨r, digits⟩
    rw [value?_of_parts hsign hradix] at h
    obtain ⟨m, hm, rfl⟩ := Option.map_eq_some_iff.mp h
    obtain ⟨hne, values, hvalues, rfl⟩ := magnitude?_eq_some_iff.mp hm
    obtain ⟨sign, factor, hsigned, rfl, rfl⟩ := exists_sign hsign
    obtain ⟨mark, hmark, rfl⟩ := exists_mark hradix
    rw [signed_eq hsigned]
    exact .intro hsigned hmark hne hvalues
  · rintro ⟨hsign, hmark, hne, hvalues⟩
    have hunsigned := ne_sign_of_digits hmark hvalues
    rw [value?_of_parts (splitSign_append hsign fun _ => hunsigned)
      (splitRadix_append hmark hvalues), magnitude?_eq_some_iff.mpr ⟨hne, _, hvalues, rfl⟩,
      Option.map_some, signed_eq hsign]

-- two digits that are eleven in decimal are seventeen in hexadecimal, and three in binary
example :
    Denotes (['-'.toUInt8] ++ (['0'.toUInt8, 'X'.toUInt8] ++ ['1'.toUInt8, '1'.toUInt8])) (-17) :=
  .intro .minus (.marked rfl (by decide)) (by decide)
    (by decide : AreDigits .hexadecimal _ [1, 1])

/-! ### Reading within 64 bits -/

theorem fits_iff {v : Int} : fits v = true ↔ -2 ^ 63 ≤ v ∧ v ≤ 2 ^ 63 - 1 := by
  simp only [fits, Bool.and_eq_true, decide_eq_true_eq, Int64.toInt_minValue,
    Int64.toInt_maxValue]

/-- **A token is read** as the integer that it denotes, if this fits. -/
theorem map_toInt_read?_eq_some_iff {token : List Byte} {v : Int} :
    (read? token).map Int64.toInt = some v ↔
      Denotes token v ∧ -2 ^ 63 ≤ v ∧ v ≤ 2 ^ 63 - 1 := by
  rw [← fits_iff, ← value?_eq_some_iff, read?_eq, Option.map_map, Option.map_eq_some_iff]
  constructor
  · rintro ⟨w, hw, rfl⟩
    obtain ⟨hvalue, hfits⟩ := Option.filter_eq_some_iff.mp hw
    rw [Function.comp_apply, toInt_ofInt_of_fits hfits]
    exact ⟨hvalue, hfits⟩
  · rintro ⟨hvalue, hfits⟩
    exact ⟨v, Option.filter_eq_some_iff.mpr ⟨hvalue, hfits⟩, toInt_ofInt_of_fits hfits⟩

/-- A token without a value is not read. -/
theorem read?_of_value? {token : List Byte} (h : ∀ v ∈ value? token, ¬fits v = true) :
    read? token = none := by
  rw [read?_eq, Option.map_eq_none_iff, Option.filter_eq_none_iff]
  exact h

/-- Zeros in front of digits are digits, which do not count. -/
theorem areDigits_zeros {r : Radix} {digits : List Byte} {values : List Nat}
    (h : AreDigits r digits values) (n : Nat) :
    AreDigits r (List.replicate n '0'.toUInt8 ++ digits) (List.replicate n 0 ++ values) := by
  have hzero : r.IsDigit '0'.toUInt8 0 := by
    cases r <;> decide
  induction n with
  | zero => exact h
  | succ n ih => exact .cons hzero ih

theorem ofDigits_zeros (base n : Nat) (values : List Nat) :
    Nat.ofDigits base (List.replicate n 0 ++ values).reverse =
      Nat.ofDigits base values.reverse := by
  rw [List.reverse_append, List.reverse_replicate, Nat.ofDigits_append_replicate_zero]

section Parts

variable {sign mark digits : List Byte} {factor : Int} {r : Radix} {values : List Nat}
  (hsign : Sign sign factor) (hmark : Radix.Mark mark r)

include hsign hmark

/-- **Leading zeros** make no difference. -/
theorem read?_zeros (hne : digits ≠ []) (hdigits : AreDigits r digits values) (n : Nat) :
    read? (sign ++ (mark ++ (List.replicate n '0'.toUInt8 ++ digits))) =
      read? (sign ++ (mark ++ digits)) := by
  have hne' : List.replicate n '0'.toUInt8 ++ digits ≠ [] := by
    rw [Ne, List.append_eq_nil_iff]
    exact fun h => hne h.2
  have hlong := Denotes.intro hsign hmark hne' (areDigits_zeros hdigits n)
  rw [ofDigits_zeros] at hlong
  rw [read?_eq, read?_eq, value?_eq_some_iff.mpr hlong,
    value?_eq_some_iff.mpr (.intro hsign hmark hne hdigits)]

/-- **Behind a mark** there have to be digits of its radix. The zero that it begins with is not
taken for a decimal digit. -/
theorem read?_of_mark (hr : r ≠ .decimal)
    (hrest : digits = [] ∨ ∀ values, ¬AreDigits r digits values) :
    read? (sign ++ (mark ++ digits)) = none := by
  have hhead : ∀ b ∈ (mark ++ digits).head?, b ≠ '-'.toUInt8 ∧ b ≠ '+'.toUInt8 := by
    cases hmark with
    | bare => exact absurd rfl hr
    | marked _ _ =>
      rintro b ⟨⟩
      decide
  refine read?_of_value? fun v hv => ?_
  rw [Option.mem_def, value?_of_parts (splitSign_append hsign fun _ => hhead)
    (splitRadix_marked hmark hr)] at hv
  obtain ⟨m, hm, -⟩ := Option.map_eq_some_iff.mp hv
  obtain ⟨hne, values, hvalues, -⟩ := magnitude?_eq_some_iff.mp hm
  rcases hrest with hempty | hbad
  · exact absurd hempty hne
  · exact absurd hvalues (hbad values)

end Parts

/-- **Behind a sign** there must not be another one. -/
theorem read?_of_two_signs {sign sign' rest : List Byte} {factor factor' : Int}
    (hsign : Sign sign factor) (hsign' : Sign sign' factor') (hne : sign ≠ []) (hne' : sign' ≠ []) :
    read? (sign ++ (sign' ++ rest)) = none := by
  refine read?_of_value? fun v hv => ?_
  have hsplit : splitSign (sign ++ (sign' ++ rest)) = (decide (factor = -1), sign' ++ rest) :=
    splitSign_append hsign fun he => absurd he hne
  rcases hradix : splitRadix (sign' ++ rest) with ⟨r, digits⟩
  rw [Option.mem_def, value?_of_parts hsplit hradix] at hv
  obtain ⟨m, hm, -⟩ := Option.map_eq_some_iff.mp hv
  obtain ⟨hdigits, values, hvalues, -⟩ := magnitude?_eq_some_iff.mp hm
  obtain ⟨mark, hmark, hrest⟩ := exists_mark hradix
  have hhead := ne_sign_of_digits hmark hvalues
  rw [← hrest] at hhead
  cases hsign' with
  | none => exact absurd rfl hne'
  | plus => exact absurd rfl (hhead _ rfl).2
  | minus => exact absurd rfl (hhead _ rfl).1

/-- **Numerals are read exactly.** A token is read as an integer if and only if it denotes this
integer, with whatever number of digits, and the integer fits into 64 bits with sign; the least
one of these is among them. So zeros in front of the digits make no difference; a token that has
the mark of a radix, but then no digits or others, is not read as if it had no mark; there is one
sign at most; an integer that does not fit is not read as another one; and no byte of a numeral is
part of a longer character. -/
theorem numerals_read_exactly :
    (∀ (token : List Byte) (v : Int), (read? token).map Int64.toInt = some v ↔
      Denotes token v ∧ -2 ^ 63 ≤ v ∧ v ≤ 2 ^ 63 - 1) ∧
    (∀ {sign mark digits : List Byte} {factor : Int} {r : Radix} {values : List Nat},
      Sign sign factor → Radix.Mark mark r → digits ≠ [] → AreDigits r digits values → ∀ n,
        read? (sign ++ (mark ++ (List.replicate n '0'.toUInt8 ++ digits))) =
          read? (sign ++ (mark ++ digits))) ∧
    (∀ {sign mark rest : List Byte} {factor : Int} {r : Radix},
      Sign sign factor → Radix.Mark mark r → r ≠ .decimal →
        (rest = [] ∨ ∀ values, ¬AreDigits r rest values) →
          read? (sign ++ (mark ++ rest)) = none) ∧
    (∀ {sign sign' rest : List Byte} {factor factor' : Int},
      Sign sign factor → Sign sign' factor' → sign ≠ [] → sign' ≠ [] →
        read? (sign ++ (sign' ++ rest)) = none) ∧
    (∀ {token : List Byte} {v : Int}, Denotes token v → ¬(-2 ^ 63 ≤ v ∧ v ≤ 2 ^ 63 - 1) →
      read? token = none) ∧
    (∀ {token : List Byte} {n : Int64}, read? token = some n → ∀ b ∈ token, b < 0x80) := by
  refine ⟨fun _ _ => map_toInt_read?_eq_some_iff, read?_zeros, read?_of_mark, read?_of_two_signs,
    fun {token v} hv hrange => ?_, lt_of_mem_of_read?⟩
  refine read?_of_value? fun w hw => ?_
  -- a token does not denote two integers
  have hvalue := value?_eq_some_iff.mpr hv
  rw [Option.mem_def, hvalue] at hw
  cases hw
  exact mt fits_iff.mp hrange

/-- The least integer of 64 bits is read, in spite of zeros in front of it, and the same digits
without the sign are not; nor are a mark by itself and two signs in a row. -/
theorem numerals_read_exactly_least :
    (read? (Text.bytes "-0x8000000000000000")).map Int64.toInt = some (-2 ^ 63) ∧
      read? (Text.bytes "-0x008000000000000000") = read? (Text.bytes "-0x8000000000000000") ∧
      read? (Text.bytes "0X8000000000000000") = none ∧ read? (Text.bytes "-0x") = none ∧
      read? (Text.bytes "-+1") = none ∧
      ∀ b ∈ Text.bytes "-0x8000000000000000", b < 0x80 := by
  obtain ⟨exact_, zeros, marked, signs, range, ascii⟩ := numerals_read_exactly
  have hmark : Radix.Mark ['0'.toUInt8, 'x'.toUInt8] .hexadecimal := .marked rfl (Or.inl rfl)
  have hupper : Radix.Mark ['0'.toUInt8, 'X'.toUInt8] .hexadecimal := .marked rfl (Or.inr rfl)
  have hdigits : AreDigits .hexadecimal (Text.bytes "8000000000000000")
      (8 :: List.replicate 15 0) := by decide +kernel
  have hleast : Denotes (Text.bytes "-0x8000000000000000") (-2 ^ 63) :=
    .intro .minus hmark (by decide) hdigits
  have hgreat : Denotes (Text.bytes "0X8000000000000000") (2 ^ 63) :=
    .intro .none hupper (by decide) hdigits
  have hempty : ([] : List Byte) = [] ∨ ∀ values, ¬AreDigits .hexadecimal [] values := Or.inl rfl
  have hread := (exact_ _ _).mpr ⟨hleast, by norm_num⟩
  obtain ⟨n, hn, -⟩ := Option.map_eq_some_iff.mp hread
  exact ⟨hread, zeros .minus hmark (by decide) hdigits 2, range hgreat (by norm_num),
    marked .minus hmark nofun hempty, signs .minus .plus nofun nofun, ascii hn⟩

end Numeral

end FormReader
