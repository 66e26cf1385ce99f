import FormReader.Numeral
import FormReader.Text

/-!
# Numerals, written and read

A numeral is read by taking its sign off, then its radix mark, and adding up the digits that
are left. They are added up in 64 bits, and this is as if there were no bound, since what has been
added up only grows and a number that is too large on the way is too large in the end
(`FormReader.Numeral.read?_eq`). The text of a number is read back as this number
(`FormReader.Numeral.read?_bytes_text`), which is an induction on the digits: all but the
last are the text of the tenth part.
-/

namespace FormReader

namespace Numeral

/-! ### Reading in parts -/

/-- The value of a token, from its sign, its radix and its digits. -/
theorem value?_of_parts {token unsigned digits : List Byte} {negative : Bool} {radix : Radix}
    (hsign : splitSign token = (negative, unsigned))
    (hradix : splitRadix unsigned = (radix, digits)) :
    value? token = (magnitude? radix digits).map (signed negative) := by
  rw [value?, hsign]
  dsimp only
  rw [hradix]

/-! ### In 64 bits -/

/-- One more digit never makes a number smaller. -/
theorem le_of_appendDigit {radix : Radix} {value next : Nat} {b : Byte}
    (h : appendDigit radix value b = some next) : value ≤ next := by
  obtain ⟨d, -, rfl⟩ := Option.map_eq_some_iff.mp h
  have hbase : 0 < radix.base := by cases radix <;> decide
  exact Nat.le_trans (Nat.le_mul_of_pos_right value hbase) (Nat.le_add_right _ _)

theorem le_of_foldlM_appendDigit {radix : Radix} {digits : List Byte} {value m : Nat}
    (h : digits.foldlM (appendDigit radix) value = some m) : value ≤ m := by
  induction digits generalizing value with
  | nil =>
    cases h
    exact Nat.le_refl _
  | cons b digits ih =>
    rw [List.foldlM_cons] at h
    obtain ⟨next, hnext, hdigits⟩ := Option.bind_eq_some_iff.mp h
    exact Nat.le_trans (le_of_appendDigit hnext) (ih hdigits)

/-- **Adding up in 64 bits** gives up on the numbers that are too large, and on no others. -/
theorem foldlM_appendDigit64 (radix : Radix) (digits : List Byte) (value : UInt64) :
    (digits.foldlM (appendDigit64 radix) value).map UInt64.toNat =
      (digits.foldlM (appendDigit radix) value.toNat).filter (· < UInt64.size) := by
  induction digits generalizing value with
  | nil =>
    rw [List.foldlM_nil, List.foldlM_nil]
    simp [Option.filter_some, value.toNat_lt_size]
  | cons b digits ih =>
    rw [List.foldlM_cons, List.foldlM_cons, appendDigit64]
    rcases hnext : appendDigit radix value.toNat b with _ | next
    · rfl
    by_cases hsize : next < UInt64.size
    · have hword : (UInt64.ofNat next).toNat = next := UInt64.toNat_ofNat_of_lt hsize
      rw [Option.filter_some, if_pos (decide_eq_true hsize)]
      exact (ih (UInt64.ofNat next)).trans (by rw [hword]; rfl)
    · -- what follows is no smaller
      rw [Option.filter_some, if_neg (by simpa using hsize)]
      refine (Option.filter_eq_none_iff.mpr fun m hm => ?_).symm
      have hle : next ≤ m := le_of_foldlM_appendDigit hm
      rw [decide_eq_true_eq]
      omega

theorem map_toNat_magnitude64? (radix : Radix) (digits : List Byte) :
    (magnitude64? radix digits).map UInt64.toNat =
      (magnitude? radix digits).filter (· < UInt64.size) := by
  rw [magnitude64?, magnitude?]
  split
  · rfl
  · exact foldlM_appendDigit64 radix digits 0

/-- What fits with a sign fits without one. -/
theorem lt_size_of_fits {negative : Bool} {m : Nat} (h : fits (signed negative m) = true) :
    m < UInt64.size := by
  simp only [fits, signed, Int64.toInt_minValue, Int64.toInt_maxValue, Bool.and_eq_true,
    decide_eq_true_eq] at h
  rw [UInt64.size]
  split at h <;> omega

/-- **The width of 64 bits** decides nothing: what is read is the value of the token, if it fits
with its sign. -/
theorem read?_eq (token : List Byte) :
    read? token = ((value? token).filter fits).map Int64.ofInt := by
  rcases hsign : splitSign token with ⟨negative, unsigned⟩
  rcases hradix : splitRadix unsigned with ⟨radix, digits⟩
  have hread : read? token =
      ((((magnitude? radix digits).filter (· < UInt64.size)).map (signed negative)).filter
        fits).map Int64.ofInt := by
    rw [← map_toNat_magnitude64?, Option.map_map, read?, hsign]
    dsimp only
    rw [hradix]
    rfl
  rw [hread, value?_of_parts hsign hradix]
  rcases magnitude? radix digits with _ | m
  · rfl
  by_cases hsize : m < UInt64.size
  · rw [Option.filter_some, if_pos (decide_eq_true hsize)]
  · have hfits : ¬fits (signed negative m) = true := fun h => hsize (lt_size_of_fits h)
    rw [Option.filter_some, if_neg (by simpa using hsize), Option.map_some, Option.filter_some,
      if_neg hfits]
    rfl

/-! ### What is no numeral -/

theorem read?_nil : read? [] = none := by decide

/-- A token that begins with neither a sign nor a digit is no numeral. -/
theorem read?_cons_eq_none {b : Byte} {bytes : List Byte} (hminus : b ≠ '-'.toUInt8)
    (hplus : b ≠ '+'.toUInt8) (hzero : b ≠ '0'.toUInt8)
    (hdigit : Radix.decimal.digit? b = none) : read? (b :: bytes) = none := by
  have hsign : splitSign (b :: bytes) = (false, b :: bytes) := by
    rw [splitSign, if_neg hminus, if_neg hplus]
  have hradix : splitRadix (b :: bytes) = (.decimal, b :: bytes) := by
    cases bytes with
    | nil => rfl
    | cons c bytes => rw [splitRadix, if_neg hzero]
  have hmagnitude : magnitude? .decimal (b :: bytes) = none := by
    rw [magnitude?, List.foldlM_cons, appendDigit, hdigit]
    rfl
  rw [read?_eq, value?_of_parts hsign hradix, hmagnitude]
  rfl

/-! ### Decimal digits -/

/-- The byte of a decimal digit. -/
def digitByte (d : Nat) : Byte := UInt8.ofNat (48 + d)

/-- What the reading of numerals asks of a byte, answered for the decimal digits. -/
theorem digitByte_spec : ∀ d < 10, Radix.decimal.digit? (digitByte d) = some d ∧
    Radix.ofMark? (digitByte d) = none ∧ digitByte d ≠ '-'.toUInt8 ∧ digitByte d ≠ '+'.toUInt8 ∧
    Byte.isSeparator (digitByte d) = false := by
  decide

theorem bytes_digitChar :
    ∀ d < 10, Text.bytes (String.ofList [Nat.digitChar d]) = [digitByte d] := by
  decide

theorem bytes_repr_of_lt {m : Nat} (h : m < 10) : Text.bytes m.repr = [digitByte m] := by
  rw [Nat.repr_eq_ofList_toDigits, Nat.toDigits_of_lt_base h, bytes_digitChar m h]

/-- The last digit stands behind the digits of the tenth part. -/
theorem bytes_repr_of_le {m : Nat} (h : 10 ≤ m) :
    Text.bytes m.repr = Text.bytes (m / 10).repr ++ [digitByte (m % 10)] := by
  rw [Nat.repr_eq_ofList_toDigits, Nat.toDigits_of_base_le (by decide) h, String.ofList_append,
    Text.bytes_append, ← Nat.repr_eq_ofList_toDigits,
    bytes_digitChar (m % 10) (Nat.mod_lt m (by decide))]

theorem exists_digit_of_mem_bytes_repr (m : Nat) :
    ∀ b ∈ Text.bytes m.repr, ∃ d < 10, b = digitByte d := by
  induction m using Nat.strongRecOn with
  | _ m ih =>
    intro b hb
    by_cases hm : m < 10
    · rw [bytes_repr_of_lt hm, List.mem_singleton] at hb
      exact ⟨m, hm, hb⟩
    · rw [bytes_repr_of_le (by omega), List.mem_append, List.mem_singleton] at hb
      rcases hb with hb | rfl
      · exact ih (m / 10) (by omega) b hb
      · exact ⟨m % 10, Nat.mod_lt m (by decide), rfl⟩

theorem bytes_repr_ne_nil (m : Nat) : Text.bytes m.repr ≠ [] := by
  rw [Ne, Text.bytes_eq_nil_iff]
  exact Nat.repr_ne_empty

/-- **The digits of a number add up to it.** -/
theorem magnitude?_bytes_repr (m : Nat) : magnitude? .decimal (Text.bytes m.repr) = some m := by
  rw [magnitude?, if_neg (by simpa using bytes_repr_ne_nil m)]
  -- one digit less is the tenth part and not the predecessor, hence the strong induction
  induction m using Nat.strongRecOn with
  | _ m ih =>
    by_cases hm : m < 10
    · have hdigit := (digitByte_spec m hm).1
      rw [bytes_repr_of_lt hm, List.foldlM_cons, appendDigit, hdigit]
      simp
    · have hdigit := (digitByte_spec (m % 10) (Nat.mod_lt m (by decide))).1
      rw [bytes_repr_of_le (by omega), List.foldlM_append, ih (m / 10) (by omega)]
      simp only [Option.bind_eq_bind, Option.bind_some, List.foldlM_cons, List.foldlM_nil,
        appendDigit, hdigit, Option.map_some, Option.pure_def, Radix.base]
      rw [Nat.div_add_mod']

/-! ### The text of a number -/

theorem splitRadix_bytes_repr (m : Nat) :
    splitRadix (Text.bytes m.repr) = (.decimal, Text.bytes m.repr) := by
  have hdigits := exists_digit_of_mem_bytes_repr m
  generalize Text.bytes m.repr = bytes at hdigits ⊢
  rcases bytes with _ | ⟨b, _ | ⟨mark, bytes⟩⟩
  · rfl
  · rfl
  · -- the mark of a radix would be the second byte, but that is a digit
    obtain ⟨d, hd, rfl⟩ := hdigits mark (by simp)
    rw [splitRadix, (digitByte_spec d hd).2.1]
    split <;> rfl

theorem splitSign_bytes_repr (m : Nat) :
    splitSign (Text.bytes m.repr) = (false, Text.bytes m.repr) := by
  have hdigits := exists_digit_of_mem_bytes_repr m
  generalize Text.bytes m.repr = bytes at hdigits ⊢
  rcases bytes with _ | ⟨b, bytes⟩
  · rfl
  · obtain ⟨d, hd, rfl⟩ := hdigits b (by simp)
    obtain ⟨-, -, hminus, hplus, -⟩ := digitByte_spec d hd
    rw [splitSign, if_neg hminus, if_neg hplus]

theorem value?_bytes_text (n : Int64) : value? (Text.bytes (text n)) = some n.toInt := by
  rw [text]
  by_cases hn : n.toInt < 0
  · have hsign : splitSign (Text.bytes ("-" ++ n.toInt.natAbs.repr)) =
        (true, Text.bytes n.toInt.natAbs.repr) := by
      rw [Text.bytes_append]
      rfl
    rw [if_pos hn, value?_of_parts hsign (splitRadix_bytes_repr _), magnitude?_bytes_repr,
      Option.map_some, signed, if_pos rfl]
    congr 1
    omega
  · rw [if_neg hn, value?_of_parts (splitSign_bytes_repr _) (splitRadix_bytes_repr _),
      magnitude?_bytes_repr, Option.map_some, signed, if_neg Bool.false_ne_true]
    congr 1
    omega

/-- **A number is read back from its text**, the least and the greatest included. -/
theorem read?_bytes_text (n : Int64) : read? (Text.bytes (text n)) = some n := by
  have hfits : fits n.toInt = true := by
    simp only [fits, Bool.and_eq_true, decide_eq_true_eq]
    exact ⟨n.minValue_le_toInt, n.toInt_le⟩
  rw [read?_eq, value?_bytes_text, Option.filter_some, if_pos hfits, Option.map_some,
    Int64.ofInt_toInt]

/-- The text of a number is a token. -/
theorem isSeparator_of_mem_bytes_text (n : Int64) :
    ∀ b ∈ Text.bytes (text n), Byte.isSeparator b = false := by
  have hdigits : ∀ b ∈ Text.bytes n.toInt.natAbs.repr, Byte.isSeparator b = false := by
    intro b hb
    obtain ⟨d, hd, rfl⟩ := exists_digit_of_mem_bytes_repr _ b hb
    exact (digitByte_spec d hd).2.2.2.2
  intro b hb
  rw [text] at hb
  split at hb
  · rw [Text.bytes_append, List.mem_append] at hb
    rcases hb with hb | hb
    · obtain rfl : b = '-'.toUInt8 := List.mem_singleton.mp hb
      decide
    · exact hdigits b hb
  · exact hdigits b hb

/-! ### The bytes of a numeral -/

theorem lt_of_digitValue? {b : Byte} {d : Nat} (h : Radix.digitValue? b = some d) : b < 0x80 := by
  rw [UInt8.lt_iff_toNat_lt]
  simp only [Radix.digitValue?, Bool.and_eq_true, decide_eq_true_eq, UInt8.le_iff_toNat_le] at h
  split at h
  · next hb => exact Nat.lt_of_le_of_lt hb.2 (by decide)
  · split at h
    · next hb => exact Nat.lt_of_le_of_lt hb.2 (by decide)
    · split at h
      · next hb => exact Nat.lt_of_le_of_lt hb.2 (by decide)
      · cases h

theorem lt_of_ofMark? {b : Byte} {radix : Radix} (h : Radix.ofMark? b = some radix) :
    b < 0x80 := by
  simp only [Radix.ofMark?, Bool.or_eq_true, decide_eq_true_eq] at h
  split at h
  · next hb => rcases hb with rfl | rfl <;> decide
  · split at h
    · next hb => rcases hb with rfl | rfl <;> decide
    · split at h
      · next hb => rcases hb with rfl | rfl <;> decide
      · cases h

/-- What denotes a number consists of digits. -/
theorem lt_of_mem_of_foldlM {radix : Radix} {digits : List Byte} {value m : Nat}
    (h : digits.foldlM (appendDigit radix) value = some m) : ∀ b ∈ digits, b < 0x80 := by
  induction digits generalizing value with
  | nil => exact nofun
  | cons b digits ih =>
    rw [List.foldlM_cons] at h
    obtain ⟨value', hb, hdigits⟩ := Option.bind_eq_some_iff.mp h
    obtain ⟨d, hd, -⟩ := Option.map_eq_some_iff.mp hb
    obtain ⟨hd, -⟩ := Option.filter_eq_some_iff.mp hd
    exact List.forall_mem_cons.mpr ⟨lt_of_digitValue? hd, ih hdigits⟩

theorem lt_of_mem_of_magnitude? {radix : Radix} {digits : List Byte} {m : Nat}
    (h : magnitude? radix digits = some m) : ∀ b ∈ digits, b < 0x80 := by
  rw [magnitude?] at h
  split at h
  · cases h
  · exact lt_of_mem_of_foldlM h

/-- A radix mark is below 128, and so is the zero before it. -/
theorem lt_of_mem_of_splitRadix {bytes : List Byte} (h : ∀ b ∈ (splitRadix bytes).2, b < 0x80) :
    ∀ b ∈ bytes, b < 0x80 := by
  match bytes with
  | [] => exact nofun
  | [_] => exact h
  | zero :: mark :: rest =>
    rw [splitRadix] at h
    split at h
    · next hzero =>
      rcases hradix : Radix.ofMark? mark with _ | radix
      · rw [hradix] at h
        exact h
      · rw [hradix] at h
        exact List.forall_mem_cons.mpr
          ⟨hzero ▸ by decide, List.forall_mem_cons.mpr ⟨lt_of_ofMark? hradix, h⟩⟩
    · exact h

/-- A sign is below 128. -/
theorem lt_of_mem_of_splitSign {token : List Byte} (h : ∀ b ∈ (splitSign token).2, b < 0x80) :
    ∀ b ∈ token, b < 0x80 := by
  match token with
  | [] => exact nofun
  | b :: rest =>
    rw [splitSign] at h
    split at h
    · next hminus => exact List.forall_mem_cons.mpr ⟨hminus ▸ by decide, h⟩
    · split at h
      · next hplus => exact List.forall_mem_cons.mpr ⟨hplus ▸ by decide, h⟩
      · exact h

/-- **A numeral** consists of bytes below 128. -/
theorem lt_of_mem_of_read? {token : List Byte} {n : Int64} (h : read? token = some n) :
    ∀ b ∈ token, b < 0x80 := by
  rw [read?_eq] at h
  obtain ⟨v, hv, -⟩ := Option.map_eq_some_iff.mp h
  obtain ⟨hv, -⟩ := Option.filter_eq_some_iff.mp hv
  obtain ⟨m, hm, -⟩ := Option.map_eq_some_iff.mp hv
  exact lt_of_mem_of_splitSign (lt_of_mem_of_splitRadix (lt_of_mem_of_magnitude? hm))

end Numeral

end FormReader
