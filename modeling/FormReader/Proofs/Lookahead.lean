import FormReader.Forward
import FormReader.Proofs.Bytes
import FormReader.Proofs.Numerals
import Mathlib.Data.List.Basic

/-!
# The atom at the beginning

`FormReader.atomAhead?` decides by the first byte what sort of atom there is, if any. This
file ties it to the two other descriptions of atoms. It is the first success among one
function for each sort (`FormReader.atomAhead?_eq`), in an order that matters to tokens
alone; and what it answers are exactly the spellings of the grammar
(`FormReader.spelling_of_atomAhead?` and `FormReader.atomAhead?_of_spelling`), with the end
of a bare token told from what follows.
-/

namespace FormReader

/-! ### One function for each sort -/

/-- The number at the beginning of some bytes, if the token there is a numeral. -/
def numeralAhead? (bytes : List Byte) : Option (Atom × Nat) :=
  (Numeral.read? (tokenOf bytes)).map fun n => (.number n, (tokenOf bytes).length)

/-- What begins with a mark, from the bytes behind the mark. -/
def markedAhead? (mark : Byte) (ahead : List Byte → Option (Atom × Nat)) :
    List Byte → Option (Atom × Nat)
  | [] => none
  | b :: behind => if b = mark then ahead behind else none

/-- The symbol at the beginning of some bytes: any token that is a text and does not begin
with a mark. -/
def symbolAhead? (bytes : List Byte) : Option (Atom × Nat) :=
  if bytes.head? = some Byte.hash ∨ bytes.head? = some Byte.quote ∨ tokenOf bytes = [] then none
  else (Text.ofBytes? (tokenOf bytes)).map fun name => (.symbol name, (tokenOf bytes).length)

/-! ### Strings -/

/-- Without a closing quote there is no string. -/
theorem stringAhead?_of_notMem {bytes : List Byte} (h : Byte.quote ∉ bytes) :
    stringAhead? bytes = none := by
  have hall : bytes.takeWhile (· ≠ Byte.quote) = bytes :=
    List.takeWhile_eq_self_iff.mpr fun b hb => by
      simpa using fun he : b = Byte.quote => h (he ▸ hb)
  rw [stringAhead?, hall]
  exact if_neg (Nat.lt_irrefl _)

/-- A string ends with the next quote. -/
theorem stringAhead?_append {inside behind : List Byte} (h : Byte.quote ∉ inside) :
    stringAhead? (inside ++ Byte.quote :: behind) =
      (Text.ofBytes? inside).map fun s => (.string s, inside.length + 2) := by
  have hinside : (inside ++ Byte.quote :: behind).takeWhile (· ≠ Byte.quote) = inside := by
    refine takeWhile_run_append (fun b hb => ?_) fun b hb => ?_
    · simpa using fun he : b = Byte.quote => h (he ▸ hb)
    · cases hb
      simp
  rw [stringAhead?, hinside]
  exact if_pos (by simp)

/-! ### The sorts exclude each other -/

theorem read?_hash (bytes : List Byte) : Numeral.read? (Byte.hash :: bytes) = none :=
  Numeral.read?_cons_eq_none (by decide) (by decide) (by decide) (by decide)

theorem read?_quote (bytes : List Byte) : Numeral.read? (Byte.quote :: bytes) = none :=
  Numeral.read?_cons_eq_none (by decide) (by decide) (by decide) (by decide)

theorem tokenOf_cons {b : Byte} (h : Byte.isSeparator b = false) (bytes : List Byte) :
    tokenOf (b :: bytes) = b :: tokenOf bytes := by
  rw [tokenOf, List.takeWhile_cons_of_pos (by simp [h])]
  rfl

/-- **Ordered choice**: looking at the first byte comes to the same as trying one sort of
atom after another. -/
theorem atomAhead?_eq (bytes : List Byte) :
    atomAhead? bytes =
      (numeralAhead? bytes).or ((markedAhead? Byte.hash booleanAhead? bytes).or
        ((markedAhead? Byte.quote stringAhead? bytes).or (symbolAhead? bytes))) := by
  rcases bytes with _ | ⟨b, behind⟩
  · rfl
  by_cases hhash : b = Byte.hash
  · -- a hash sign: no other sort than booleans begins with one
    have hnumeral : numeralAhead? (b :: behind) = none := by
      rw [numeralAhead?, hhash, tokenOf_cons Byte.isSeparator_hash, read?_hash]
      rfl
    have hsymbol : symbolAhead? (b :: behind) = none := if_pos (Or.inl (congrArg some hhash))
    have hquote : b ≠ Byte.quote := by
      rw [hhash]
      decide
    rw [atomAhead?, if_pos hhash, hnumeral, markedAhead?, if_pos hhash, markedAhead?,
      if_neg hquote, hsymbol, Option.none_or, Option.none_or, Option.or_none]
  by_cases hquote : b = Byte.quote
  · -- a quote: no other sort than strings begins with one
    have hnumeral : numeralAhead? (b :: behind) = none := by
      rw [numeralAhead?, hquote, tokenOf_cons Byte.isSeparator_quote, read?_quote]
      rfl
    have hsymbol : symbolAhead? (b :: behind) = none :=
      if_pos (Or.inr (Or.inl (congrArg some hquote)))
    rw [atomAhead?, if_neg hhash, if_pos hquote, hnumeral, markedAhead?, if_neg hhash,
      markedAhead?, if_pos hquote, hsymbol, Option.none_or, Option.none_or, Option.or_none]
  · -- no mark: the token decides
    rw [atomAhead?, if_neg hhash, if_neg hquote, markedAhead?, if_neg hhash, markedAhead?,
      if_neg hquote, Option.none_or, Option.none_or]
    change (if (tokenOf (b :: behind)).isEmpty then none else
      (tokenAtom? (tokenOf (b :: behind))).map fun a => (a, (tokenOf (b :: behind)).length)) = _
    rw [numeralAhead?, symbolAhead?, tokenAtom?]
    generalize tokenOf (b :: behind) = token
    rcases token with _ | ⟨c, token⟩
    · simp [Numeral.read?_nil]
    · rcases Numeral.read? (c :: token) with _ | n
      · simp [hhash, hquote, Function.comp_def]
      · rfl

/-! ### Spellings -/

/-- A spelling begins with a byte that is not a separator. -/
theorem exists_cons_of_spelling {text : List Byte} {a : Atom} (h : Spelling text a) :
    ∃ b bytes, text = b :: bytes ∧ Byte.isSeparator b = false := by
  cases h with
  | @number _ n htoken hread =>
    rcases text with _ | ⟨b, bytes⟩
    · exact absurd hread nofun
    · exact ⟨b, bytes, rfl, htoken b (by simp)⟩
  | true => exact ⟨_, _, rfl, Byte.isSeparator_hash⟩
  | false => exact ⟨_, _, rfl, Byte.isSeparator_hash⟩
  | string _ => exact ⟨_, _, rfl, Byte.isSeparator_quote⟩
  | @symbol name hne htoken _ _ _ =>
    rcases hbytes : Text.bytes name with _ | ⟨b, bytes⟩
    · exact absurd (Text.bytes_eq_nil_iff.mp hbytes) hne
    · exact ⟨b, bytes, rfl, htoken b (by simp [hbytes])⟩

theorem endsToken_iff {behind : List Byte} :
    endsToken behind ↔ behind.head?.all Byte.isSeparator = true := by
  rw [Option.all_eq_true]
  exact Iff.rfl

theorem spelling_of_numeralAhead? {bytes : List Byte} {a : Atom} {n : Nat}
    (h : numeralAhead? bytes = some (a, n)) :
    n = (tokenOf bytes).length ∧ Spelling (tokenOf bytes) a := by
  obtain ⟨v, hread, hv⟩ := Option.map_eq_some_iff.mp h
  cases hv
  exact ⟨rfl, Spelling.number (isToken_tokenOf bytes) hread⟩

theorem spelling_of_booleanAhead? {bytes : List Byte} {a : Atom} {n : Nat}
    (h : booleanAhead? bytes = some (a, n)) :
    ∃ letter behind, bytes = letter :: behind ∧ n = 2 ∧ Spelling [Byte.hash, letter] a ∧
      endsToken behind := by
  rcases bytes with _ | ⟨letter, behind⟩
  · exact absurd h nofun
  rw [booleanAhead?] at h
  split at h
  · next hend =>
    rw [← endsToken_iff] at hend
    split at h
    · next ht =>
      cases h
      exact ⟨letter, behind, rfl, rfl, ht ▸ Spelling.true, hend⟩
    · split at h
      · next hf =>
        cases h
        exact ⟨letter, behind, rfl, rfl, hf ▸ Spelling.false, hend⟩
      · cases h
  · cases h

theorem spelling_of_stringAhead? {bytes : List Byte} {a : Atom} {n : Nat}
    (h : stringAhead? bytes = some (a, n)) :
    ∃ t behind, bytes = Text.bytes t ++ Byte.quote :: behind ∧ n = (Text.bytes t).length + 2 ∧
      a = .string t ∧ Byte.quote ∉ Text.bytes t := by
  by_cases hquote : Byte.quote ∈ bytes
  · obtain ⟨inside, behind, rfl, hfree⟩ := List.eq_append_cons_of_mem hquote
    rw [stringAhead?_append hfree] at h
    obtain ⟨t, ht, hv⟩ := Option.map_eq_some_iff.mp h
    obtain rfl := Text.bytes_of_ofBytes? ht
    cases hv
    exact ⟨t, behind, rfl, rfl, rfl, hfree⟩
  · rw [stringAhead?_of_notMem hquote] at h
    exact absurd h nofun

/-- A token that is no numeral is a symbol where one is found. -/
theorem spelling_of_symbolAhead? {bytes : List Byte} {a : Atom} {n : Nat}
    (h : symbolAhead? bytes = some (a, n)) (hnumeral : numeralAhead? bytes = none) :
    n = (tokenOf bytes).length ∧ Spelling (tokenOf bytes) a := by
  rw [symbolAhead?] at h
  split at h
  · exact absurd h nofun
  · next hmarks =>
    rw [not_or, not_or] at hmarks
    obtain ⟨hhash, hquote, hne⟩ := hmarks
    obtain ⟨name, hname, hv⟩ := Option.map_eq_some_iff.mp h
    cases hv
    have hread : Numeral.read? (tokenOf bytes) = none := Option.map_eq_none_iff.mp hnumeral
    -- the token begins with the first byte of all
    have hhead : (tokenOf bytes).head? = bytes.head? := by
      obtain ⟨behind, hbytes, -⟩ := exists_behind_tokenOf bytes
      have happend : (tokenOf bytes ++ behind).head? = (tokenOf bytes).head? :=
        List.head?_append_of_ne_nil _ hne
      rw [← hbytes] at happend
      exact happend.symm
    have htoken := isToken_tokenOf bytes
    rw [← hhead] at hhash hquote
    rw [← Text.bytes_of_ofBytes? hname] at hread hhash hquote hne htoken ⊢
    exact ⟨rfl, Spelling.symbol (fun he => hne (Text.bytes_eq_nil_iff.mpr he)) htoken hhash hquote
      hread⟩

theorem exists_of_markedAhead? {mark : Byte} {ahead : List Byte → Option (Atom × Nat)}
    {bytes : List Byte} {found : Atom × Nat} (h : markedAhead? mark ahead bytes = some found) :
    ∃ behind, bytes = mark :: behind ∧ ahead behind = some found := by
  rcases bytes with _ | ⟨b, behind⟩
  · cases h
  · rw [markedAhead?] at h
    split at h
    · next hb => exact ⟨behind, by rw [hb], h⟩
    · cases h

theorem markedAhead?_of_head?_ne {mark : Byte} (ahead : List Byte → Option (Atom × Nat))
    {bytes : List Byte} (h : bytes.head? ≠ some mark) : markedAhead? mark ahead bytes = none := by
  rcases bytes with _ | ⟨b, behind⟩
  · rfl
  · exact if_neg fun hb => h (congrArg some hb)

/-- **What is found is spelled there**, and a bare token ends where it is taken to end. -/
theorem spelling_of_atomAhead? {bytes : List Byte} {a : Atom} {n : Nat}
    (h : atomAhead? bytes = some (a, n)) :
    ∃ text behind, bytes = text ++ behind ∧ n = text.length ∧ Spelling text a ∧
      (a.isBare → endsToken behind) := by
  rw [atomAhead?_eq] at h
  obtain ⟨behind, hbytes, hend⟩ := exists_behind_tokenOf bytes
  rcases Option.or_eq_some_iff.mp h with hfound | ⟨hnumeral, h⟩
  · obtain ⟨hn, hspelling⟩ := spelling_of_numeralAhead? hfound
    exact ⟨tokenOf bytes, behind, hbytes, hn, hspelling, fun _ => hend⟩
  rcases Option.or_eq_some_iff.mp h with hfound | ⟨-, h⟩
  · obtain ⟨bytes', rfl, hfound⟩ := exists_of_markedAhead? hfound
    obtain ⟨letter, behind', rfl, rfl, hspelling, hend'⟩ := spelling_of_booleanAhead? hfound
    exact ⟨_, behind', rfl, rfl, hspelling, fun _ => hend'⟩
  rcases Option.or_eq_some_iff.mp h with hfound | ⟨-, hfound⟩
  · obtain ⟨bytes', rfl, hfound⟩ := exists_of_markedAhead? hfound
    obtain ⟨t, behind', rfl, rfl, rfl, hfree⟩ := spelling_of_stringAhead? hfound
    exact ⟨_, behind', by simp, by simp, Spelling.string hfree, False.elim⟩
  · obtain ⟨hn, hspelling⟩ := spelling_of_symbolAhead? hfound hnumeral
    exact ⟨tokenOf bytes, behind, hbytes, hn, hspelling, fun _ => hend⟩

/-- **What is spelled is found**, whatever comes behind it. -/
theorem atomAhead?_of_spelling {text behind : List Byte} {a : Atom} (h : Spelling text a)
    (hend : a.isBare → endsToken behind) :
    atomAhead? (text ++ behind) = some (a, text.length) := by
  cases h with
  | @number _ n htoken hread =>
    have hnumeral : numeralAhead? (text ++ behind) = some (.number n, text.length) := by
      rw [numeralAhead?, tokenOf_append htoken (hend trivial), hread]
      rfl
    rw [atomAhead?_eq, hnumeral, Option.some_or]
  | true =>
    rw [List.cons_append, List.singleton_append, atomAhead?, if_pos rfl, booleanAhead?,
      if_pos (endsToken_iff.mp (hend trivial))]
    rfl
  | false =>
    rw [List.cons_append, List.singleton_append, atomAhead?, if_pos rfl, booleanAhead?,
      if_pos (endsToken_iff.mp (hend trivial))]
    rfl
  | @string t hfree =>
    have hsplit : Byte.quote :: Text.bytes t ++ [Byte.quote] ++ behind =
        Byte.quote :: (Text.bytes t ++ Byte.quote :: behind) := by simp
    rw [hsplit, atomAhead?, if_neg (by decide), if_pos rfl, stringAhead?_append hfree,
      Text.ofBytes?_bytes]
    simp
  | @symbol name hne htoken hhash hquote hread =>
    have hne' : Text.bytes name ≠ [] := fun he => hne (Text.bytes_eq_nil_iff.mp he)
    have hhead : (Text.bytes name ++ behind).head? = (Text.bytes name).head? :=
      List.head?_append_of_ne_nil _ hne'
    have htokenOf := tokenOf_append htoken (hend trivial)
    have hnumeral : numeralAhead? (Text.bytes name ++ behind) = none := by
      rw [numeralAhead?, htokenOf, hread]
      rfl
    have hboolean := markedAhead?_of_head?_ne booleanAhead? (hhead ▸ hhash)
    have hstring := markedAhead?_of_head?_ne stringAhead? (hhead ▸ hquote)
    rw [atomAhead?_eq, hnumeral, hboolean, hstring, Option.none_or, Option.none_or,
      Option.none_or, symbolAhead?, hhead, htokenOf, if_neg (by simp [hhash, hquote, hne']),
      Text.ofBytes?_bytes]
    rfl

end FormReader
