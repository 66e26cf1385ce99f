import FormReader.Proofs.Lookahead
import FormReader.Proofs.Rules
import FormReader.Reader.Form

/-!
# Atoms are found by looking ahead

The four rules for atoms make their moves one after another and may give up after any of
them. What they find nevertheless depends on nothing but the bytes behind the blanks, and
for each rule there is a plain function of these bytes that says what it finds and how many
bytes it takes (`FormReader.Reader.Scans`). Trying the four rules in their order comes to
`FormReader.atomAhead?` (`FormReader.Reader.scans_atom`), which looks at the first byte and
never tries twice: a token that begins with a hash sign or a quote is no numeral, so the
order of the rules matters to tokens alone.

Nothing is assumed of the arena. A limited arena may end a rule early, but what the rule
finds when it does not is the same.
-/

namespace FormReader

/-! ### Moves over known bytes -/

namespace Cursor

/-- Pass over blanks, also where nothing is behind them. -/
def skipBlanks (c : Cursor) : Cursor :=
  c.advance (c.rest.takeWhile Byte.isBlank).length

@[simp] theorem rest_skipBlanks (c : Cursor) : c.skipBlanks.rest = behindBlanks c.rest :=
  rest_advance_of_append List.takeWhile_append_dropWhile.symm

theorem skipWhile?_isBlank (c : Cursor) :
    c.skipWhile? Byte.isBlank = if behindBlanks c.rest = [] then none else some c.skipBlanks := by
  rcases hrest : behindBlanks c.rest with _ | ⟨b, behind⟩
  · rw [if_pos rfl, skipWhile?, skipUntil?_eq_none_iff]
    intro b hb
    rw [behindBlanks_eq_nil_iff.mp hrest b hb, Bool.not_true]
  · rw [if_neg (List.cons_ne_nil b behind), skipWhile?, skipUntil?_eq_some_iff]
    refine ⟨c.rest.takeWhile Byte.isBlank, b, behind, ?_, ?_, ?_, rfl⟩
    · rw [← hrest]
      exact List.takeWhile_append_dropWhile.symm
    · intro x hx
      rw [List.mem_takeWhile_imp hx, Bool.not_true]
    · rw [isBlank_of_behindBlanks hrest, Bool.not_false]

/-- A single byte is passed when it is the next one. -/
theorem literal?_singleton (c : Cursor) (x : Byte) :
    c.literal? [x] = if c.rest.head? = some x then some (c.advance 1) else none := by
  rcases hrest : c.rest with _ | ⟨b, behind⟩
  · rw [if_neg (by simp), literal?, if_neg (by simp [hrest])]
  · by_cases hb : b = x
    · rw [if_pos (by simp [hb]), literal?, if_pos (by simp [hrest, hb])]
      rfl
    · rw [if_neg (by simp [hb]), literal?, if_neg (by simp [hrest, Ne.symm hb])]

theorem token?_of_ne_nil {c : Cursor} (h : c.rest ≠ []) :
    c.token? = some (tokenOf c.rest, c.advance (tokenOf c.rest).length) :=
  token?_eq_some_iff.mpr ⟨pos_le_of_rest_ne_nil h, rfl, rfl⟩

end Cursor

/-! ### The rules for them -/

namespace Reader

variable {α : Type}

/-- A reader that has passed over blanks. -/
def skipBlanks (s : Reader) : Reader := { s with cursor := s.cursor.skipBlanks }

@[simp] theorem rest_skipBlanks (s : Reader) :
    s.skipBlanks.cursor.rest = behindBlanks s.cursor.rest := s.cursor.rest_skipBlanks

/-- What lies ahead once the first byte behind the blanks has been passed. -/
theorem rest_past_first {s : Reader} {b : Byte} {behind : List Byte}
    (h : behindBlanks s.cursor.rest = b :: behind) :
    (s.skipBlanks.cursor.advance 1).rest = behind := by
  rw [Cursor.rest_advance, rest_skipBlanks, h]
  rfl

/-- **Scanning**: what a rule finds behind the blanks, and how many bytes it takes, is what
a function of the bytes there says. Where the function has nothing the rule does not match,
and the only other way for it to fail is for want of memory. -/
def Scans (rule : ReadM α) (sort : α → Atom) (ahead : List Byte → Option (Atom × Nat)) : Prop :=
  ∀ s, Ends rule s
    (fun a s' => ∃ n, ahead (behindBlanks s.cursor.rest) = some (sort a, n) ∧
      s'.cursor = s.skipBlanks.cursor.advance n)
    (fun f _ => (∃ e, f = .exhausted e) ∨
      f = .noMatch ∧ ahead (behindBlanks s.cursor.rest) = none)

theorem ends_blanks {s : Reader} {good : Unit → Reader → Prop} {bad : Failure → Reader → Prop} :
    Ends blanks s good bad ↔
      if behindBlanks s.cursor.rest = [] then bad .noMatch s else good () s.skipBlanks := by
  rw [blanks, ends_scan, Cursor.skipWhile?_isBlank]
  by_cases hrest : behindBlanks s.cursor.rest = []
  · simp only [if_pos hrest]
  · simp only [if_neg hrest, skipBlanks]

/-- A rule that passes over blanks first scans when the rest of it does, standing before
the first byte that is not blank. -/
theorem Scans.of_blanks {body : ReadM α} {sort : α → Atom}
    {ahead : List Byte → Option (Atom × Nat)} (hnil : ahead [] = none)
    (hbody : ∀ s b behind, s.cursor.rest = b :: behind →
      Ends body s
        (fun a s' => ∃ n, ahead (b :: behind) = some (sort a, n) ∧ s'.cursor = s.cursor.advance n)
        (fun f _ => (∃ e, f = .exhausted e) ∨ f = .noMatch ∧ ahead (b :: behind) = none)) :
    Scans (blanks >>= fun _ => body) sort ahead := by
  intro s
  rw [ends_bind, ends_blanks]
  rcases hrest : behindBlanks s.cursor.rest with _ | ⟨b, behind⟩
  · rw [if_pos rfl]
    exact Or.inr ⟨rfl, hnil⟩
  · rw [if_neg (List.cons_ne_nil b behind)]
    exact hbody s.skipBlanks b behind (s.rest_skipBlanks.trans hrest)

/-- The same for a rule that goes past a mark next. The rest of it stands behind the
mark, and the bytes it takes are counted from the mark on. -/
theorem Scans.of_mark {mark : Byte} {body : ReadM α} {sort : α → Atom}
    {ahead : List Byte → Option (Atom × Nat)}
    (hbody : ∀ (s : Reader) (c : Cursor) (behind : List Byte), c.rest = mark :: behind →
      s.cursor = c.advance 1 →
      Ends body s
        (fun a s' => ∃ n, ahead behind = some (sort a, n) ∧ s'.cursor = c.advance n)
        (fun f _ => (∃ e, f = .exhausted e) ∨ f = .noMatch ∧ ahead behind = none)) :
    Scans (do blanks; scan (·.literal? [mark]); body) sort (markedAhead? mark ahead) := by
  refine Scans.of_blanks rfl fun s b behind hrest => ?_
  rw [ends_bind, ends_scan, Cursor.literal?_singleton, hrest, List.head?_cons, markedAhead?]
  by_cases hb : b = mark
  · simp only [hb, if_true]
    exact hbody { s with cursor := s.cursor.advance 1 } s.cursor behind (hb ▸ hrest) rfl
  · simp [hb]

/-- The text of some bytes is found where they are the bytes of one. -/
theorem ends_text (bytes : List Byte) (s : Reader) :
    Ends (text bytes) s
      (fun t s' => Text.ofBytes? bytes = some t ∧ s'.cursor = s.cursor)
      (fun f _ => (∃ e, f = .exhausted e) ∨ f = .noMatch ∧ Text.ofBytes? bytes = none) := by
  rw [text, ends_bind, ends_found]
  rcases Text.ofBytes? bytes with _ | t
  · exact Or.inr ⟨rfl, rfl⟩
  · refine (ends_ask_of_gives (Arena.gives_copyText t) s).imp (fun t' s' h => ?_) fun f s' h => ?_
    · exact ⟨congrArg some h.1.symm, h.2.1⟩
    · exact Or.inl h.1

theorem scans_number : Scans number .number numeralAhead? := by
  refine Scans.of_blanks rfl fun s b behind hrest => ?_
  have hne : s.cursor.rest ≠ [] := by
    rw [hrest]
    exact List.cons_ne_nil b behind
  rw [ends_bind, ends_token, Cursor.token?_of_ne_nil hne, hrest]
  dsimp only
  rw [ends_found]
  rcases hread : Numeral.read? (tokenOf (b :: behind)) with _ | n
  · exact Or.inr ⟨rfl, by rw [numeralAhead?, hread]; rfl⟩
  · exact ⟨_, by rw [numeralAhead?, hread]; rfl, rfl⟩

theorem scans_boolean : Scans boolean .boolean (markedAhead? Byte.hash booleanAhead?) := by
  refine Scans.of_mark fun s c behind hrest hs => ?_
  have hrest₁ : s.cursor.rest = behind := by
    rw [hs, Cursor.rest_advance, hrest]
    rfl
  -- what is left to do once the letter has been passed
  have hend : ∀ (value : Bool) (letter : Byte) (behind' : List Byte),
      behind = letter :: behind' →
      booleanAhead? behind =
        (if behind'.head?.all Byte.isSeparator then some (.boolean value, 2) else none) →
      Ends (do if (← get).cursor.atBoundary then return value else throw .noMatch)
        { s with cursor := s.cursor.advance 1 }
        (fun a s' => ∃ n, booleanAhead? behind = some (.boolean a, n) ∧ s'.cursor = c.advance n)
        (fun f _ => (∃ e, f = .exhausted e) ∨ f = .noMatch ∧ booleanAhead? behind = none) := by
    intro value letter behind' hbehind hahead
    have hrest₂ : (s.cursor.advance 1).rest = behind' := by
      rw [Cursor.rest_advance, hrest₁, hbehind]
      rfl
    rw [ends_bind, ends_get, Cursor.atBoundary, Cursor.peek?, hrest₂, hahead]
    by_cases hboundary : behind'.head?.all Byte.isSeparator = true
    · simp only [if_pos hboundary]
      refine ⟨2, rfl, ?_⟩
      rw [hs, Cursor.advance_advance]
    · simp [hboundary]
  rw [ends_bind, ends_scanned, Cursor.literal?_singleton, hrest₁]
  rcases behind with _ | ⟨letter, behind'⟩
  · simp [Cursor.literal?_singleton, hrest₁, booleanAhead?]
  by_cases ht : letter = 't'.toUInt8
  · simp only [List.head?_cons, Option.some.injEq, if_pos ht]
    refine hend true letter behind' rfl ?_
    simp [booleanAhead?, ht]
  simp only [List.head?_cons, Option.some.injEq, if_neg ht, Bool.false_eq_true, if_false]
  rw [ends_bind, ends_scan, Cursor.literal?_singleton, hrest₁]
  by_cases hf : letter = 'f'.toUInt8
  · simp only [List.head?_cons, Option.some.injEq, if_pos hf]
    refine hend false letter behind' rfl ?_
    rw [booleanAhead?, if_neg ht, if_pos hf]
  · simp [booleanAhead?, ht, hf]

theorem scans_string : Scans string .string (markedAhead? Byte.quote stringAhead?) := by
  refine Scans.of_mark fun s c behind hrest hs => ?_
  have hrest₁ : s.cursor.rest = behind := by
    rw [hs, Cursor.rest_advance, hrest]
    rfl
  rw [ends_bind, ends_scanned, Cursor.literal?_singleton, hrest₁]
  by_cases hempty : behind.head? = some Byte.quote
  · -- the empty string
    obtain ⟨behind', rfl⟩ := List.head?_eq_some_iff.mp hempty
    have hahead : stringAhead? ([] ++ Byte.quote :: behind') = some (.string "", 2) := by
      rw [stringAhead?_append List.not_mem_nil, ← Text.bytes_empty, Text.ofBytes?_bytes]
      rfl
    simp only [if_pos hempty]
    refine ⟨2, hahead, ?_⟩
    rw [hs, Cursor.advance_advance]
  simp only [if_neg hempty, Bool.false_eq_true, if_false, ends_bind, ends_get, ends_scan]
  rcases hskip : s.cursor.skipUntil? (· = Byte.quote) with _ | d
  · -- there is no closing quote
    have hnone := Cursor.skipUntil?_eq_none_iff.mp hskip
    rw [hrest₁] at hnone
    refine Or.inr ⟨trivial, stringAhead?_of_notMem fun hmem => ?_⟩
    simpa using hnone _ hmem
  · obtain ⟨inside, b, behind', hinside, hfree, hb, rfl⟩ := Cursor.skipUntil?_eq_some_iff.mp hskip
    obtain rfl : b = Byte.quote := by simpa using hb
    have hnotMem : Byte.quote ∉ inside := fun hmem => by simpa using hfree _ hmem
    have hrest₂ : (s.cursor.advance inside.length).rest = Byte.quote :: behind' :=
      Cursor.rest_advance_of_append hinside
    have hne : s.cursor.rest ≠ [] := by simp [hinside]
    have hslice : ((s.cursor.advance inside.length).advance 1).slice? s.cursor.pos
        (s.cursor.pos + inside.length) = some inside :=
      Cursor.slice?_of_append hinside rfl (Cursor.pos_le_of_rest_ne_nil hne)
    rw [hrest₁] at hinside
    simp only [pos, Cursor.literal?_singleton, hrest₂, List.head?_cons, if_pos, Cursor.pos_advance,
      ends_slice, hslice]
    refine (ends_text inside _).imp (fun t s' h => ?_) fun f s' h => h.imp_right fun h => ?_
    · refine ⟨inside.length + 2, ?_, ?_⟩
      · rw [hinside, stringAhead?_append hnotMem, h.1]
        rfl
      · rw [h.2, hs, Cursor.advance_advance, Cursor.advance_advance, Nat.add_comm 1]
    · rw [hinside, stringAhead?_append hnotMem, h.2]
      exact ⟨h.1, rfl⟩

theorem scans_symbol : Scans symbol .symbol symbolAhead? := by
  refine Scans.of_blanks rfl fun s b behind hrest => ?_
  have hne : s.cursor.rest ≠ [] := by
    rw [hrest]
    exact List.cons_ne_nil b behind
  rw [ends_bind, ends_get, Cursor.peek?, hrest]
  simp only [List.head?_cons, Option.some.injEq]
  by_cases hmarks : b = Byte.hash ∨ b = Byte.quote
  · have hahead : symbolAhead? (b :: behind) = none :=
      if_pos (hmarks.imp (congrArg some) fun h => Or.inl (congrArg some h))
    rw [if_pos hmarks]
    exact Or.inr ⟨rfl, hahead⟩
  rw [if_neg hmarks, ends_bind, ends_token, Cursor.token?_of_ne_nil hne, hrest]
  dsimp only
  by_cases hempty : tokenOf (b :: behind) = []
  · -- the byte is a separator, so the token is empty
    have hahead : symbolAhead? (b :: behind) = none := if_pos (Or.inr (Or.inr hempty))
    rw [if_pos (List.isEmpty_iff.mpr hempty)]
    exact Or.inr ⟨rfl, hahead⟩
  have hahead : symbolAhead? (b :: behind) = (Text.ofBytes? (tokenOf (b :: behind))).map
      fun name => (.symbol name, (tokenOf (b :: behind)).length) := by
    refine if_neg ?_
    rw [List.head?_cons, Option.some.injEq, Option.some.injEq, ← or_assoc]
    exact not_or.mpr ⟨hmarks, hempty⟩
  rw [if_neg (mt List.isEmpty_iff.mp hempty), hahead]
  refine (ends_text _ _).imp (fun t s' h => ?_) fun f s' h => h.imp_right fun h => ?_
  · exact ⟨_, by rw [h.1]; rfl, h.2⟩
  · exact ⟨h.1, by rw [h.2]; rfl⟩

/-- **Ordered choice** among sorts of atoms: what is tried next looks at the same bytes,
since the cursor is put back. -/
theorem Scans.orElse {rule : ReadM α} {sort : α → Atom} {pick : Option α → ReadM Atom}
    {ahead ahead' : List Byte → Option (Atom × Nat)} (h : Scans rule sort ahead)
    (hsome : ∀ a, pick (some a) = pure (sort a)) (hnone : Scans (pick none) id ahead') :
    Scans (attempt rule >>= pick) id fun bytes => (ahead bytes).or (ahead' bytes) := by
  intro s
  rw [ends_bind, ends_attempt]
  beta_reduce
  refine (h s).imp (fun a s' ha => ?_) fun f s' hf => ?_
  · obtain ⟨n, hn, hs'⟩ := ha
    rw [hsome]
    exact ⟨n, by rw [hn]; rfl, hs'⟩
  · rcases hf with ⟨e, rfl⟩ | ⟨rfl, hahead⟩
    · rw [if_neg nofun]
      exact Or.inl ⟨e, rfl⟩
    · rw [if_pos rfl, hahead, Option.none_or]
      exact hnone (s'.rewind s.cursor)

/-- **An atom** is the one that lies ahead behind the blanks. -/
theorem scans_atom : Scans atom id atomAhead? := by
  have hnothing : Scans (throw .noMatch : ReadM Atom) id fun _ => none :=
    fun _ => Or.inr ⟨rfl, rfl⟩
  have hahead : atomAhead? = fun bytes => (numeralAhead? bytes).or
      ((markedAhead? Byte.hash booleanAhead? bytes).or
        ((markedAhead? Byte.quote stringAhead? bytes).or ((symbolAhead? bytes).or none))) := by
    funext bytes
    rw [atomAhead?_eq, Option.or_none]
  rw [hahead]
  refine Scans.orElse scans_number (fun _ => rfl) ?_
  refine Scans.orElse scans_boolean (fun _ => rfl) ?_
  refine Scans.orElse scans_string (fun _ => rfl) ?_
  exact Scans.orElse scans_symbol (fun _ => rfl) hnothing

/-! ### The rules for brackets -/

/-- **An opening bracket** is taken if it is the next byte. -/
theorem ends_openBracket {s : Reader} {good : Bracket → Reader → Prop}
    {bad : Failure → Reader → Prop} :
    Ends openBracket s good bad ↔
      match s.cursor.rest.head?.bind Bracket.ofOpening? with
      | some bracket => good bracket { s with cursor := s.cursor.advance 1 }
      | none => bad .noMatch s := by
  rw [openBracket, ends_bind, ends_get, ends_bind, ends_found, Cursor.peek?]
  rcases hopening : s.cursor.rest.head?.bind Bracket.ofOpening? with _ | bracket
  · exact Iff.rfl
  · obtain ⟨b, hb, hbracket⟩ := Option.bind_eq_some_iff.mp hopening
    have hhead : s.cursor.rest.head? = some bracket.opening := by
      rw [hb, Bracket.ofOpening?_eq_some_iff.mp hbracket]
    dsimp only
    rw [ends_bind, ends_scan, Cursor.literal?_singleton, if_pos hhead]
    exact Iff.rfl

/-- **A closing bracket** is taken if it is the next byte behind the blanks, and there is no
other way to fail. -/
theorem ends_closeBracket (bracket : Bracket) (s : Reader) :
    Ends (closeBracket bracket) s
      (fun _ s' => (behindBlanks s.cursor.rest).head? = some bracket.closing ∧
        s'.cursor = s.skipBlanks.cursor.advance 1)
      (fun f _ => f = .noMatch ∧ (behindBlanks s.cursor.rest).head? ≠ some bracket.closing) := by
  rw [closeBracket, ends_bind, ends_scanned, Cursor.skipWhile?_isBlank]
  by_cases hrest : behindBlanks s.cursor.rest = []
  · rw [if_pos hrest, hrest]
    exact ⟨rfl, nofun⟩
  rw [if_neg hrest]
  simp only [↓reduceIte, ends_bind, ends_scanned, Cursor.literal?_singleton,
    Cursor.rest_skipBlanks]
  by_cases hclosing : (behindBlanks s.cursor.rest).head? = some bracket.closing
  · rw [if_pos hclosing]
    exact ⟨hclosing, rfl⟩
  · rw [if_neg hclosing]
    simp only [Bool.false_eq_true, ↓reduceIte, ends_bind, ends_get]
    split
    · exact ⟨rfl, hclosing⟩
    · exact ⟨rfl, hclosing⟩

end Reader

end FormReader
