import FormReader.Alternatives
import FormReader.Proofs.Boundaries
import FormReader.Proofs.Frugality

/-!
# The order of the alternatives

An alternative that does not match may have gone a long way: past a hash sign and a letter, or up to
the closing quote of what is no text. And one that finds an atom may fail all the same, for want of
memory, and then no other is tried. Still the order in which the alternatives are tried hardly
matters. All of them look at the same bytes, those behind the blanks, and their first byte decides
whether a boolean or a string comes into question, or else both a number and a symbol
(`FormReader.Alternative.mark?_of_ahead?`). So only the last two have to be in order
(`FormReader.Reader.order_of_alternatives`).

What carries this is that looking for something in vain leaves no trace but the record
(`FormReader.Reader.Looks`). A rule does not look at the record
(`FormReader.Alternative.overlooks_rule`), nor is memory asked for before something has been found,
so what comes of an alternative does not depend on those that were tried before. Therefore
alternatives in any order come to what the first of them comes to that settles what there is
(`FormReader.Reader.comesToSame_firstOf`).
-/

namespace FormReader

namespace Reader

variable {α : Type} {s t u : Reader}

/-! ### Readers and what they have recorded -/

/-- Two readers differ in what they have recorded only. -/
structure SameButLog (s t : Reader) : Prop where
  cursor : s.cursor = t.cursor
  arena : s.arena = t.arena
  config : s.config = t.config
  halted : s.halted = t.halted

/-- **Two outcomes are the same**, but for what was recorded on the way. -/
structure ComesToSame (o o' : Outcome α) : Prop where
  result : o.result = o'.result
  reader : SameButLog o.reader o'.reader

theorem SameButLog.refl (s : Reader) : SameButLog s s := ⟨rfl, rfl, rfl, rfl⟩

theorem SameButLog.symm (h : SameButLog s t) : SameButLog t s :=
  ⟨h.cursor.symm, h.arena.symm, h.config.symm, h.halted.symm⟩

theorem SameButLog.trans (h : SameButLog s t) (h' : SameButLog t u) : SameButLog s u :=
  ⟨h.cursor.trans h'.cursor, h.arena.trans h'.arena, h.config.trans h'.config,
    h.halted.trans h'.halted⟩

theorem ComesToSame.refl (o : Outcome α) : ComesToSame o o := ⟨rfl, .refl _⟩

theorem ComesToSame.symm {o o' : Outcome α} (h : ComesToSame o o') : ComesToSame o' o :=
  ⟨h.result.symm, h.reader.symm⟩

theorem ComesToSame.trans {o o' o'' : Outcome α} (h : ComesToSame o o')
    (h' : ComesToSame o' o'') : ComesToSame o o'' :=
  ⟨h.result.trans h'.result, h.reader.trans h'.reader⟩

/-- The reader with an earlier record below its own. -/
def above (s : Reader) (earlier : List Event) : Reader := { s with log := s.log ++ earlier }

theorem irrelevant_above (earlier : List Event) : Irrelevant (·.above earlier) where
  cursor _ := rfl
  config _ := rfl
  move _ _ := rfl
  record _ _ := rfl
  arena _ := rfl
  request _ _ := rfl

theorem sameButLog_above (s : Reader) (earlier : List Event) : SameButLog s (s.above earlier) :=
  ⟨rfl, rfl, rfl, rfl⟩

/-- **A rule that overlooks the record** comes to the same, whatever was recorded before. -/
theorem SameButLog.run {rule : ReadM α} (h : SameButLog s t)
    (hrule : ∀ earlier, Overlooks (·.above earlier) rule) :
    ComesToSame (s.run rule) (t.run rule) := by
  -- both are the same reader on top of what they have recorded
  let bare : Reader := { s with log := [] }
  have hs : s = bare.above s.log := rfl
  have ht : t = bare.above t.log := by
    obtain ⟨hcursor, harena, hconfig, hhalted⟩ := h
    obtain ⟨_, _, _, _, _⟩ := t
    cases hcursor
    cases harena
    cases hconfig
    cases hhalted
    rfl
  have hruns (earlier : List Event) :
      ComesToSame (bare.run rule) ((bare.above earlier).run rule) := by
    rw [hrule earlier bare]
    exact ⟨rfl, sameButLog_above _ earlier⟩
  rw [hs, ht]
  exact (hruns s.log).symm.trans (hruns t.log)

/-! ### What an alternative looks at -/

/-- **Looking ahead**: what lies ahead behind the blanks decides what comes of a rule. Where it
finds nothing there it does not match, and only the cursor and the record are not what they were. -/
def Looks (rule : ReadM Atom) (ahead : List Byte → Option (Atom × Nat)) : Prop :=
  ∀ s : Reader,
    (ahead (behindBlanks s.cursor.rest) = none ∧
      ∃ t, s.run rule = ⟨.error .noMatch, t⟩ ∧ SameButLog s (t.rewind s.cursor)) ∨
    ∃ a n, ahead (behindBlanks s.cursor.rest) = some (a, n) ∧
      ((∃ t, s.run rule = ⟨.ok a, t⟩) ∨ ∃ e t, s.run rule = ⟨.error (.exhausted e), t⟩)

theorem run_sorted (rule : ReadM α) (sort : α → Atom) (s : Reader) :
    s.run (do return sort (← rule)) = ⟨(s.run rule).result.map sort, (s.run rule).reader⟩ := by
  rw [run_bind]
  rcases s.run rule with ⟨f | a, t⟩
  · rfl
  · rfl

section Pays

variable {cost : α → Nat} {rule : ReadM α}

/-- What does not match has not asked for memory. -/
theorem Pays.arena_of_noMatch (h : Pays cost rule) (hrun : s.run rule = ⟨.error .noMatch, t⟩) :
    t.arena = s.arena := by
  rcases h s with ⟨f, u, hfails⟩ | ⟨a, u, hfinds⟩
  · have hfails := hfails s.arena
    change s.run rule = _ at hfails
    rw [hrun] at hfails
    cases hfails
    rfl
  · have hfinds := hfinds s.arena
    change s.run rule = _ at hfinds
    rcases Nat.eq_zero_or_pos (cost a) with hzero | hpos
    · rw [hzero, buy_zero, hrun] at hfinds
      cases hfinds
    · cases hgrants : s.arena.grants s.arena.granted (cost a) with
      | false =>
        rw [run_buy_of_refused hpos hgrants, hrun] at hfinds
        cases hfinds
      | true =>
        rw [run_buy_of_granted hpos hgrants, hrun] at hfinds
        cases hfinds

/-- **What is refused had been found**: with memory enough the rule succeeds. -/
theorem Pays.exists_ok_of_exhausted {e : Exhausted} (h : Pays cost rule) (hsteady : Steady rule)
    (hrun : s.run rule = ⟨.error (.exhausted e), t⟩) :
    ∃ a u, (s.withArena {}).run rule = ⟨.ok a, u⟩ := by
  rcases h s with ⟨f, u, hfails⟩ | ⟨a, u, hfinds⟩
  · -- otherwise it would fail in the same way
    have hsame := hfails s.arena
    change s.run rule = _ at hsame
    rw [hrun] at hsame
    cases hsame
    exact absurd (congrArg Outcome.result (hfails {}))
      (hsteady.result_ne_exhausted Arena.unlimited_default e)
  · refine ⟨a, ?_⟩
    rw [hfinds]
    rcases Nat.eq_zero_or_pos (cost a) with hzero | hpos
    · rw [hzero, buy_zero]
      exact ⟨u.withArena {}, rfl⟩
    · exact ⟨_, run_buy_of_granted hpos rfl⟩

theorem looks_sorted {sort : α → Atom} {ahead : List Byte → Option (Atom × Nat)}
    (hscans : Scans rule sort ahead) (hsteady : Steady rule) (hpays : Pays cost rule) :
    Looks (do return sort (← rule)) ahead := by
  intro s
  rw [run_sorted]
  rcases hrun : s.run rule with ⟨f | a, t⟩
  · have hfollows := hsteady.follows_of_run hrun
    rcases (hscans s).of_result_error (congrArg Outcome.result hrun) with ⟨e, rfl⟩ | ⟨rfl, hnone⟩
    · obtain ⟨a, u, hfree⟩ := hpays.exists_ok_of_exhausted hsteady hrun
      obtain ⟨n, hn, -⟩ := (hscans (s.withArena {})).of_run_ok hfree
      exact Or.inr ⟨sort a, n, hn, Or.inr ⟨e, t, rfl⟩⟩
    · have harena := hpays.arena_of_noMatch hrun
      exact Or.inl ⟨hnone, t, rfl, rfl, harena.symm, hfollows.config.symm, hfollows.halted.symm⟩
  · obtain ⟨n, hn, -⟩ := (hscans s).of_run_ok hrun
    exact Or.inr ⟨sort a, n, hn, Or.inl ⟨t, rfl⟩⟩

end Pays

end Reader

/-! ### The four alternatives -/

namespace Alternative

/-- What an alternative looks for at the beginning of some bytes. -/
def ahead? : Alternative → List Byte → Option (Atom × Nat)
  | number => numeralAhead?
  | boolean => markedAhead? Byte.hash booleanAhead?
  | string => markedAhead? Byte.quote stringAhead?
  | symbol => symbolAhead?

theorem looks_rule : ∀ alternative : Alternative, Reader.Looks alternative.rule alternative.ahead?
  | number => Reader.looks_sorted Reader.scans_number Reader.steady_number
      (Reader.quiet_number.pays fun _ => rfl : Reader.Pays (fun _ => 0) Reader.number)
  | boolean => Reader.looks_sorted Reader.scans_boolean Reader.steady_boolean
      (Reader.quiet_boolean.pays fun _ => rfl : Reader.Pays (fun _ => 0) Reader.boolean)
  | string => Reader.looks_sorted Reader.scans_string Reader.steady_string Reader.pays_string
  | symbol => Reader.looks_sorted Reader.scans_symbol Reader.steady_symbol Reader.pays_symbol

theorem overlooks_rule (earlier : List Event) :
    ∀ alternative : Alternative, Reader.Overlooks (·.above earlier) alternative.rule
  | number => (Reader.overlooks_number (Reader.irrelevant_above earlier).toUnseen).bind
      fun _ => Reader.overlooks_pure _
  | boolean => (Reader.overlooks_boolean (Reader.irrelevant_above earlier).toUnseen).bind
      fun _ => Reader.overlooks_pure _
  | string => (Reader.overlooks_string (Reader.irrelevant_above earlier)).bind
      fun _ => Reader.overlooks_pure _
  | symbol => (Reader.overlooks_symbol (Reader.irrelevant_above earlier)).bind
      fun _ => Reader.overlooks_pure _

/-- The mark that some bytes begin with, if they begin with one. -/
def leadingMark? (bytes : List Byte) : Option Byte :=
  bytes.head?.filter fun b => b = Byte.hash ∨ b = Byte.quote

theorem leadingMark?_eq_none {bytes : List Byte} (hhash : bytes.head? ≠ some Byte.hash)
    (hquote : bytes.head? ≠ some Byte.quote) : leadingMark? bytes = none := by
  rw [leadingMark?, Option.filter_eq_none_iff]
  intro b hb hmark
  rcases of_decide_eq_true hmark with rfl | rfl
  · exact hhash hb
  · exact hquote hb

/-- **The first byte decides** which alternatives come into question. -/
theorem mark?_of_ahead? {alternative : Alternative} {bytes : List Byte} {found : Atom × Nat}
    (h : alternative.ahead? bytes = some found) : alternative.mark? = leadingMark? bytes := by
  cases alternative with
  | number =>
    refine (leadingMark?_eq_none (fun hhash => ?_) fun hquote => ?_).symm
    · obtain ⟨behind, rfl⟩ := List.head?_eq_some_iff.mp hhash
      rw [ahead?, numeralAhead?, tokenOf_cons Byte.isSeparator_hash, read?_hash] at h
      cases h
    · obtain ⟨behind, rfl⟩ := List.head?_eq_some_iff.mp hquote
      rw [ahead?, numeralAhead?, tokenOf_cons Byte.isSeparator_quote, read?_quote] at h
      cases h
  | boolean =>
    obtain ⟨behind, rfl, -⟩ := exists_of_markedAhead? h
    rfl
  | string =>
    obtain ⟨behind, rfl, -⟩ := exists_of_markedAhead? h
    rfl
  | symbol =>
    rw [ahead?, symbolAhead?] at h
    split at h
    · cases h
    · next hmarks =>
      rw [not_or, not_or] at hmarks
      exact (leadingMark?_eq_none hmarks.1 hmarks.2.1).symm

/-- Two alternatives with the same mark are the same, or have none. -/
theorem eq_or_of_mark?_eq {a b : Alternative} (h : a.mark? = b.mark?) :
    a = b ∨ (a = number ∧ b = symbol) ∨ (a = symbol ∧ b = number) := by
  cases a <;> cases b <;> first | exact absurd h (by decide) | simp

/-- **A numeral** is a symbol as well, as far as its bytes are concerned. -/
theorem exists_symbolAhead?_of_read? {bytes : List Byte} {n : Int64}
    (h : Numeral.read? (tokenOf bytes) = some n) : ∃ found, symbolAhead? bytes = some found := by
  have hahead : number.ahead? bytes = some (.number n, (tokenOf bytes).length) :=
    congrArg (Option.map _) h
  have hmark : none = leadingMark? bytes := mark?_of_ahead? hahead
  obtain ⟨name, hname⟩ := isText_of_lt (Numeral.lt_of_mem_of_read? h)
  refine ⟨(.symbol name, (tokenOf bytes).length), ?_⟩
  rw [symbolAhead?, if_neg, ← hname, Text.ofBytes?_bytes]
  · rfl
  · rintro (hhash | hquote | hnil)
    · rw [leadingMark?, hhash] at hmark
      cases hmark
    · rw [leadingMark?, hquote] at hmark
      cases hmark
    · rw [hnil, Numeral.read?_nil] at h
      cases h

end Alternative

namespace Reader

variable {s t : Reader}

theorem settles_eq (s : Reader) (alternative : Alternative) :
    s.settles alternative = (alternative.ahead? (behindBlanks s.cursor.rest)).isSome := by
  rw [settles]
  rcases alternative.looks_rule s with ⟨hnone, t, hrun, -⟩ | ⟨a, n, hfound, hruns⟩
  · rw [hrun, hnone]
    rfl
  · rw [hfound]
    rcases hruns with ⟨t, hrun⟩ | ⟨e, t, hrun⟩
    · rw [hrun]
      rfl
    · rw [hrun]
      rfl

theorem mark?_eq_of_settles {a b : Alternative} (ha : s.settles a = true)
    (hb : s.settles b = true) : a.mark? = b.mark? := by
  rw [settles_eq, Option.isSome_iff_exists] at ha hb
  obtain ⟨found, hfound⟩ := ha
  obtain ⟨found', hfound'⟩ := hb
  exact (Alternative.mark?_of_ahead? hfound).trans (Alternative.mark?_of_ahead? hfound').symm

/-! ### Orders -/

/-- **Some alternatives in order** come to what the first of them comes to that settles. -/
theorem comesToSame_firstOf (order : List Alternative) (s : Reader) :
    ComesToSame ((order.find? s.settles).elim ⟨.error .noMatch, s⟩ fun a => s.run a.rule)
      (s.run (firstOf order)) := by
  induction order generalizing s with
  | nil => exact ComesToSame.refl _
  | cons a others ih =>
    rw [firstOf, run_bind, run_attempt]
    rcases a.looks_rule s with ⟨hnone, t, hrun, hback⟩ | ⟨_, _, hfound, hruns⟩
    · have hskip : s.settles a = false := by rw [settles_eq, hnone]; rfl
      rw [List.find?_cons_of_neg (by rw [hskip]; decide), hrun]
      refine ComesToSame.trans ?_ (ih (t.rewind s.cursor))
      have hsettles : (t.rewind s.cursor).settles = s.settles := by
        funext b
        rw [settles_eq, settles_eq, ← hback.cursor]
      rw [hsettles]
      rcases others.find? s.settles with _ | b
      · exact ⟨rfl, hback⟩
      · exact hback.run fun earlier => b.overlooks_rule earlier
    · have hstop : s.settles a = true := by rw [settles_eq, hfound]; rfl
      rw [List.find?_cons_of_pos hstop, Option.elim_some]
      rcases hruns with ⟨t, hrun⟩ | ⟨e, t, hrun⟩
      · rw [hrun]
        exact ComesToSame.refl _
      · rw [hrun]
        exact ComesToSame.refl _

/-- **The alternative that is taken** is any one that settles, but a symbol only where there is no
number. -/
theorem find?_settles_eq_some_iff {order : List Alternative} (hall : ∀ a, a ∈ order)
    (hfirst : order.idxOf .number < order.idxOf .symbol) {a : Alternative} :
    order.find? s.settles = some a ↔
      s.settles a = true ∧ (a = .symbol → s.settles .number = false) := by
  have htaken : ∀ a, order.find? s.settles = some a →
      s.settles a = true ∧ (a = .symbol → s.settles .number = false) := by
    intro a h
    obtain ⟨hsettles, before, behind, rfl, hbefore⟩ := List.find?_eq_some_iff_append.mp h
    refine ⟨hsettles, ?_⟩
    rintro rfl
    -- the number stands before the first symbol
    have hnotMem : Alternative.symbol ∉ before := by
      intro hmem
      have hskip := hbefore _ hmem
      rw [hsettles] at hskip
      cases hskip
    rw [List.idxOf_append_of_notMem hnotMem, List.idxOf_cons_self] at hfirst
    by_cases hmem : Alternative.number ∈ before
    · simpa using hbefore _ hmem
    · rw [List.idxOf_append_of_notMem hmem] at hfirst
      omega
  refine ⟨htaken a, fun ⟨hsettles, hsymbol⟩ => ?_⟩
  rcases hfind : order.find? s.settles with _ | b
  · exact absurd hsettles (by simpa using List.find?_eq_none.mp hfind a (hall a))
  · obtain ⟨hb, hbsymbol⟩ := htaken b hfind
    rcases Alternative.eq_or_of_mark?_eq (mark?_eq_of_settles hb hsettles) with
      rfl | ⟨rfl, rfl⟩ | ⟨rfl, rfl⟩
    · rfl
    · rw [hsymbol rfl] at hb
      cases hb
    · rw [hbsymbol rfl] at hsettles
      cases hsettles

/-- One more alternative in front of others is a choice between it and them. -/
theorem eq_firstOf_cons {α : Type} {rule : ReadM α} {sort : α → Atom} {a : Alternative}
    {others : List Alternative} {pick : Option α → ReadM Atom}
    (hrule : a.rule = do return sort (← rule))
    (hsome : ∀ value, pick (some value) = pure (sort value))
    (hnone : pick none = firstOf others) : attempt rule >>= pick = firstOf (a :: others) := by
  funext s
  rw [firstOf, hrule]
  simp only [bind, EStateM.bind, attempt]
  rcases rule s with ⟨value, s'⟩ | ⟨f, s'⟩
  · exact congrFun (hsome value) s'
  · cases f with
    | noMatch => exact congrFun hnone (s'.rewind s.cursor)
    | _ => rfl

/-- **An atom** is the first of the alternatives in the order of the reader. -/
theorem atom_eq_firstOf : atom = firstOf Alternative.inOrder := by
  refine eq_firstOf_cons (a := .number) rfl (fun _ => rfl) ?_
  refine eq_firstOf_cons (a := .boolean) rfl (fun _ => rfl) ?_
  refine eq_firstOf_cons (a := .string) rfl (fun _ => rfl) ?_
  exact eq_firstOf_cons (a := .symbol) rfl (fun _ => rfl) rfl

/-! ### The order -/

/-- **Only numbers and symbols depend on their order.** Whatever the reader and its arena are, two
alternatives that settle what there is are the same, or are those for numbers and for symbols; and
these two settle it both exactly where the token behind the blanks is a numeral. Therefore every
order of the alternatives in which none is missing and numbers come before symbols finds the same
as the reader does, or fails in the same way, and leaves it at the same position. The token that
either of the two finds is the same: it reaches from the first byte behind the blanks up to the next
separator. -/
theorem order_of_alternatives (s : Reader) :
    (∀ a b : Alternative, s.settles a = true → s.settles b = true →
      a = b ∨ (a.mark? = none ∧ b.mark? = none)) ∧
    ((s.settles .number = true ∧ s.settles .symbol = true) ↔
      (Numeral.read? (tokenOf (behindBlanks s.cursor.rest))).isSome) ∧
    (∀ order : List Alternative, (∀ a, a ∈ order) →
      order.idxOf .number < order.idxOf .symbol →
        ComesToSame (s.run atom) (s.run (firstOf order))) ∧
    ∃ token behind : List Byte,
      behindBlanks s.cursor.rest = token ++ behind ∧ isToken token ∧ endsToken behind ∧
      (∀ n t, s.run number = ⟨.ok n, t⟩ →
        Numeral.read? token = some n ∧ t.cursor.rest = behind) ∧
      ∀ name t, s.run symbol = ⟨.ok name, t⟩ →
        Text.bytes name = token ∧ t.cursor.rest = behind := by
  obtain ⟨behind, hbehind, hend⟩ := exists_behind_tokenOf (behindBlanks s.cursor.rest)
  refine ⟨fun a b ha hb => ?_, ⟨fun h => ?_, fun h => ?_⟩, fun order hall hfirst => ?_,
    _, behind, hbehind, isToken_tokenOf _, hend, fun n t h => ?_, fun name t h => ?_⟩
  · rcases Alternative.eq_or_of_mark?_eq (mark?_eq_of_settles ha hb) with
      rfl | ⟨rfl, rfl⟩ | ⟨rfl, rfl⟩
    · exact Or.inl rfl
    · exact Or.inr ⟨rfl, rfl⟩
    · exact Or.inr ⟨rfl, rfl⟩
  · have hnumber := h.1
    rw [settles_eq, Alternative.ahead?, numeralAhead?, Option.isSome_map] at hnumber
    exact hnumber
  · obtain ⟨n, hread⟩ := Option.isSome_iff_exists.mp h
    rw [settles_eq, settles_eq, Alternative.ahead?, Alternative.ahead?, numeralAhead?,
      Option.isSome_map]
    exact ⟨h, Option.isSome_iff_exists.mpr (Alternative.exists_symbolAhead?_of_read? hread)⟩
  · have hall' : ∀ a, a ∈ Alternative.inOrder := fun a => by cases a <;> decide
    have hsame : order.find? s.settles = Alternative.inOrder.find? s.settles := by
      refine Option.ext fun a => ?_
      rw [find?_settles_eq_some_iff hall hfirst, find?_settles_eq_some_iff hall' (by decide)]
    have horder := comesToSame_firstOf order s
    rw [hsame] at horder
    rw [atom_eq_firstOf]
    exact (comesToSame_firstOf Alternative.inOrder s).symm.trans horder
  · obtain ⟨k, hk, hcursor⟩ := (scans_number s).of_run_ok h
    obtain ⟨m, hread, hm⟩ := Option.map_eq_some_iff.mp hk
    cases hm
    refine ⟨hread, ?_⟩
    rw [hcursor, Cursor.rest_advance_of_append (s.rest_skipBlanks.trans hbehind)]
  · obtain ⟨k, hk, hcursor⟩ := (scans_symbol s).of_run_ok h
    rw [symbolAhead?] at hk
    split at hk
    · cases hk
    · obtain ⟨name', hname, hk⟩ := Option.map_eq_some_iff.mp hk
      cases hk
      refine ⟨Text.bytes_of_ofBytes? hname, ?_⟩
      rw [hcursor, Cursor.rest_advance_of_append (s.rest_skipBlanks.trans hbehind)]

/-- A numeral in front of a bracket: both alternatives settle it, so it is a number in every order
with numbers first, and a symbol where symbols come before them. -/
theorem order_of_alternatives_numeral :
    let s := ofBytes (Text.bytes " 12)")
    let order : List Alternative := [.string, .number, .symbol, .boolean]
    let swapped : List Alternative := [.symbol, .number, .boolean, .string]
    s.settles .number = true ∧ s.settles .symbol = true ∧
      (s.run (firstOf order)).result = .ok (.number 12) ∧
      ComesToSame (s.run atom) (s.run (firstOf order)) ∧
      (s.run (firstOf swapped)).result = .ok (.symbol "12") := by
  intro s order swapped
  obtain ⟨-, hboth, horder, -⟩ := order_of_alternatives s
  obtain ⟨hnumber, hsymbol⟩ := hboth.mpr (by decide +kernel)
  have hsame := horder order (fun a => by cases a <;> decide) (by decide)
  exact ⟨hnumber, hsymbol, by decide +kernel, hsame, by decide +kernel⟩

end Reader

end FormReader
