import FormReader.Proofs.Relaid
import FormReader.Proofs.SideBySide

/-!
# Reading commutes with a change of layout

Reading looks at separators in two ways only: whether a byte is a blank, and which brackets belong
together. A relayout respects both. So a rule may be run and the layout changed in either order
(`FormReader.Relayout.Commutes`), where a relayout of a reader changes its source and the brackets
that its events tell of.

To commute is an equation between two outcomes, in which memory, failures and positions are not
mentioned because they are not changed. Sequences, choices and repetitions of rules that commute do
so as well, and there is one short lemma for each rule.
-/

namespace FormReader

namespace Relayout

variable {k : Relayout}

/-! ### Rules that commute -/

variable {α α' β β' : Type}

/-- What becomes of an outcome. -/
def outcome (k : Relayout) (found : α → α') (o : Outcome α) : Outcome α' :=
  ⟨o.result.map found, k.reader o.reader⟩

/-- **Commuting**: running a rule and then changing the layout comes to the same as changing the
layout and then running a rule. -/
def Commutes (k : Relayout) (found : α → α') (rule : ReadM α) (rule' : ReadM α') : Prop :=
  ∀ s, (k.reader s).run rule' = k.outcome found (s.run rule)

namespace Commutes

variable {found : α → α'} {kept : β → β'} {rule : ReadM α} {rule' : ReadM α'}

theorem pure (a : α) : Commutes k found (Pure.pure a) (Pure.pure (found a)) := fun _ => rfl

theorem throw (f : Failure) :
    Commutes k found (MonadExcept.throw f) (MonadExcept.throw f) := fun _ => rfl

theorem noMatch : Commutes k (id : Unit → Unit) (MonadExcept.throw .noMatch)
    (MonadExcept.throw .noMatch) := throw .noMatch

theorem get : Commutes k k.reader MonadState.get MonadState.get := fun _ => rfl

/-- **Sequences.** -/
theorem bind {next : α → ReadM β} {next' : α' → ReadM β'} (h : Commutes k found rule rule')
    (hnext : ∀ a, Commutes k kept (next a) (next' (found a))) :
    Commutes k kept (rule >>= next) (rule' >>= next') := by
  intro s
  rw [Reader.run_bind, Reader.run_bind, h s]
  rcases s.run rule with ⟨f | a, s'⟩
  · rfl
  · exact hnext a s'

/-- **Choices**: a cursor is put back to the same position. -/
theorem attempt (h : Commutes k found rule rule') :
    Commutes k (Option.map found) (Reader.attempt rule) (Reader.attempt rule') := by
  intro s
  rw [Reader.run_attempt, Reader.run_attempt, h s]
  rcases s.run rule with ⟨f | a, s'⟩
  · change (if f = .noMatch then _ else _) = k.outcome _ (if f = .noMatch then _ else _)
    split
    · rfl
    · rfl
  · rfl

/-- Choosing between what follows a rule and what is done where it does not match. -/
theorem choice {pick : Option α → ReadM β} {pick' : Option α' → ReadM β'}
    (h : Commutes k found rule rule')
    (hsome : ∀ a, Commutes k kept (pick (some a)) (pick' (some (found a))))
    (hnone : Commutes k kept (pick none) (pick' none)) :
    Commutes k kept (Reader.attempt rule >>= pick) (Reader.attempt rule' >>= pick') := by
  refine h.attempt.bind fun a? => ?_
  rcases a? with _ | a
  · exact hnone
  · exact hsome a

/-- What is done in one case may also be what is done at the end of the other. -/
theorem ite {rule₁ : ReadM α} {rule₁' : ReadM α'} {c c' : Prop} [Decidable c] [Decidable c']
    (hc : c' ↔ c) (h : Commutes k found rule rule')
    (h₁ : Commutes k found rule rule' → Commutes k found rule₁ rule₁') :
    Commutes k found (if c then rule else rule₁) (if c' then rule' else rule₁') := by
  simp only [hc]
  split
  · exact h
  · exact h₁ h

section Repetition

variable {next : ReadM (Option β)} {next' : ReadM (Option β')} {keep : α → β → ReadM α}
  {keep' : α' → β' → ReadM α'} (hnext : Commutes k (Option.map kept) next next')
  (hkeep : ∀ acc item, Commutes k found (keep acc item) (keep' (found acc) (kept item)))

include hnext hkeep

theorem gatherOne (acc : α) :
    Commutes k (Prod.map found id) (Reader.gatherOne next keep acc)
      (Reader.gatherOne next' keep' (found acc)) := by
  refine hnext.bind fun item? => ?_
  rcases item? with _ | item
  · exact fun _ => rfl
  · exact (hkeep acc item).bind fun _ => fun _ => rfl

/-- **Repetitions**: there are as many bytes left, so there are as many rounds. -/
theorem gather (acc : α) :
    Commutes k found (Reader.gather next keep acc) (Reader.gather next' keep' (found acc)) := by
  intro s
  induction hn : s.cursor.left using Nat.strongRecOn generalizing s acc with
  | ind n ih =>
    subst hn
    rw [Reader.run_gather, Reader.run_gather, gatherOne hnext hkeep acc s]
    rcases s.run (Reader.gatherOne next keep acc) with ⟨f | ⟨acc', more⟩, s'⟩
    · rfl
    · change (if more ∧ (k.cursor s'.cursor).left < (k.cursor s.cursor).left then
        (k.reader s').run (Reader.gather next' keep' (found acc')) else _) =
          k.outcome found (if more ∧ s'.cursor.left < s.cursor.left then _ else _)
      rw [left_cursor, left_cursor]
      split
      · next hgo => exact ih _ hgo.2 acc' s' rfl
      · rfl

end Repetition

end Commutes

/-! ### What a reader sees -/

theorem peek?_reader (s : Reader) : (k.reader s).cursor.peek? = s.cursor.peek?.map k.byte :=
  peek?_cursor s.cursor

theorem atBoundary_reader (s : Reader) :
    (k.reader s).cursor.atBoundary = s.cursor.atBoundary := atBoundary_cursor s.cursor

theorem onlyBlanksLeft_reader (s : Reader) :
    (k.reader s).cursor.onlyBlanksLeft = s.cursor.onlyBlanksLeft := onlyBlanksLeft_cursor s.cursor

/-! ### Steps that cannot be divided -/

section Steps

variable {found : α → α'}

theorem commutes_scan {move move' : Cursor → Option Cursor}
    (h : ∀ c, move' (k.cursor c) = (move c).map k.cursor) :
    Commutes k id (Reader.scan move) (Reader.scan move') := by
  intro s
  have hmove : move' (k.reader s).cursor = (move s.cursor).map k.cursor := h s.cursor
  rw [Reader.run, Reader.scan, Reader.run, Reader.scan, hmove]
  rcases move s.cursor with _ | c
  · rfl
  · rfl

theorem commutes_scanned {move move' : Cursor → Option Cursor}
    (h : ∀ c, move' (k.cursor c) = (move c).map k.cursor) :
    Commutes k id (Reader.scanned move) (Reader.scanned move') := by
  intro s
  have hmove : move' (k.reader s).cursor = (move s.cursor).map k.cursor := h s.cursor
  rw [Reader.run, Reader.scanned, Reader.run, Reader.scanned, hmove]
  rcases move s.cursor with _ | c
  · rfl
  · rfl

theorem commutes_token : Commutes k id Reader.token Reader.token := by
  intro s
  have htoken : (k.reader s).cursor.token? = s.cursor.token?.map fun x => (x.1, k.cursor x.2) :=
    token?_cursor s.cursor
  rw [Reader.run, Reader.token, Reader.run, Reader.token, htoken]
  rcases s.cursor.token? with _ | ⟨token, c⟩
  · rfl
  · rfl

theorem commutes_slice (start stop : Nat) :
    Commutes k (List.map k.byte) (Reader.slice start stop) (Reader.slice start stop) := by
  intro s
  have hslice : (k.reader s).cursor.slice? start stop =
      (s.cursor.slice? start stop).map (List.map k.byte) := slice?_cursor s.cursor start stop
  rw [Reader.run, Reader.slice, Reader.run, Reader.slice, hslice]
  rcases s.cursor.slice? start stop with _ | bytes
  · rfl
  · rfl

theorem commutes_found {found? : Option α} {found?' : Option α'} (h : found?' = found?.map found) :
    Commutes k found (Reader.found found?) (Reader.found found?') := by
  rw [h]
  rcases found? with _ | a
  · exact .throw .noMatch
  · exact .pure a

theorem commutes_same (found? : Option α) :
    Commutes k id (Reader.found found?) (Reader.found found?) :=
  commutes_found (congrFun Option.map_id.symm found?)

theorem commutes_observe (e : Event) :
    Commutes k id (Reader.observe e) (Reader.observe (k.event e)) := fun _ => rfl

/-- The same is asked for, so the answer is the same. -/
theorem commutes_ask {request : ArenaM α} {request' : ArenaM α'}
    (h : request' = found <$> request) :
    Commutes k found (Reader.ask request) (Reader.ask request') := by
  intro s
  have hrequest' : request' (k.reader s).arena = EStateM.map found request s.arena := by
    rw [h]
    rfl
  rw [EStateM.map] at hrequest'
  rcases hrequest : request s.arena with ⟨a, arena⟩ | ⟨e, arena⟩
  · rw [hrequest] at hrequest'
    rw [Reader.run, Reader.ask, Reader.run, Reader.ask, hrequest, hrequest']
    rfl
  · rw [hrequest] at hrequest'
    rw [Reader.run, Reader.ask, Reader.run, Reader.ask, hrequest, hrequest']
    rfl

end Steps

/-! ### Atoms -/

theorem commutes_blanks : Commutes k id Reader.blanks Reader.blanks :=
  commutes_scan fun c => skipUntil?_cursor c fun b => congrArg (!·) (isBlank_byte b)

section Literals

variable {b b' : Byte} (h : ∀ x, k.byte x = b' ↔ x = b)

include h

theorem commutes_literal :
    Commutes k id (Reader.scan (·.literal? [b])) (Reader.scan (·.literal? [b'])) :=
  commutes_scan fun c => literal?_cursor c h

theorem commutes_isLiteral :
    Commutes k id (Reader.scanned (·.literal? [b])) (Reader.scanned (·.literal? [b'])) :=
  commutes_scanned fun c => literal?_cursor c h

end Literals

/-- A name is the same text before and after. -/
theorem commutes_name (bytes : List Byte) : Commutes k id (Reader.text bytes) (Reader.text bytes) :=
  (commutes_same _).bind fun _ => commutes_ask (id_map _).symm

/-- **A text** is copied with its bytes changed, which is not noticed by the arena. -/
theorem commutes_text (bytes : List Byte) :
    Commutes k k.text (Reader.text bytes) (Reader.text (bytes.map k.byte)) := by
  refine (commutes_found (ofBytes?_map_byte bytes)).bind fun s => commutes_ask ?_
  rw [Arena.copyText, utf8ByteSize_text, Arena.copyText, map_bind]
  rfl

theorem commutes_number : Commutes k id Reader.number Reader.number :=
  commutes_blanks.bind fun _ => commutes_token.bind fun _ => commutes_same _

theorem commutes_boolean : Commutes k id Reader.boolean Reader.boolean := by
  have hletter {c : Byte} (hc : Byte.isSeparator c = false) (x : Byte) : k.byte x = c ↔ x = c :=
    byte_eq_token_iff x hc
  refine commutes_blanks.bind fun _ => (commutes_literal (hletter rfl)).bind fun _ =>
    (commutes_isLiteral (hletter rfl)).bind fun value => ?_
  -- whichever letter was passed, the token has to end behind it
  refine Commutes.ite Iff.rfl (Commutes.get.bind fun s => ?_) fun hend =>
    (commutes_literal (hletter rfl)).bind fun _ => hend
  refine Commutes.ite ?_ (.pure _) fun _ => .throw _
  rw [atBoundary_reader]

theorem commutes_string : Commutes k k.text Reader.string Reader.string := by
  have hquote (x : Byte) : k.byte x = Byte.quote ↔ x = Byte.quote :=
    byte_eq_token_iff x Byte.isSeparator_quote
  have hskip : Commutes k id (Reader.scan (·.skipUntil? (· = Byte.quote)))
      (Reader.scan (·.skipUntil? (· = Byte.quote))) :=
    commutes_scan fun c => skipUntil?_cursor c fun b => decide_eq_decide.mpr (hquote b)
  refine commutes_blanks.bind fun _ => (commutes_literal hquote).bind fun _ =>
    (commutes_isLiteral hquote).bind fun isEmpty => ?_
  refine Commutes.ite Iff.rfl ?_ fun _ => ?_
  · have hempty : Commutes k k.text (pure "") (pure (k.text "")) := .pure ""
    rw [text_empty] at hempty
    exact hempty
  · exact Commutes.get.bind fun start => hskip.bind fun _ => Commutes.get.bind fun stop =>
      (commutes_literal hquote).bind fun _ => (commutes_slice start.pos stop.pos).bind fun bytes =>
        commutes_text bytes

theorem commutes_symbol : Commutes k id Reader.symbol Reader.symbol := by
  have hname : Commutes k id
      (do
        let name ← Reader.token
        if name.isEmpty then throw .noMatch
        Reader.text name)
      (do
        let name ← Reader.token
        if name.isEmpty then throw .noMatch
        Reader.text name) := by
    refine commutes_token.bind fun name => ?_
    exact Commutes.ite Iff.rfl (Commutes.noMatch.bind fun _ => commutes_name name)
      fun _ => commutes_name name
  refine commutes_blanks.bind fun _ => Commutes.get.bind fun s => ?_
  dsimp only
  refine Commutes.ite ?_ (Commutes.noMatch.bind fun _ => hname) fun _ => hname
  -- neither of the two marks is a separator
  rw [peek?_reader]
  rcases s.cursor.peek? with _ | b
  · rfl
  · rw [Option.map_some, Option.some_inj, Option.some_inj, Option.some_inj, Option.some_inj,
      byte_eq_token_iff b Byte.isSeparator_hash, byte_eq_token_iff b Byte.isSeparator_quote]

theorem commutes_atom : Commutes k k.atom Reader.atom Reader.atom := by
  refine commutes_number.choice (fun _ => .pure _) ?_
  refine commutes_boolean.choice (fun _ => .pure _) ?_
  refine commutes_string.choice (fun _ => .pure _) ?_
  exact commutes_symbol.choice (fun _ => .pure _) (.throw _)

/-! ### Forms -/

/-- What becomes of a scratch buffer. -/
def scratch (k : Relayout) (b : Scratch Form) : Scratch Form :=
  { b with items := b.items.map k.form }

theorem scratch_empty (width : Nat) : k.scratch { width } = { width } := by
  rw [scratch, List.map_toArray, List.map_nil]

theorem commutes_openBracket : Commutes k k.bracket Reader.openBracket Reader.openBracket := by
  refine Commutes.get.bind fun s => ?_
  have hopening : (k.reader s).cursor.peek?.bind Bracket.ofOpening? =
      (s.cursor.peek?.bind Bracket.ofOpening?).map k.bracket := by
    rw [peek?_reader]
    rcases s.cursor.peek? with _ | b
    · rfl
    · exact ofOpening?_byte b
  exact (commutes_found hopening).bind fun bracket =>
    (commutes_literal fun x => byte_eq_opening_iff x).bind fun _ => .pure bracket

/-- **Why a list is not closed** is the same, with the brackets changed. -/
theorem commutes_closeBracket (bracket : Bracket) :
    Commutes k id (Reader.closeBracket bracket) (Reader.closeBracket (k.bracket bracket)) := by
  have hfail (e : Event) : Commutes k id
      (do Reader.observe e; throw .noMatch : ReadM Unit)
      (do Reader.observe (k.event e); throw .noMatch) :=
    (commutes_observe e).bind fun _ => .throw .noMatch
  have hskip : Commutes k id (Reader.scanned (·.skipWhile? Byte.isBlank))
      (Reader.scanned (·.skipWhile? Byte.isBlank)) :=
    commutes_scanned fun c => skipUntil?_cursor c fun b => congrArg (!·) (isBlank_byte b)
  refine hskip.bind fun more => Commutes.ite Iff.rfl ?_ fun hclose => ?_
  · refine (commutes_isLiteral fun x => byte_eq_closing_iff x).bind fun closed =>
      Commutes.ite Iff.rfl (.pure ()) fun _ => ?_
    -- the bracket is not the one that was expected
    refine Commutes.get.bind fun s => ?_
    have hclosing : (k.reader s).cursor.peek?.bind Bracket.ofClosing? =
        (s.cursor.peek?.bind Bracket.ofClosing?).map k.bracket := by
      rw [peek?_reader]
      rcases s.cursor.peek? with _ | b
      · rfl
      · exact ofClosing?_byte b
    dsimp only
    rw [hclosing]
    rcases s.cursor.peek?.bind Bracket.ofClosing? with _ | other
    · exact hfail (.unparsable s.pos bracket)
    · exact hfail (.mismatched s.pos bracket other)
  · exact (commutes_observe (.unclosed bracket)).bind fun _ =>
      Commutes.noMatch.bind fun _ => hclose

theorem commutes_push (forms : Scratch Form) (form : Form) :
    Commutes k k.scratch (Reader.push forms form)
      (Reader.push (k.scratch forms) (k.form form)) := by
  have hsize : (k.scratch forms).items.size = forms.items.size := Array.size_map
  have hpush : (k.scratch forms).items.push (k.form form) = (forms.items.push form).map k.form :=
    Array.map_push.symm
  refine commutes_ask ?_
  rw [Scratch.push, Scratch.isFull, hsize, hpush, Scratch.push]
  change (if (forms.isFull : Prop) then _ else _) = _
  split
  · rw [map_bind]
    -- the allocator has the two buffers grow alike
    refine congrArg (get >>= ·) (funext fun arena => ?_)
    dsimp only
    rw [map_bind]
    rfl
  · rfl

theorem commutes_link (forms : Scratch Form) :
    Commutes k k.forms (Reader.link forms) (Reader.link (k.scratch forms)) := by
  refine commutes_ask ?_
  have hitems : (k.scratch forms).items.toList = forms.items.toList.map k.form := Array.toList_map
  rw [hitems]
  induction forms.items.toList with
  | nil => rfl
  | cons item items ih =>
    have hlink (item : Form) (items : List Form) :
        Arena.link (item :: items) = Arena.link items >>= Arena.cell item := List.foldrM_cons
    rw [List.map_cons, hlink, hlink, ih, bind_map_left, map_bind]
    refine congrArg (Arena.link items >>= ·) (funext fun rest => ?_)
    rw [Arena.cell, Arena.cell, map_bind]
    rfl

theorem commutes_gather {find : ReadM (Option Form)}
    (h : Commutes k (Option.map k.form) find find) (forms : Scratch Form) :
    Commutes k k.scratch (Reader.gather find Reader.push forms)
      (Reader.gather find Reader.push (k.scratch forms)) :=
  h.gather commutes_push forms

theorem commutes_optionalItems {form : ReadM Form} (h : Commutes k k.form form form) :
    Commutes k k.forms (Reader.optionalItems form) (Reader.optionalItems form) := by
  rw [Reader.optionalItems, Reader.items_eq_linkedItems]
  have hlinked : Commutes k k.forms (Reader.linkedItems form) (Reader.linkedItems form) := by
    refine h.bind fun first => ?_
    have hfirst := commutes_push (k := k) { width := Scratch.formWidth } first
    rw [scratch_empty] at hfirst
    exact hfirst.bind fun forms => (commutes_gather h.attempt forms).bind commutes_link
  exact hlinked.choice (fun _ => .pure _) (.pure [])

theorem commutes_element {nested : ReadM (List Form)} (h : Commutes k k.forms nested nested) :
    Commutes k k.form (Reader.element nested) (Reader.element nested) := by
  refine commutes_atom.choice (fun _ => .pure _) ?_
  exact commutes_blanks.bind fun _ => commutes_openBracket.bind fun bracket =>
    h.bind fun items => (commutes_closeBracket bracket).bind fun _ => .pure (Form.list items)

theorem commutes_refuseNesting : Commutes k k.forms Reader.refuseNesting Reader.refuseNesting :=
  Commutes.get.bind fun s =>
    (commutes_observe (.tooDeep s.config.maxDepth s.config.maxDepth)).bind fun _ => .throw _

/-- **Reading a form** commutes with a relayout, whatever the room. -/
theorem commutes_form (room : Nat) : Commutes k k.form (Reader.form room) (Reader.form room) := by
  induction room with
  | zero => exact commutes_element commutes_refuseNesting
  | succ room ih => exact commutes_element (commutes_optionalItems ih)

/-! ### What a reader is asked for -/

theorem commutes_one : Commutes k k.form Reader.one Reader.one := by
  refine Commutes.get.bind fun s => (commutes_form s.config.maxDepth).attempt.bind fun form? => ?_
  exact commutes_found rfl

theorem commutes_finish : Commutes k id Reader.finish Reader.finish := by
  refine Commutes.get.bind fun s => Commutes.ite ?_ (.pure ()) fun _ => ?_
  · rw [onlyBlanksLeft_reader]
  · exact (commutes_observe (.trailing s.pos)).bind fun _ => .throw .noMatch

theorem commutes_whole : Commutes k k.form Reader.whole Reader.whole :=
  commutes_one.bind fun form => commutes_finish.bind fun _ => .pure form

theorem commutes_oneMore : Commutes k (Option.map k.form) Reader.oneMore Reader.oneMore := by
  refine Commutes.get.bind fun s => Commutes.ite ?_ (.pure none) fun _ => ?_
  · rw [onlyBlanksLeft_reader]
  · exact commutes_one.bind fun form => .pure (some form)

theorem commutes_all : Commutes k k.forms Reader.all Reader.all := by
  have hgather := commutes_gather (k := k) commutes_oneMore { width := Scratch.formWidth }
  rw [scratch_empty] at hgather
  exact hgather.bind commutes_link

end Relayout

end FormReader
