import FormReader.Proofs.Frugality
import FormReader.Proofs.Parsing

/-!
# Where memory is first asked for

What an arena of no bytes lets through is what needs no memory: it refuses the first request of
a run, and the run ends there. So the two questions are one – how such a run ends, and where a
run in a free arena first asks for memory.

The answer is a walk along the rules. As long as nothing was asked for, the cursor has only gone
past blanks and opening brackets (`FormReader.Reader.Opened`), because a form that has been read
by then is free, and a free form among others makes a request at once, when it is gathered. The
walk ends at the text of an atom, which is the last thing that its rule does, or at the form that
is the first of its list.

The main result is `FormReader.cut_at_first_request`. That memory goes unused only where a free
form is read at last (`FormReader.FirstRequest.not_free`) is not told by the walk, since a run
may ask for memory, go back, and read something else. It is seen from the source: what a first
request leaves behind it has no place in the layout of a free form.
-/

namespace FormReader

/-! ### Free forms -/

/-- An atom without text is free. -/
theorem free_of_laidOut {text behind : List Byte} {a : Atom} (h : LaidOut text (.atom a) behind)
    (hpayload : a.payload = 0) : Form.Free (.atom a) := by
  cases a with
  | number n => exact .number n
  | boolean b => exact .boolean b
  | string t =>
    obtain rfl : t = "" := String.utf8ByteSize_eq_zero_iff.mp hpayload
    exact .emptyString
  | symbol name =>
    -- a symbol has a name
    obtain rfl : name = "" := String.utf8ByteSize_eq_zero_iff.mp hpayload
    cases h with
    | atom hspelling _ =>
      cases hspelling with
      | symbol hne _ _ _ _ => exact absurd rfl hne

theorem onlyOpens_append {xs ys : List Byte} :
    onlyOpens (xs ++ ys) ↔ onlyOpens xs ∧ onlyOpens ys := List.forall_mem_append

theorem onlyOpens_of_allBlank {bytes : List Byte} (h : allBlank bytes) : onlyOpens bytes :=
  fun b hb => Or.inl (h b hb)

theorem onlyOpens_opening (bracket : Bracket) : onlyOpens [bracket.opening] := fun _ hb =>
  Or.inr ⟨bracket, List.mem_singleton.mp hb⟩

theorem onlyOpens.isSeparator {bytes : List Byte} (h : onlyOpens bytes) :
    ∀ b ∈ bytes, Byte.isSeparator b = true := by
  intro b hb
  rcases h b hb with hblank | ⟨bracket, rfl⟩
  · exact Byte.isSeparator_of_isBlank hblank
  · exact Byte.isSeparator_opening bracket

namespace Reader

/-! ### What has been passed -/

/-- The bytes before the cursor. -/
def passed (s : Reader) : List Byte := s.cursor.source.toList.take s.pos

section Passed

variable {s s' : Reader} {source : List Byte}

theorem passed_append_rest (s : Reader) : s.passed ++ s.cursor.rest = s.cursor.source.toList := by
  rw [passed, s.cursor.rest_eq]
  exact List.take_append_drop _ _

theorem length_passed (h : s.pos ≤ s.cursor.source.size) : s.passed.length = s.pos := by
  rw [passed, List.length_take, Array.length_toList, Nat.min_eq_left h]

/-- What a rule goes past is put behind what was passed before. -/
theorem passed_of_rest {bytes : List Byte} (hsource : s'.cursor.source = s.cursor.source)
    (hrest : s.cursor.rest = bytes ++ s'.cursor.rest) : s'.passed = s.passed ++ bytes := by
  refine List.append_cancel_right (?_ : _ ++ s'.cursor.rest = _ ++ s'.cursor.rest)
  rw [passed_append_rest, List.append_assoc, ← hrest, passed_append_rest, hsource]

/-- **Only opened so far**: the cursor stands in the source behind blanks and opening brackets. -/
structure Opened (source : List Byte) (s : Reader) : Prop where
  source : s.cursor.source.toList = source
  inRange : s.pos ≤ s.cursor.source.size
  opens : onlyOpens s.passed

/-- **Just opened**: the last byte that was passed is an opening bracket. -/
structure JustOpened (source : List Byte) (s : Reader) : Prop extends Opened source s where
  bracket : ∃ before bracket, s.passed = before ++ [Bracket.opening bracket]

theorem Opened.of_cursor (h : Opened source s) (hcursor : s'.cursor = s.cursor) :
    Opened source s' := by
  refine ⟨?_, ?_, ?_⟩
  · rw [hcursor]
    exact h.source
  · rw [pos, hcursor]
    exact h.inRange
  · rw [passed, pos, hcursor]
    exact h.opens

theorem Opened.of_rest {bytes : List Byte} (h : Opened source s) (hfollows : Follows s s')
    (hrest : s.cursor.rest = bytes ++ s'.cursor.rest) (hbytes : onlyOpens bytes) :
    Opened source s' := by
  refine ⟨?_, hfollows.inRange h.inRange, ?_⟩
  · rw [hfollows.source]
    exact h.source
  · rw [passed_of_rest hfollows.source hrest]
    exact onlyOpens_append.mpr ⟨h.opens, hbytes⟩

/-- Where a form was read from here the source is known up to the position behind it. -/
theorem Opened.exists_layout {limit : Nat} {form : Form} (h : Opened source s)
    (hfollows : Follows s s') (hread : Reads limit s form s') :
    ∃ blanks text, allBlank blanks ∧ LaidOut text form s'.cursor.rest ∧
      source = s.passed ++ blanks ++ text ++ s'.cursor.rest ∧
      s'.pos = (s.passed ++ blanks ++ text).length := by
  obtain ⟨blanks, text, hblanks, hrest, htext⟩ := hread.layout
  have hpassed : s'.passed = s.passed ++ blanks ++ text := by
    rw [passed_of_rest hfollows.source hrest, List.append_assoc]
  refine ⟨blanks, text, hblanks, htext, ?_, ?_⟩
  · rw [← hpassed, passed_append_rest, hfollows.source]
    exact h.source.symm
  · rw [← hpassed, length_passed (hfollows.inRange h.inRange)]

end Passed

/-! ### The walk -/

section Walk

variable {source : List Byte} {s : Reader}

/-- Where an atom is bought the source has a first request for its text. -/
theorem firstRequest_of_atom {a : Atom} {t : Reader} (hs : Opened source s) (hpos : 0 < a.payload)
    (hfinds : ∀ arena, (s.withArena arena).run atom = (t.withArena arena).run (buy a.payload a)) :
    FirstRequest source a.payload t.pos := by
  -- a free arena tells what the text belongs to
  have hrun : (s.withArena {}).run atom = ⟨.ok a, t.withArena (Arena.grant {} a.payload)⟩ :=
    (hfinds {}).trans (run_buy_of_granted hpos rfl)
  have hopened : Opened source (s.withArena {}) := hs.of_cursor rfl
  obtain ⟨blanks, text, hblanks, htext, hsource, htpos⟩ :=
    hopened.exists_layout (steady_atom.follows_of_run hrun) ((reads_atom 0 _).of_run_ok hrun)
  have hbefore := onlyOpens_append.mpr ⟨hopened.opens, onlyOpens_of_allBlank hblanks⟩
  have hfirst := FirstRequest.payload hbefore htext hpos hsource
  rwa [← htpos] at hfirst

/-- **An atom** is free, or asks for its text when it has been read. -/
theorem spends_atom (hs : Opened source s) :
    Spends (FirstRequest source) (fun a => Form.Free (.atom a)) atom s := by
  rcases pays_atom s with ⟨f, t, hfails⟩ | ⟨a, t, hfinds⟩
  · refine .nothing (frugal_of_run (o := ⟨.error f, t⟩) hfails) fun a ha => ?_
    cases ha.symm.trans (congrArg Outcome.result (hfails s.arena))
  rcases Nat.eq_zero_or_pos a.payload with hzero | hpos
  · simp only [hzero, buy_zero] at hfinds
    refine .nothing (frugal_of_run (o := ⟨.ok a, t⟩) hfinds) fun a' ha => ?_
    obtain ⟨_, _, _, _, htext⟩ := ((reads_atom 0 s).of_result_ok ha).layout
    cases ha.symm.trans (congrArg Outcome.result (hfinds s.arena))
    exact free_of_laidOut htext hzero
  · exact .asks (firstRequest_of_atom hs hpos hfinds) (.of_buy (a := fun _ => a) hpos hfinds)

/-- **The first push** of a list asks for room, of the same size whatever the allocator. -/
theorem asksFirst_push (form : Form) (s : Reader) :
    AsksFirst (push { width := Scratch.formWidth } form) s Scratch.formWidth s := by
  let b : Scratch Form := { width := Scratch.formWidth }
  refine .of_buy (a := fun allocator => b.pushed allocator form) (by decide) fun arena => ?_
  have hroom : arena.allocator.grows b.capacity * b.width = Scratch.formWidth := by
    have hgrows : arena.allocator.grows b.capacity = 1 := arena.allocator.grows_zero
    rw [hgrows, Nat.one_mul]
  have harena : (s.withArena arena).arena = arena := rfl
  rw [run, push, ask, harena, Scratch.push_of_isFull rfl, hroom]
  rfl

section Nested

variable {room : Nat} {form : ReadM Form} (hsteady : Steady form)
  (hread : ∀ s, Ends form s (fun t s' => Reads room s t s') fun _ _ => True)
  (hform : ∀ s, Opened source s → Spends (FirstRequest source) Form.Free form s)

include hsteady hread hform

/-- Items are never found without memory: the first of them is gathered, if it is free. -/
theorem spends_items (hs : JustOpened source s) :
    Spends (FirstRequest source) (fun _ => False) (items form) s := by
  have hgather (forms : Scratch Form) : Steady (do link (← gather (attempt form) push forms)) :=
    (hsteady.attempt.gather steady_push forms).bind fun _ => steady_link _
  rw [items_eq_linkedItems]
  refine (hform s hs.toOpened).bind (fun t => (steady_push _ t).bind hgather)
    fun t s' hrun hfree => ?_
  obtain ⟨blanks, text, hblanks, htext, hsource, hpos⟩ :=
    hs.exists_layout (hsteady.follows_of_run hrun) ((hread s).of_run_ok hrun)
  obtain ⟨before, bracket, hbracket⟩ := hs.bracket
  have hopens := hs.opens
  rw [hbracket] at hsource hpos hopens
  rw [List.append_assoc before] at hsource hpos
  have hfirst := FirstRequest.head (onlyOpens_append.mp hopens).1 hblanks htext hfree hsource
  refine .asks (t := s') ?_ ((asksFirst_push t s').bind hgather)
  rw [hpos]
  exact hfirst

theorem spends_optionalItems (hs : JustOpened source s) :
    Spends (FirstRequest source) (· = []) (optionalItems form) s := by
  refine (spends_items hsteady hread hform hs).choice (fun _ => steady_pure _) ?_ ?_
  · exact fun _ _ _ hfalse => hfalse.elim
  · exact fun _ _ => spends_pure rfl

end Nested

theorem opened_blanks (hs : Opened source s) :
    Ends blanks s (fun _ s' => Opened source s') fun _ _ => True := by
  obtain ⟨bytes, hbytes, hrest⟩ := exists_blanks s.cursor.rest
  have hends : Ends blanks s (fun _ s' => s'.cursor.rest = behindBlanks s.cursor.rest)
      fun _ _ => True := by
    rw [ends_blanks]
    split
    · trivial
    · exact rest_skipBlanks s
  refine (hends.and (steady_blanks s)).imp (fun _ s' h => ?_) fun _ _ _ => trivial
  rw [← h.1] at hrest
  exact hs.of_rest h.2 hrest (onlyOpens_of_allBlank hbytes)

theorem justOpened_openBracket (hs : Opened source s) :
    Ends openBracket s (fun _ s' => JustOpened source s') fun _ _ => True := by
  have hends : Ends openBracket s
      (fun bracket s' => s.cursor.rest = [bracket.opening] ++ s'.cursor.rest) fun _ _ => True := by
    rw [ends_openBracket]
    rcases hopening : s.cursor.rest.head?.bind Bracket.ofOpening? with _ | bracket
    · trivial
    · obtain ⟨inside, hinside⟩ := exists_of_ofOpening? hopening
      dsimp only
      rw [Cursor.rest_advance, hinside]
      rfl
  refine (hends.and (steady_openBracket s)).imp (fun bracket s' h => ?_) fun _ _ _ => trivial
  exact ⟨hs.of_rest h.2 h.1 (onlyOpens_opening bracket), s.passed, bracket,
    passed_of_rest h.2.source h.1⟩

/-- **A list** is free if there is nothing in it, and behind its opening bracket the cursor has
gone past nothing else yet. -/
theorem spends_bracketed {nested : ReadM (List Form)} (hsteady : Steady nested)
    (hnested : ∀ s, JustOpened source s → Spends (FirstRequest source) (· = []) nested s)
    (hs : Opened source s) : Spends (FirstRequest source) Form.Free (bracketed nested) s := by
  have hclose (bracket : Bracket) (items : List Form) :
      Steady (do closeBracket bracket; return Form.list items) :=
    (steady_closeBracket bracket).bind fun _ => steady_pure _
  have hinside (bracket : Bracket) :
      Steady (do let items ← nested; closeBracket bracket; return Form.list items) :=
    hsteady.bind (hclose bracket)
  have hany {α : Type} {rule : ReadM α} (hquiet : Quiet rule) {s : Reader} :
      Spends (FirstRequest source) (fun _ => True) rule s := hquiet.spends fun _ _ => trivial
  refine (hany quiet_blanks).bind (fun _ => steady_openBracket.bind hinside) fun _ s₁ h₁ _ => ?_
  have hs₁ := (opened_blanks hs).of_run_ok h₁
  refine (hany quiet_openBracket).bind hinside fun bracket s₂ h₂ _ => ?_
  have hs₂ := (justOpened_openBracket hs₁).of_run_ok h₂
  refine (hnested s₂ hs₂).bind (hclose bracket) fun items s₃ _ hitems => ?_
  subst hitems
  exact (hany (quiet_closeBracket bracket)).bind (fun _ => steady_pure _) fun _ _ _ _ =>
    spends_pure .emptyList

theorem spends_element {nested : ReadM (List Form)} (hsteady : Steady nested)
    (hnested : ∀ s, JustOpened source s → Spends (FirstRequest source) (· = []) nested s)
    (hs : Opened source s) : Spends (FirstRequest source) Form.Free (element nested) s := by
  refine (spends_atom hs).choice (fun a? => ?_) (fun a s' _ hfree => spends_pure hfree)
    fun s' _ => spends_bracketed hsteady hnested (hs.of_cursor rfl)
  rcases a? with _ | a
  · exact hsteady.bracketed
  · exact steady_pure _

/-- **Reading a form** goes without memory and the form is free, or it makes a first request
where the source has one. -/
theorem spends_form (room : Nat) (hs : Opened source s) :
    Spends (FirstRequest source) Form.Free (form room) s := by
  induction room generalizing s with
  | zero =>
    refine spends_element steady_refuseNesting (fun s₁ _ => ?_) hs
    exact quiet_refuseNesting.spends nofun
  | succ room ih =>
    exact spends_element (steady_form room).optionalItems
      (fun s₁ hs₁ => spends_optionalItems (steady_form room) (reads_form room) (fun _ => ih) hs₁) hs

theorem spends_one (hs : Opened source s) : Spends (FirstRequest source) Form.Free one s := by
  refine Spends.look (fun _ => rfl) ?_
  refine (spends_form s.config.maxDepth hs).choice (fun _ => steady_found _) ?_ ?_
  · exact fun _ _ _ hfree => spends_pure hfree
  · exact fun _ _ => (quiet_throw .noMatch).spends nofun

theorem spends_whole (hs : Opened source s) : Spends (FirstRequest source) Form.Free whole s := by
  refine (spends_one hs).bind (fun _ => steady_finish.bind fun _ => steady_pure _)
    fun form s₁ _ hfree => ?_
  have hfinish : Spends (FirstRequest source) (fun _ => True) finish s₁ :=
    quiet_finish.spends fun _ _ => trivial
  exact hfinish.bind (fun _ => steady_pure _) fun _ _ _ _ => spends_pure hfree

/-! ### All forms -/

theorem spends_oneMore (hs : Opened source s) :
    Spends (FirstRequest source) (fun form? => ∀ form, form? = some form → form.Free)
      oneMore s := by
  refine Spends.look (fun _ => rfl) ?_
  split
  · exact spends_pure nofun
  · refine (spends_one hs).bind (fun _ => steady_pure _) fun form _ _ hfree => spends_pure ?_
    rintro _ ⟨⟩
    exact hfree

/-- **Reading all forms** goes without memory where there is none, and otherwise the first form
makes the first request, or is free and gathered. -/
theorem spends_all (hs : Opened source s) (hstart : s.passed = []) :
    Spends (FirstRequestOfAll source) (· = []) all s := by
  have hfirst : Spends (FirstRequestOfAll source)
      (fun found => found.2 = false ∧ found.1.items = #[])
      (gatherOne oneMore push { width := Scratch.formWidth }) s := by
    refine ((spends_oneMore hs).imp fun _ _ h => .inside h).bind (fun form? => ?_)
      fun form? s' hrun hfree => ?_
    · rcases form? with _ | form
      · exact steady_pure _
      · exact (steady_push _ form).bind fun _ => steady_pure _
    · rcases form? with _ | form
      · exact spends_pure ⟨rfl, rfl⟩
      · refine .asks (t := s') ?_ ((asksFirst_push form s').bind fun _ => steady_pure _)
        obtain ⟨blanks, text, hblanks, htext, hsource, hpos⟩ :=
          hs.exists_layout (steady_oneMore.follows_of_run hrun)
            ((reads_oneMore s).of_run_ok hrun form rfl)
        rw [hstart, List.nil_append] at hsource hpos
        have hfirst := FirstRequestOfAll.first hblanks htext (hfree form rfl) hsource
        rwa [← hpos] at hfirst
  have hgather : Spends (FirstRequestOfAll source) (fun forms => forms.items = #[])
      (gather oneMore push { width := Scratch.formWidth }) s :=
    hfirst.gather steady_oneMore steady_push
  refine hgather.bind steady_link fun forms s' _ hforms => ?_
  have hlink : link forms = pure [] := by
    rw [link, hforms]
    rfl
  rw [hlink]
  exact spends_pure rfl

end Walk

/-! ### A limit of zero -/

section Limit

variable {α : Type} {first : (size pos : Nat) → Prop} {free : α → Prop} {rule : ReadM α}
  {s : Reader} (allocator : Allocator)

theorem not_grants_zero {size : Nat} (hsize : 0 < size) :
    (Arena.withLimit 0 allocator).grants (Arena.withLimit 0 allocator).granted size = false :=
  allocator.meets_zero _ _ hsize

/-- The ledger of an arena that grew out of a single grant begins with it. -/
theorem first?_of_grown {arena : Arena} {size : Nat}
    (h : (Arena.grant { allocator } size).Grown arena) : arena.granted.first? = some size := by
  obtain ⟨later, hlater⟩ := h.sizes
  rw [Ledger.first?, ← hlater]
  exact List.getLast?_concat

theorem reserved_of_grown {arena : Arena} {size : Nat} (hsize : 0 < size)
    (h : (Arena.grant { allocator } size).Grown arena) : arena.isReserved = true :=
  decide_eq_true (Nat.lt_of_lt_of_le (allocator.holds_pos 0 {} size hsize) h.reserved)

/-- **A limit of zero** cuts a run at its first request. -/
theorem cutAtFirst_of_spends (hsteady : Steady rule) (h : Spends first free rule s) :
    CutAtFirst first ((s.withArena (.withLimit 0 allocator)).run rule)
      ((s.withArena { allocator }).run rule) := by
  cases h with
  | nothing hfrugal _ =>
    have hne (e : Exhausted) : (s.run rule).result ≠ .error (.exhausted e) := by
      have hfree := hsteady.result_ne_exhausted (s := s.withArena {}) Arena.unlimited_default e
      rwa [hfrugal] at hfree
    rw [hfrugal, hfrugal]
    exact ⟨⟨fun ⟨e, he⟩ => absurd he (hne e), nofun⟩, fun e he => absurd he (hne e),
      fun _ => ⟨rfl, rfl⟩⟩
  | @asks size t hfirst hasks =>
    have hcut := hasks.refused _ (not_grants_zero allocator hasks.pos)
    have hgrown := hasks.granted { allocator } rfl
    rw [hcut]
    refine ⟨⟨fun _ => reserved_of_grown allocator hasks.pos hgrown, fun _ => ⟨_, rfl⟩⟩, ?_, ?_⟩
    · rintro _ ⟨⟩
      exact ⟨rfl, first?_of_grown allocator hgrown, hfirst⟩
    · exact fun hne => absurd rfl (hne _)

/-- **Under a limit of zero** a free result is what remains. -/
theorem result_ok_iff_of_spends (h : Spends first free rule s)
    (hasked : ∀ size pos a, first size pos →
      ((s.withArena { allocator }).run rule).result = .ok a → ¬free a) :
    (∃ a, ((s.withArena (.withLimit 0 allocator)).run rule).result = .ok a) ↔
      ∃ a, ((s.withArena { allocator }).run rule).result = .ok a ∧ free a := by
  cases h with
  | nothing hfrugal hfree =>
    rw [hfrugal, hfrugal]
    rcases hrun : s.run rule with ⟨f | a, s'⟩
    · exact ⟨nofun, nofun⟩
    · exact ⟨fun _ => ⟨a, rfl, hfree a (congrArg Outcome.result hrun)⟩, fun _ => ⟨a, rfl⟩⟩
  | @asks size t hfirst hasks =>
    rw [hasks.refused _ (not_grants_zero allocator hasks.pos)]
    exact ⟨nofun, fun ⟨a, ha, hfree⟩ => absurd hfree (hasked _ _ a hfirst ha)⟩

end Limit

end Reader

/-! ### The layout of a free form -/

section Layout

variable {source blanks text rest : List Byte} {size pos : Nat}

/-- The separators in front of another byte are all those at the beginning. -/
theorem takeWhile_isSeparator {before behind : List Byte} {b : Byte}
    (hbefore : onlyOpens before) (hb : Byte.isSeparator b = false) :
    (before ++ b :: behind).takeWhile Byte.isSeparator = before := by
  refine takeWhile_run_append hbefore.isSeparator ?_
  rintro _ ⟨⟩
  exact hb

/-- **A free atom** leaves no place for a first request: what is asked for stands where the atom
does, or behind a bracket that is not there. -/
theorem FirstRequest.false_of_atom {a : Atom} (h : FirstRequest source size pos)
    (hblanks : allBlank blanks) (htext : LaidOut text (.atom a) rest)
    (hsource : source = blanks ++ (text ++ rest)) (hpayload : a.payload = 0) : False := by
  cases htext with
  | atom hspelling hend =>
  obtain ⟨b, bytes, rfl, hb⟩ := exists_cons_of_spelling hspelling
  have hfront : source.takeWhile Byte.isSeparator = blanks := by
    rw [hsource, List.cons_append]
    exact takeWhile_isSeparator (onlyOpens_of_allBlank hblanks) hb
  cases h with
  | @payload before text' behind a' hbefore htext' hpos hsource' =>
    cases htext' with
    | atom hspelling' hend' =>
    obtain ⟨b', bytes', rfl, hb'⟩ := exists_cons_of_spelling hspelling'
    rw [List.append_assoc] at hsource'
    have hfront' : source.takeWhile Byte.isSeparator = before := by
      rw [hsource', List.cons_append]
      exact takeWhile_isSeparator hbefore hb'
    -- both atoms are the one behind the blanks
    rw [hsource, ← hfront, hfront'] at hsource'
    have hahead := atomAhead?_of_spelling hspelling hend
    rw [List.append_cancel_left hsource', atomAhead?_of_spelling hspelling' hend'] at hahead
    obtain ⟨rfl, -⟩ := Prod.mk.inj (Option.some.inj hahead)
    omega
  | @head before blanks' text' behind bracket form hbefore _ _ _ hsource' =>
    have hmem : bracket.opening ∈ source.takeWhile Byte.isSeparator := by
      have hopens := onlyOpens_append.mpr ⟨hbefore, onlyOpens_opening bracket⟩
      have hsplit : source = before ++ [bracket.opening] ++ (blanks' ++ text' ++ behind) := by
        rw [hsource']
        simp
      rw [hsplit, List.takeWhile_append_of_pos hopens.isSeparator]
      simp
    rw [hfront] at hmem
    have hblank := hblanks _ hmem
    rw [Byte.isBlank_opening] at hblank
    cases hblank

/-- How many opening brackets there are. -/
def openings (bytes : List Byte) : Nat :=
  bytes.countP fun b => (Bracket.ofOpening? b).isSome

theorem openings_append (xs ys : List Byte) : openings (xs ++ ys) = openings xs + openings ys :=
  List.countP_append

theorem openings_opening (bracket : Bracket) (bytes : List Byte) :
    openings (bracket.opening :: bytes) = openings bytes + 1 :=
  List.countP_cons_of_pos (by simp)

theorem openings_closing (bracket : Bracket) (bytes : List Byte) :
    openings (bracket.closing :: bytes) = openings bytes :=
  List.countP_cons_of_neg (by simp)

theorem openings_of_allBlank {bytes : List Byte} (h : allBlank bytes) : openings bytes = 0 := by
  refine List.countP_eq_zero.mpr fun b hb hopening => ?_
  obtain ⟨bracket, hbracket⟩ := Option.isSome_iff_exists.mp hopening
  have hblank := h b hb
  rw [Bracket.ofOpening?_eq_some_iff.mp hbracket, Byte.isBlank_opening] at hblank
  cases hblank

section EmptyList

variable {inner : List Byte} (hblanks : allBlank blanks) (hinner : allBlank inner)
  (hrest : allBlank rest) (bracket : Bracket)

include hblanks hinner hrest

theorem isSeparator_of_emptyList :
    ∀ b ∈ blanks ++ (bracket.opening :: inner ++ [bracket.closing] ++ rest),
      Byte.isSeparator b = true := by
  intro b hb
  simp only [List.mem_append, List.mem_cons, List.not_mem_nil, or_false] at hb
  rcases hb with hb | ((rfl | hb) | rfl) | hb
  · exact Byte.isSeparator_of_isBlank (hblanks b hb)
  · exact Byte.isSeparator_opening bracket
  · exact Byte.isSeparator_of_isBlank (hinner b hb)
  · exact Byte.isSeparator_closing bracket
  · exact Byte.isSeparator_of_isBlank (hrest b hb)

theorem openings_of_emptyList :
    openings (blanks ++ (bracket.opening :: inner ++ [bracket.closing] ++ rest)) = 1 := by
  rw [openings_append, openings_append, List.cons_append, openings_opening, openings_append,
    openings_closing, openings_of_allBlank hblanks, openings_of_allBlank hinner,
    openings_of_allBlank hrest]
  rfl

end EmptyList

/-- An atom has a byte that is no separator. -/
theorem LaidOut.exists_of_atom {behind : List Byte} {a : Atom}
    (h : LaidOut text (.atom a) behind) : ∃ b ∈ text, Byte.isSeparator b = false := by
  cases h with
  | atom hspelling _ =>
    obtain ⟨b, bytes, rfl, hb⟩ := exists_cons_of_spelling hspelling
    exact ⟨b, List.mem_cons_self, hb⟩

/-- **The empty list** leaves no place for a first request: there is no text in it, and no
second bracket. -/
theorem FirstRequest.false_of_emptyList (h : FirstRequest source size pos)
    (hblanks : allBlank blanks) (htext : LaidOut text (.list []) rest) (hrest : allBlank rest)
    (hsource : source = blanks ++ (text ++ rest)) : False := by
  cases htext with
  | @list bracket inner _ _ hitems =>
  cases hitems with
  | nil hinner =>
  have hatom {before text behind : List Byte} {a : Atom} (htext : LaidOut text (.atom a) behind)
      (hsource' : source = before ++ text ++ behind) : False := by
    obtain ⟨b, hb, htoken⟩ := htext.exists_of_atom
    have hmem : b ∈ source := by
      rw [hsource']
      exact List.mem_append_left _ (List.mem_append_right _ hb)
    rw [hsource] at hmem
    rw [isSeparator_of_emptyList hblanks hinner hrest bracket b hmem] at htoken
    cases htoken
  cases h with
  | payload _ htext' _ hsource' => exact hatom htext' hsource'
  | @head _ _ _ _ _ form _ _ htext' _ hsource' =>
    cases form with
    | atom a => exact hatom htext' hsource'
    | list items =>
      cases htext' with
      | @list bracket' _ _ _ _ =>
      -- there is one opening bracket, and there would have to be two
      have hone := openings_of_emptyList hblanks hinner hrest bracket
      rw [← hsource, hsource', openings_append, openings_append, openings_append,
        openings_opening, List.cons_append, openings_opening] at hone
      omega

/-- **A free form** is laid out in sources that leave no place for a first request. -/
theorem FirstRequest.not_free {form : Form} (h : FirstRequest source size pos)
    (hlaysOut : LaysOut source form) : ¬form.Free := by
  obtain ⟨blanks, text, rest, hblanks, hrest, hsource, htext⟩ := exists_of_laysOut hlaysOut
  intro hfree
  cases hfree with
  | number n => exact h.false_of_atom hblanks htext hsource rfl
  | boolean b => exact h.false_of_atom hblanks htext hsource rfl
  | emptyString => exact h.false_of_atom hblanks htext hsource rfl
  | emptyList => exact h.false_of_emptyList hblanks htext hrest hsource

end Layout

/-! ### Entry points -/

namespace Reader

theorem opened_of_start {s : Reader} {source : List Byte} (h : s.cursor = Cursor.ofBytes source) :
    Opened source s ∧ s.passed = [] := by
  have hpassed : s.passed = [] := by
    rw [passed, pos, h]
    rfl
  refine ⟨⟨?_, ?_, ?_⟩, hpassed⟩
  · rw [h]
    rfl
  · rw [pos, h]
    exact Nat.zero_le _
  · rw [hpassed]
    intro b hb
    cases hb

end Reader

/-- **A limit of zero cuts a run at its first request**, and nowhere else.

Whatever the allocator, the source and the limit on nesting, an arena of no bytes is compared with
one without limit, in reading a form that is all there is and in reading all forms. The first run
fails for want of memory exactly if the second one holds any in the end, also where what it asked
for was for nothing. It was refused what the second run was granted first: the text of a symbol or a
string that is not empty, just behind it, or room for the first form of a list or for the first
form of all, just behind that form – but never a cell of a list. Otherwise the two have the same
result at the same position. So what is still read as a whole are the free forms. -/
theorem cut_at_first_request (allocator : Allocator) :
    (∀ (source : List Byte) (config : Config),
      CutAtFirst (FirstRequest source) (parseBytes source config (.withLimit 0 allocator))
        (parseBytes source config { allocator }) ∧
      ((∃ form, (parseBytes source config (.withLimit 0 allocator)).result = .ok form) ↔
        ∃ form, (parseBytes source config { allocator }).result = .ok form ∧ form.Free)) ∧
    (∀ (source : List Byte) (config : Config),
      CutAtFirst (FirstRequestOfAll source)
        (({ Reader.ofBytes source (.withLimit 0 allocator) with config } : Reader).run Reader.all)
        (({ Reader.ofBytes source { allocator } with config } : Reader).run Reader.all)) ∧
    ∀ text : String,
      CutAtFirst (FirstRequestOfAll (Text.bytes text)) (parseAll text (.withLimit 0 allocator))
        (parseAll text { allocator }) := by
  have hall (s : Reader) {source : List Byte} (hs : s.cursor = Cursor.ofBytes source) :
      CutAtFirst (FirstRequestOfAll source)
        ((s.withArena (.withLimit 0 allocator)).run Reader.all)
        ((s.withArena { allocator }).run Reader.all) :=
    have hstart := Reader.opened_of_start hs
    Reader.cutAtFirst_of_spends allocator Reader.steady_all (Reader.spends_all hstart.1 hstart.2)
  refine ⟨fun source config => ?_, fun source config => ?_, fun text => ?_⟩
  · have hstart := Reader.opened_of_start (s := parsing source config {}) rfl
    have hspends := Reader.spends_whole hstart.1
    have hcut := Reader.cutAtFirst_of_spends allocator Reader.steady_whole hspends
    refine ⟨⟨hcut.exhausted_iff, hcut.refused, hcut.same⟩, ?_⟩
    refine Reader.result_ok_iff_of_spends allocator hspends fun size pos form hfirst hok => ?_
    exact hfirst.not_free (Reader.laysOut_of_whole hok).1
  · exact hall { Reader.ofBytes source {} with config } rfl
  · let bytes := Text.bytes text
    exact hall ((Reader.ofBytes bytes).record (.parsingAll bytes.length)) rfl

/-- The inner list is closed by the wrong bracket, so nothing is read and what its head asked for
was for nothing. An arena of no bytes refuses it all the same. -/
example :
    (parse "((7]").result = .error .noMatch ∧ (parse "((7]").reader.arena.isReserved = true ∧
      (parse "((7]" {} (.withLimit 0)).result = .error (.exhausted ⟨Scratch.formWidth, 0⟩) ∧
      (parse "((7]" {} (.withLimit 0)).reader.pos = 3 := by
  decide +kernel

end FormReader
