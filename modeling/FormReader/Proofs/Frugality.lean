import FormReader.FirstRequest
import FormReader.Proofs.Unseen

/-!
# Until memory is asked for

Up to its first request a run does not depend on the arena at all. Some rules make none: another
arena is a change that they overlook, so their runs are the same in every arena and leave it as it
was (`FormReader.Reader.Quiet`). The rules for atoms make one at their very end, if any, for as
many bytes as the atom has text (`FormReader.Reader.Pays`). In general a run is quiet, or there is
a first request and the whole run says which: an arena that refuses it ends the run there, and one
that grants it keeps it in its ledger whatever comes later (`FormReader.Reader.AsksFirst`). Both
are inherited along sequences and choices, so a single pass over the rules finds the first request
of any run (`FormReader.Reader.Spends`).
-/

namespace FormReader

/-- An outcome with another arena behind it. -/
def Outcome.withArena {α : Type} (o : Outcome α) (arena : Arena) : Outcome α :=
  { o with reader := o.reader.withArena arena }

namespace Reader

variable {α β : Type}

/-! ### Runs without memory -/

/-- **Without memory**: a run is the same in every arena, and leaves it as it was. -/
def Frugal (rule : ReadM α) (s : Reader) : Prop :=
  ∀ arena, (s.withArena arena).run rule = (s.run rule).withArena arena

/-- **Quiet rules** run without memory wherever they are. -/
def Quiet (rule : ReadM α) : Prop :=
  ∀ s, Frugal rule s

section Frugal

variable {rule : ReadM α} {next : α → ReadM β} {s : Reader}

theorem frugal_of_run {o : Outcome α}
    (h : ∀ arena, (s.withArena arena).run rule = o.withArena arena) : Frugal rule s := by
  intro arena
  have hrun : s.run rule = o.withArena s.arena := h s.arena
  rw [h, hrun]
  rfl

theorem Frugal.bind (h : Frugal rule s)
    (hnext : ∀ a s', s.run rule = ⟨.ok a, s'⟩ → Frugal (next a) s') : Frugal (rule >>= next) s := by
  intro arena
  rw [run_bind, run_bind, h arena]
  rcases hrun : s.run rule with ⟨f | a, s'⟩
  · rfl
  · exact hnext a s' hrun arena

theorem Frugal.attempt (h : Frugal rule s) : Frugal (Reader.attempt rule) s := by
  intro arena
  rw [run_attempt, run_attempt, h arena]
  rcases s.run rule with ⟨f | a, s'⟩
  · by_cases hf : f = .noMatch
    · simp only [Outcome.withArena, if_pos hf]
      rfl
    · simp only [Outcome.withArena, if_neg hf]
  · rfl

end Frugal

/-! ### Rules that ask for nothing -/

section Quiet

variable {rule : ReadM α}

/-- Another arena cannot be seen without asking. -/
theorem unseen_withArena (arena : Arena) : Unseen (·.withArena arena) where
  cursor _ := rfl
  config _ := rfl
  move _ _ := rfl
  record _ _ := rfl

theorem Quiet.of_overlooks (h : ∀ arena, Overlooks (·.withArena arena) rule) : Quiet rule :=
  fun s arena => h arena s

theorem quiet_pure (a : α) : Quiet (pure a : ReadM α) := .of_overlooks fun _ => overlooks_pure a

theorem quiet_throw (f : Failure) : Quiet (throw f : ReadM α) :=
  .of_overlooks fun _ => overlooks_throw f

theorem quiet_found (found? : Option α) : Quiet (found found?) :=
  .of_overlooks fun _ => overlooks_found found?

theorem quiet_scan (move : Cursor → Option Cursor) : Quiet (scan move) :=
  .of_overlooks fun _ => overlooks_scan (unseen_withArena _) move

theorem quiet_scanned (move : Cursor → Option Cursor) : Quiet (scanned move) :=
  .of_overlooks fun _ => overlooks_scanned (unseen_withArena _) move

theorem quiet_token : Quiet token := .of_overlooks fun _ => overlooks_token (unseen_withArena _)

theorem quiet_slice (start stop : Nat) : Quiet (slice start stop) :=
  .of_overlooks fun _ => overlooks_slice (unseen_withArena _) start stop

theorem quiet_blanks : Quiet blanks := quiet_scan _

theorem quiet_number : Quiet number :=
  .of_overlooks fun _ => overlooks_number (unseen_withArena _)

theorem quiet_boolean : Quiet boolean :=
  .of_overlooks fun _ => overlooks_boolean (unseen_withArena _)

theorem quiet_openBracket : Quiet openBracket :=
  .of_overlooks fun _ => overlooks_openBracket (unseen_withArena _)

theorem quiet_closeBracket (bracket : Bracket) : Quiet (closeBracket bracket) :=
  .of_overlooks fun _ => overlooks_closeBracket (unseen_withArena _) bracket

theorem quiet_refuseNesting : Quiet refuseNesting :=
  .of_overlooks fun _ => overlooks_refuseNesting (unseen_withArena _)

theorem quiet_finish : Quiet finish := .of_overlooks fun _ => overlooks_finish (unseen_withArena _)

end Quiet

/-! ### A request -/

/-- Find something at the price of some bytes. -/
def buy (size : Nat) (a : α) : ReadM α :=
  ask (do Arena.reserve size; return a)

section Buy

variable {size : Nat} {a : α} {s : Reader}

theorem buy_zero (a : α) : buy 0 a = pure a := rfl

/-- **A refusal** ends the run, and nothing has changed but the record. -/
theorem run_buy_of_refused (hsize : 0 < size) {arena : Arena}
    (h : arena.grants arena.granted size = false) :
    (s.withArena arena).run (buy size a) =
      ⟨.error (.exhausted ⟨size, arena.reserved⟩),
        (s.record (.refused ⟨size, arena.reserved⟩)).withArena arena⟩ := by
  have hne : ¬size = 0 := Nat.pos_iff_ne_zero.mp hsize
  have hrequest : (do Arena.reserve size; return a : ArenaM α) arena =
      .error ⟨size, arena.reserved⟩ arena := by
    simp only [bind, EStateM.bind, Arena.reserve, Arena.request, h, if_neg hne,
      Bool.false_eq_true, if_false]
  have harena : (s.withArena arena).arena = arena := rfl
  rw [run, buy, ask, harena, hrequest]
  rfl

/-- **A grant** goes into the ledger. -/
theorem run_buy_of_granted (hsize : 0 < size) {arena : Arena}
    (h : arena.grants arena.granted size = true) :
    (s.withArena arena).run (buy size a) = ⟨.ok a, s.withArena (arena.grant size)⟩ := by
  have hne : ¬size = 0 := Nat.pos_iff_ne_zero.mp hsize
  have hrequest : (do Arena.reserve size; return a : ArenaM α) arena =
      .ok a (arena.grant size) := by
    simp only [bind, EStateM.bind, Arena.reserve, Arena.request, h, if_neg hne, if_true]
    rfl
  have harena : (s.withArena arena).arena = arena := rfl
  rw [run, buy, ask, harena, hrequest]
  rfl

end Buy

/-! ### Atoms -/

/-- **Paying at the end**: until the rule has found something its run is the same in every
arena, and then it asks for what this costs. -/
def Pays (cost : α → Nat) (rule : ReadM α) : Prop :=
  ∀ s : Reader,
    (∃ (f : Failure) (t : Reader), ∀ arena,
      (s.withArena arena).run rule = ⟨.error f, t.withArena arena⟩) ∨
    ∃ (a : α) (t : Reader), ∀ arena,
      (s.withArena arena).run rule = (t.withArena arena).run (buy (cost a) a)

section Pays

variable {cost : α → Nat} {cost' : β → Nat} {rule : ReadM α}

theorem pays_buy (a : α) : Pays cost (buy (cost a) a) :=
  fun s => Or.inr ⟨a, s, fun _ => rfl⟩

/-- What costs nothing can be found quietly. -/
theorem Quiet.pays (h : Quiet rule) (hcost : ∀ a, cost a = 0) : Pays cost rule := by
  intro s
  rcases hrun : s.run rule with ⟨f | a, t⟩
  · refine Or.inl ⟨f, t, fun arena => ?_⟩
    rw [h s arena, hrun]
    rfl
  · refine Or.inr ⟨a, t, fun arena => ?_⟩
    rw [h s arena, hrun, hcost, buy_zero]
    rfl

theorem pays_noMatch : Pays cost (throw .noMatch : ReadM α) := fun s =>
  Or.inl ⟨.noMatch, s, fun _ => rfl⟩

theorem Quiet.bindPays {rule : ReadM β} {next : β → ReadM α} (h : Quiet rule)
    (hnext : ∀ b, Pays cost (next b)) : Pays cost (rule >>= next) := by
  intro s
  have hbind (arena : Arena) := run_bind rule next (s.withArena arena)
  rcases hrun : s.run rule with ⟨f | b, s'⟩
  · refine Or.inl ⟨f, s', fun arena => ?_⟩
    rw [hbind, h s arena, hrun]
    rfl
  · have hrest (arena : Arena) : (s.withArena arena).run (rule >>= next) =
        (s'.withArena arena).run (next b) := by
      rw [hbind, h s arena, hrun]
      rfl
    simp only [hrest]
    exact hnext b s'

theorem Pays.look {next : Reader → ReadM α}
    (hsame : ∀ s arena, next (s.withArena arena) = next s) (hnext : ∀ s, Pays cost (next s)) :
    Pays cost (get >>= next) := by
  intro s
  have hrun (arena : Arena) : (s.withArena arena).run (get >>= next) =
      (s.withArena arena).run (next s) := by
    rw [← hsame s arena]
    rfl
  simp only [hrun]
  exact hnext s s

theorem Pays.ite {rule' : ReadM α} {c : Prop} [Decidable c] (h : Pays cost rule)
    (h' : Pays cost rule') : Pays cost (if c then rule else rule') := by
  split
  · exact h
  · exact h'

/-- **Choosing** among sorts: nothing is paid until one of them has been found. -/
theorem Pays.orElse {pick : Option α → ReadM β} {sort : α → β} (h : Pays cost rule)
    (hsome : ∀ a, pick (some a) = pure (sort a)) (hcost : ∀ a, cost' (sort a) = cost a)
    (hnone : Pays cost' (pick none)) : Pays cost' (Reader.attempt rule >>= pick) := by
  intro s
  have hchoice (arena : Arena) := run_bind (Reader.attempt rule) pick (s.withArena arena)
  simp only [run_attempt] at hchoice
  rcases h s with ⟨f, t, hfails⟩ | ⟨a, t, hfinds⟩
  · by_cases hf : f = .noMatch
    · have hrest (arena : Arena) : (s.withArena arena).run (Reader.attempt rule >>= pick) =
          ((t.rewind s.cursor).withArena arena).run (pick none) := by
        rw [hchoice, hfails]
        simp only [if_pos hf]
        rfl
      simp only [hrest]
      exact hnone (t.rewind s.cursor)
    · refine Or.inl ⟨f, t, fun arena => ?_⟩
      rw [hchoice, hfails]
      simp only [if_neg hf]
  · refine Or.inr ⟨sort a, t, fun arena => ?_⟩
    rw [hchoice, hfinds, hcost]
    rcases Nat.eq_zero_or_pos (cost a) with hzero | hpos
    · rw [hzero, buy_zero, buy_zero]
      change (t.withArena arena).run (pick (some a)) = _
      rw [hsome]
    · cases hgrants : arena.grants arena.granted (cost a) with
      | false =>
        rw [run_buy_of_refused hpos hgrants, run_buy_of_refused hpos hgrants]
        rfl
      | true =>
        rw [run_buy_of_granted hpos hgrants, run_buy_of_granted hpos hgrants]
        change (t.withArena (arena.grant (cost a))).run (pick (some a)) = _
        rw [hsome]
        rfl

end Pays

theorem pays_text (bytes : List Byte) : Pays String.utf8ByteSize (text bytes) :=
  (quiet_found _).bindPays fun s => pays_buy s

theorem pays_string : Pays String.utf8ByteSize string := by
  refine quiet_blanks.bindPays fun _ => (quiet_scan _).bindPays fun _ =>
    (quiet_scanned _).bindPays fun isEmpty => Pays.ite (pays_buy "") ?_
  refine Pays.look (fun _ _ => rfl) fun _ => (quiet_scan _).bindPays fun _ => ?_
  refine Pays.look (fun _ _ => rfl) fun _ => (quiet_scan _).bindPays fun _ => ?_
  exact (quiet_slice _ _).bindPays fun bytes => pays_text bytes

theorem pays_symbol : Pays String.utf8ByteSize symbol := by
  have hname : Pays String.utf8ByteSize
      (do
        let name ← token
        if name.isEmpty then throw .noMatch
        text name) := by
    refine quiet_token.bindPays fun name => Pays.ite ?_ (pays_text name)
    exact (quiet_throw _).bindPays fun _ => pays_text name
  refine quiet_blanks.bindPays fun _ => Pays.look (fun _ _ => rfl) fun s => ?_
  exact Pays.ite ((quiet_throw _).bindPays fun _ => hname) hname

/-- **An atom** costs as much as it has text. -/
theorem pays_atom : Pays Atom.payload atom := by
  refine (quiet_number.pays fun _ => rfl).orElse (fun _ => rfl) (fun _ => rfl) ?_
  refine (quiet_boolean.pays fun _ => rfl).orElse (fun _ => rfl) (fun _ => rfl) ?_
  refine pays_string.orElse (fun _ => rfl) (fun _ => rfl) ?_
  exact pays_symbol.orElse (fun _ => rfl) (fun _ => rfl) pays_noMatch

/-! ### First requests -/

/-- **A first request** of a run: at `t` it asks for `size` bytes. An arena that refuses them
ends the run there, and one that grants them has granted them before anything else. -/
structure AsksFirst (rule : ReadM α) (s : Reader) (size : Nat) (t : Reader) : Prop where
  pos : 0 < size
  refused : ∀ arena : Arena, arena.grants arena.granted size = false →
    (s.withArena arena).run rule =
      ⟨.error (.exhausted ⟨size, arena.reserved⟩),
        (t.record (.refused ⟨size, arena.reserved⟩)).withArena arena⟩
  granted : ∀ arena : Arena, arena.grants arena.granted size = true →
    (arena.grant size).Grown ((s.withArena arena).run rule).reader.arena

/-- **Spending**: a run goes without memory and what it finds is `free`, or it asks for some
and the first time it does so is known, by the size and the position. -/
inductive Spends (first : (size pos : Nat) → Prop) (free : α → Prop) (rule : ReadM α)
    (s : Reader) : Prop where
  | nothing : Frugal rule s → (∀ a, (s.run rule).result = .ok a → free a) →
      Spends first free rule s
  | asks {size : Nat} {t : Reader} :
      first size t.pos → AsksFirst rule s size t → Spends first free rule s

section Spends

variable {first : (size pos : Nat) → Prop} {free : α → Prop} {free' : β → Prop}
  {rule : ReadM α} {next : α → ReadM β} {s t : Reader} {size : Nat}

/-- Only what happens in every arena matters. -/
theorem AsksFirst.congr {rule' : ReadM α} {s' : Reader} (h : AsksFirst rule' s' size t)
    (hrun : ∀ arena, (s.withArena arena).run rule = (s'.withArena arena).run rule') :
    AsksFirst rule s size t where
  pos := h.pos
  refused arena hgrants := (hrun arena).trans (h.refused arena hgrants)
  granted arena hgrants := by
    rw [hrun]
    exact h.granted arena hgrants

/-- What is bought may depend on the allocator, its price does not. -/
theorem AsksFirst.of_buy (hsize : 0 < size) {a : Allocator → α}
    (hrun : ∀ arena,
      (s.withArena arena).run rule = (t.withArena arena).run (buy size (a arena.allocator))) :
    AsksFirst rule s size t where
  pos := hsize
  refused arena hgrants := (hrun arena).trans (run_buy_of_refused hsize hgrants)
  granted arena hgrants := by
    rw [hrun, run_buy_of_granted hsize hgrants]
    exact .refl _

/-- The first request stays the first one, whatever comes later. -/
theorem AsksFirst.bind (h : AsksFirst rule s size t) (hnext : ∀ a, Steady (next a)) :
    AsksFirst (rule >>= next) s size t := by
  refine ⟨h.pos, fun arena hgrants => ?_, fun arena hgrants => ?_⟩
  · rw [run_bind, h.refused arena hgrants]
  · have hgrown := h.granted arena hgrants
    rw [run_bind]
    rcases hrun : (s.withArena arena).run rule with ⟨f | a, s'⟩
    · rw [hrun] at hgrown
      exact hgrown
    · rw [hrun] at hgrown
      exact hgrown.trans ((hnext a).follows_run s').arena

theorem AsksFirst.attempt (h : AsksFirst rule s size t) :
    AsksFirst (Reader.attempt rule) s size t := by
  refine ⟨h.pos, fun arena hgrants => ?_, fun arena hgrants => ?_⟩
  · rw [run_attempt, h.refused arena hgrants]
    exact if_neg nofun
  · have hgrown := h.granted arena hgrants
    rw [run_attempt]
    rcases hrun : (s.withArena arena).run rule with ⟨f | a, s'⟩
    · rw [hrun] at hgrown
      by_cases hf : f = .noMatch
      · simp only [if_pos hf]
        exact hgrown
      · simp only [if_neg hf]
        exact hgrown
    · rw [hrun] at hgrown
      exact hgrown

theorem Spends.imp {first' : (size pos : Nat) → Prop} (h : Spends first free rule s)
    (hfirst : ∀ size pos, first size pos → first' size pos) : Spends first' free rule s := by
  cases h with
  | nothing hfrugal hfree => exact .nothing hfrugal hfree
  | asks hasked hasks => exact .asks (hfirst _ _ hasked) hasks

theorem Spends.congr {rule' : ReadM α} {s' : Reader} (h : Spends first free rule' s')
    (hrun : ∀ arena, (s.withArena arena).run rule = (s'.withArena arena).run rule') :
    Spends first free rule s := by
  cases h with
  | nothing hfrugal hfree =>
    have hfrom (arena : Arena) : (s.withArena arena).run rule = (s'.run rule').withArena arena :=
      (hrun arena).trans (hfrugal arena)
    refine .nothing (frugal_of_run hfrom) fun a ha => hfree a ?_
    have hresult : s.run rule = (s'.run rule').withArena s.arena := hfrom s.arena
    rw [hresult] at ha
    exact ha
  | asks hasked hasks => exact .asks hasked (hasks.congr hrun)

theorem Quiet.spends (h : Quiet rule) (hfree : ∀ a, (s.run rule).result = .ok a → free a) :
    Spends first free rule s := .nothing (h s) hfree

theorem spends_pure {a : α} (h : free a) : Spends first free (pure a) s :=
  (quiet_pure a).spends fun b hb => by
    cases hb
    exact h

/-- **A sequence** spends nothing, or asks first where one of its parts does. -/
theorem Spends.bind (h : Spends first free rule s) (hsteady : ∀ a, Steady (next a))
    (hnext : ∀ a s', s.run rule = ⟨.ok a, s'⟩ → free a → Spends first free' (next a) s') :
    Spends first free' (rule >>= next) s := by
  cases h with
  | nothing hfrugal hfree =>
    rcases hrun : s.run rule with ⟨f | a, s'⟩
    · refine .nothing (hfrugal.bind fun a s' ha => ?_) fun b hb => ?_
      · rw [hrun] at ha
        cases ha
      · rw [run_bind, hrun] at hb
        cases hb
    · refine (hnext a s' hrun (hfree a (congrArg Outcome.result hrun))).congr fun arena => ?_
      rw [run_bind, hfrugal arena, hrun]
      rfl
  | asks hfirst hasks => exact .asks hfirst (hasks.bind hsteady)

/-- **A choice** spends nothing on a rule that does not match, or asks first where the rule
does. -/
theorem Spends.choice {pick : Option α → ReadM β} (h : Spends first free rule s)
    (hsteady : ∀ a?, Steady (pick a?))
    (hsome : ∀ a s', s.run rule = ⟨.ok a, s'⟩ → free a → Spends first free' (pick (some a)) s')
    (hnone : ∀ s', s.run rule = ⟨.error .noMatch, s'⟩ →
      Spends first free' (pick none) (s'.rewind s.cursor)) :
    Spends first free' (Reader.attempt rule >>= pick) s := by
  cases h with
  | nothing hfrugal hfree =>
    have hattempt : Spends first (fun _ => True) (Reader.attempt rule) s :=
      .nothing hfrugal.attempt fun _ _ => trivial
    refine hattempt.bind hsteady fun a? s' ha? _ => ?_
    obtain ⟨a, rfl, hrun⟩ | ⟨t, rfl, hrun, rfl⟩ := exists_of_run_attempt ha?
    · exact hsome a s' hrun (hfree a (congrArg Outcome.result hrun))
    · exact hnone t hrun
  | asks hfirst hasks => exact .asks hfirst (hasks.attempt.bind hsteady)

theorem Spends.look {next : Reader → ReadM α}
    (hsame : ∀ arena, next (s.withArena arena) = next s) (h : Spends first free (next s) s) :
    Spends first free (get >>= next) s := by
  refine h.congr fun arena => ?_
  rw [← hsame arena]
  rfl

/-- **A repetition** spends nothing if its first round finds nothing, or asks first where the
first round does. -/
theorem Spends.gather {next : ReadM (Option β)} {keep : α → β → ReadM α} {acc : α}
    (h : Spends first (fun found => found.2 = false ∧ free found.1) (gatherOne next keep acc) s)
    (hnext : Steady next) (hkeep : ∀ acc item, Steady (keep acc item)) :
    Spends first free (gather next keep acc) s := by
  cases h with
  | nothing hfrugal hfree =>
    rcases hrun : s.run (gatherOne next keep acc) with ⟨f | ⟨acc', more⟩, s'⟩
    · refine .nothing (fun arena => ?_) fun a ha => ?_
      · rw [run_gather, run_gather, hfrugal arena, hrun]
        rfl
      · rw [run_gather, hrun] at ha
        cases ha
    · obtain ⟨hmore, hacc⟩ := hfree _ (congrArg Outcome.result hrun)
      dsimp only at hmore hacc
      subst hmore
      refine .nothing (fun arena => ?_) fun a ha => ?_
      · rw [run_gather, run_gather, hfrugal arena, hrun]
        rfl
      · rw [run_gather, hrun] at ha
        cases ha
        exact hacc
  | asks hfirst hasks =>
    refine .asks hfirst ⟨hasks.pos, fun arena hgrants => ?_, fun arena hgrants => ?_⟩
    · rw [run_gather, hasks.refused arena hgrants]
    · have hgrown := hasks.granted arena hgrants
      rw [run_gather]
      rcases hrun : (s.withArena arena).run (gatherOne next keep acc) with ⟨f | ⟨acc', more⟩, s'⟩
      · rw [hrun] at hgrown
        exact hgrown
      · rw [hrun] at hgrown
        dsimp only
        split
        · exact hgrown.trans ((hnext.gather hkeep acc').follows_run s').arena
        · exact hgrown

end Spends

end Reader

end FormReader
