import FormReader.Cursor.Lemmas
import FormReader.Proofs.Memory
import FormReader.Reader.Basic

/-!
# What comes of a rule

A rule either finds something or fails, and leaves a reader behind in both cases.
`FormReader.Reader.Ends` states what is known of the two outcomes side by side, and there
is one equivalence for each way in which rules are put together: a sequence ends well when
its first part ends in readers from which the second ends well
(`FormReader.Reader.ends_bind`), a choice turns one sort of failure into an answer
(`FormReader.Reader.ends_attempt`), and a repetition is described by an invariant
(`FormReader.Reader.Ends.gather`). Reading these equivalences from left to right takes a
rule apart without opening any definition of it.

The second half is about what *no* rule changes. `FormReader.Reader.Follows` says that a
reader came out of another one by running a rule: it has the same source, the same settings
and the same arena but for what was granted since, its cursor is not further back, and what was
recorded before is recorded still. `FormReader.Reader.Steady` is the corresponding property of
rules, and it is inherited along sequences, choices and repetitions.
-/

namespace FormReader

namespace Reader

variable {α β : Type}

/-- The reader with another arena. -/
def withArena (s : Reader) (arena : Arena) : Reader := { s with arena }

/-! ### Outcomes -/

/-- **What comes of a rule**: `good` holds of what it finds and the reader behind it, or
`bad` of its failure and the reader behind that. -/
def Ends (rule : ReadM α) (s : Reader) (good : α → Reader → Prop)
    (bad : Failure → Reader → Prop) : Prop :=
  match rule s with
  | .ok a s' => good a s'
  | .error f s' => bad f s'

section Outcomes

variable {rule : ReadM α} {s s' : Reader} {good good' : α → Reader → Prop}
  {bad bad' : Failure → Reader → Prop} {a : α} {f : Failure}

theorem Ends.of_ok (h : Ends rule s good bad) (hr : rule s = .ok a s') : good a s' := by
  rw [Ends, hr] at h
  exact h

theorem Ends.of_error (h : Ends rule s good bad) (hr : rule s = .error f s') : bad f s' := by
  rw [Ends, hr] at h
  exact h

/-- What is known of the two outcomes may be weakened. -/
theorem Ends.imp (h : Ends rule s good bad) (hgood : ∀ a s', good a s' → good' a s')
    (hbad : ∀ f s', bad f s' → bad' f s') : Ends rule s good' bad' := by
  rw [Ends] at h ⊢
  split
  · next a s' hr =>
    rw [hr] at h
    exact hgood a s' h
  · next f s' hr =>
    rw [hr] at h
    exact hbad f s' h

/-- What is known of every outcome is known of the two. -/
theorem ends_of_forall (hgood : ∀ a s', good a s') (hbad : ∀ f s', bad f s') :
    Ends rule s good bad := by
  rw [Ends]
  split
  · exact hgood _ _
  · exact hbad _ _

/-- What is known twice is known at once. -/
theorem Ends.and (h : Ends rule s good bad) (h' : Ends rule s good' bad') :
    Ends rule s (fun a s' => good a s' ∧ good' a s') (fun f s' => bad f s' ∧ bad' f s') := by
  rw [Ends] at h h' ⊢
  split
  · next a s' hr =>
    rw [hr] at h h'
    exact ⟨h, h'⟩
  · next f s' hr =>
    rw [hr] at h h'
    exact ⟨h, h'⟩

/-- A run of a rule that is known to find something. -/
theorem run_of_ok (h : rule s = .ok a s') : s.run rule = ⟨.ok a, s'⟩ := by
  rw [Reader.run, h]

/-- A run of a rule that is known to fail. -/
theorem run_of_error (h : rule s = .error f s') : s.run rule = ⟨.error f, s'⟩ := by
  rw [Reader.run, h]

/-- A run of which nothing is known but the result. -/
theorem run_of_result {result : Except Failure α} (h : (s.run rule).result = result) :
    s.run rule = ⟨result, (s.run rule).reader⟩ := by
  rw [← h]

/-- What is known of a success holds of the result of a run. -/
theorem Ends.of_result_ok (h : Ends rule s good bad) (hr : (s.run rule).result = .ok a) :
    good a (s.run rule).reader := by
  rw [Reader.run] at hr ⊢
  split at hr
  · next b s' hb =>
    cases hr
    exact h.of_ok hb
  · cases hr

theorem Ends.of_run_ok (h : Ends rule s good bad) (hr : s.run rule = ⟨.ok a, s'⟩) : good a s' := by
  have hgood := h.of_result_ok (congrArg Outcome.result hr)
  rwa [hr] at hgood

/-- What is known of a failure holds of the result of a run. -/
theorem Ends.of_result_error (h : Ends rule s good bad) (hr : (s.run rule).result = .error f) :
    bad f (s.run rule).reader := by
  rw [Reader.run] at hr ⊢
  split at hr
  · cases hr
  · next g s' hg =>
    cases hr
    exact h.of_error hg

/-- What is known of both readers holds of the one behind a run. -/
theorem Ends.run_reader {known : Reader → Prop}
    (h : Ends rule s (fun _ s' => known s') fun _ s' => known s') : known (s.run rule).reader := by
  rw [Reader.run]
  split
  · next a s' ha => exact h.of_ok ha
  · next f s' hf => exact h.of_error hf

/-- The result of a rule of which both outcomes are known, and what decides between them. -/
theorem Ends.result_eq_ite {n limit : Nat}
    (h : Ends rule s (fun b _ => n ≤ limit ∧ b = a) fun g _ => limit < n ∧ g = f) :
    (s.run rule).result = if n ≤ limit then .ok a else .error f := by
  rw [Reader.run]
  split
  · next b s' hb =>
    obtain ⟨hfits, rfl⟩ := h.of_ok hb
    rw [if_pos hfits]
  · next g s' hg =>
    obtain ⟨hdeep, rfl⟩ := h.of_error hg
    rw [if_neg (Nat.not_le.mpr hdeep)]

end Outcomes

/-! ### Outcomes of composed rules -/

section Composition

variable {rule : ReadM α} {next : α → ReadM β} {s : Reader}

@[simp] theorem ends_pure {a : α} {good : α → Reader → Prop} {bad : Failure → Reader → Prop} :
    Ends (pure a) s good bad ↔ good a s := Iff.rfl

@[simp] theorem ends_throw {f : Failure} {good : α → Reader → Prop}
    {bad : Failure → Reader → Prop} : Ends (throw f) s good bad ↔ bad f s := Iff.rfl

@[simp] theorem ends_get {good : Reader → Reader → Prop} {bad : Failure → Reader → Prop} :
    Ends get s good bad ↔ good s s := Iff.rfl

@[simp] theorem ends_observe {e : Event} {good : Unit → Reader → Prop}
    {bad : Failure → Reader → Prop} : Ends (observe e) s good bad ↔ good () (s.record e) :=
  Iff.rfl

/-- **A sequence** ends well when its first part ends where the second one ends well. -/
@[simp] theorem ends_bind {good : β → Reader → Prop} {bad : Failure → Reader → Prop} :
    Ends (rule >>= next) s good bad ↔
      Ends rule s (fun a s' => Ends (next a) s' good bad) bad := by
  simp only [Ends, bind, EStateM.bind]
  cases rule s <;> rfl

/-- **A choice** answers where the rule does not match. -/
@[simp] theorem ends_attempt {good : Option α → Reader → Prop} {bad : Failure → Reader → Prop} :
    Ends (attempt rule) s good bad ↔
      Ends rule s (fun a s' => good (some a) s') fun f s' =>
        if f = .noMatch then good none (s'.rewind s.cursor) else bad f s' := by
  simp only [Ends, attempt]
  rcases rule s with ⟨a, s'⟩ | ⟨_ | _ | _ | _, s'⟩ <;> rfl

@[simp] theorem ends_scan {move : Cursor → Option Cursor} {good : Unit → Reader → Prop}
    {bad : Failure → Reader → Prop} :
    Ends (scan move) s good bad ↔
      match move s.cursor with
      | some cursor => good () { s with cursor }
      | none => bad .noMatch s := by
  rw [Ends, scan]
  cases move s.cursor <;> rfl

@[simp] theorem ends_scanned {move : Cursor → Option Cursor} {good : Bool → Reader → Prop}
    {bad : Failure → Reader → Prop} :
    Ends (scanned move) s good bad ↔
      match move s.cursor with
      | some cursor => good true { s with cursor }
      | none => good false s := by
  rw [Ends, scanned]
  cases move s.cursor <;> rfl

@[simp] theorem ends_token {good : List Byte → Reader → Prop} {bad : Failure → Reader → Prop} :
    Ends token s good bad ↔
      match s.cursor.token? with
      | some (token, cursor) => good token { s with cursor }
      | none => bad .outOfRange s := by
  rw [Ends, token]
  cases s.cursor.token? <;> rfl

@[simp] theorem ends_slice {start stop : Nat} {good : List Byte → Reader → Prop}
    {bad : Failure → Reader → Prop} :
    Ends (slice start stop) s good bad ↔
      match s.cursor.slice? start stop with
      | some bytes => good bytes s
      | none => bad .outOfRange s := by
  rw [Ends, slice]
  cases s.cursor.slice? start stop <;> rfl

@[simp] theorem ends_found {found? : Option α} {good : α → Reader → Prop}
    {bad : Failure → Reader → Prop} :
    Ends (found found?) s good bad ↔
      match found? with
      | some a => good a s
      | none => bad .noMatch s := by
  cases found? <;> rfl

@[simp] theorem ends_ask {request : ArenaM α} {good : α → Reader → Prop}
    {bad : Failure → Reader → Prop} :
    Ends (ask request) s good bad ↔
      match request s.arena with
      | .ok a arena => good a { s with arena }
      | .error e arena => bad (.exhausted e) (record (.refused e) { s with arena }) := by
  rw [Ends, ask]
  cases request s.arena <;> rfl

end Composition

/-! ### Outcomes of repetitions -/

section Repetition

variable {next : ReadM (Option β)} {keep : α → β → ReadM α} {inv good : α → Reader → Prop}
  {bad : Failure → Reader → Prop}

/-- What one round of a repetition has to do for an invariant: where nothing is found the
repetition is over, and where an item is kept the invariant holds again – and either the
cursor has moved, or the repetition may just as well be over. -/
def Round (next : ReadM (Option β)) (keep : α → β → ReadM α) (inv good : α → Reader → Prop)
    (bad : Failure → Reader → Prop) : Prop :=
  ∀ acc s, inv acc s →
    Ends next s
      (fun item? s' => match item? with
        | none => good acc s'
        | some item => Ends (keep acc item) s'
            (fun acc' s'' => inv acc' s'' ∧ (s''.cursor.left < s.cursor.left ∨ good acc' s'')) bad)
      bad

theorem Round.gatherOne (round : Round next keep inv good bad) {acc : α} {s : Reader}
    (h : inv acc s) :
    Ends (gatherOne next keep acc) s
      (fun found s' => if found.2 then
          inv found.1 s' ∧ (s'.cursor.left < s.cursor.left ∨ good found.1 s')
        else good found.1 s') bad := by
  rw [Reader.gatherOne, ends_bind]
  refine (round acc s h).imp (fun item? s' hitem => ?_) fun f s' hf => hf
  rcases item? with _ | item
  · exact hitem
  · rw [ends_bind]
    exact hitem.imp (fun acc' s'' hkeep => hkeep) fun f s'' hf => hf

/-- **A repetition** ends well when every round of it does. -/
theorem Ends.gather (round : Round next keep inv good bad) (acc : α) (s : Reader)
    (h : inv acc s) : Ends (gather next keep acc) s good bad := by
  induction acc, s using gather.induct next keep with
  | case1 acc s f s' hone =>
    have hend := (round.gatherOne h).of_error hone
    rw [Ends, Reader.gather, hone]
    exact hend
  | case2 acc s acc' more s' hone hgo ih =>
    have hend := (round.gatherOne h).of_ok hone
    rw [Ends, Reader.gather, hone]
    simp only [hgo, and_self, ↓reduceIte] at hend ⊢
    exact ih hend.1
  | case3 acc s acc' more s' hone hstop =>
    have hend := (round.gatherOne h).of_ok hone
    rw [Ends, Reader.gather, hone]
    simp only [hstop, ↓reduceIte]
    cases more with
    | false => exact hend
    | true =>
      -- an item that did not move the cursor is the last one
      obtain ⟨-, hmoved | hgood⟩ := hend
      · exact absurd ⟨rfl, hmoved⟩ hstop
      · exact hgood

end Repetition

/-! ### What no rule changes -/

/-- **Going on**: one reader came out of another, its cursor is not further back, nothing that
was recorded is lost, and the cursor has not left the source. -/
structure Onward (s s' : Reader) : Prop where
  source : s'.cursor.source = s.cursor.source
  pos : s.pos ≤ s'.pos
  arena : s.arena.Grown s'.arena
  log : s.log <:+ s'.log
  inRange : s.pos ≤ s.cursor.source.size → s'.pos ≤ s'.cursor.source.size

/-- **Going on without a change of settings**, as an action does. -/
structure Keeps (s s' : Reader) : Prop extends Onward s s' where
  config : s'.config = s.config

/-- **Following**: one reader came out of another by running a rule, which does not know of
iteration. -/
structure Follows (s s' : Reader) : Prop extends Keeps s s' where
  halted : s'.halted = s.halted

theorem Onward.refl (s : Reader) : Onward s s :=
  ⟨rfl, Nat.le_refl _, .refl _, List.suffix_refl _, id⟩

theorem Onward.trans {s s' s'' : Reader} (h : Onward s s') (h' : Onward s' s'') :
    Onward s s'' where
  source := h'.source.trans h.source
  pos := Nat.le_trans h.pos h'.pos
  arena := h.arena.trans h'.arena
  log := h.log.trans h'.log
  inRange := fun hs => h'.inRange (h.inRange hs)

/-- A reader in the source has gone on by as many bytes as it has passed. -/
theorem Onward.pos_eq {s s' : Reader} {passed : List Byte} (h : Onward s s')
    (hs : s.pos ≤ s.cursor.source.size) (hrest : s.cursor.rest = passed ++ s'.cursor.rest) :
    s'.pos = s.pos + passed.length := by
  have hs' := h.inRange hs
  have hlength := congrArg List.length hrest
  rw [List.length_append, Cursor.length_rest, Cursor.length_rest, Cursor.left, Cursor.left,
    h.source] at hlength
  rw [h.source] at hs'
  simp only [Reader.pos] at hs hs' ⊢
  omega

theorem Keeps.refl (s : Reader) : Keeps s s := ⟨Onward.refl s, rfl⟩

theorem Keeps.trans {s s' s'' : Reader} (h : Keeps s s') (h' : Keeps s' s'') : Keeps s s'' :=
  ⟨h.toOnward.trans h'.toOnward, h'.config.trans h.config⟩

/-- Going back to the cursor of the reader that was gone on from is going on still. -/
theorem Keeps.rewind {s s' : Reader} (h : Keeps s s') : Keeps s (s'.rewind s.cursor) :=
  ⟨⟨rfl, Nat.le_refl _, h.arena, h.log.trans (List.suffix_cons _ _), id⟩, h.config⟩

theorem Follows.refl (s : Reader) : Follows s s := ⟨Keeps.refl s, rfl⟩

theorem Follows.trans {s s' s'' : Reader} (h : Follows s s') (h' : Follows s' s'') :
    Follows s s'' :=
  ⟨h.toKeeps.trans h'.toKeeps, h'.halted.trans h.halted⟩

theorem Follows.rewind {s s' : Reader} (h : Follows s s') : Follows s (s'.rewind s.cursor) :=
  ⟨h.toKeeps.rewind, h.halted⟩

theorem follows_record (e : Event) (s : Reader) : Follows s (s.record e) :=
  ⟨⟨⟨rfl, Nat.le_refl _, .refl _, List.suffix_cons _ _, id⟩, rfl⟩, rfl⟩

theorem Follows.unlimited {s s' : Reader} (h : Follows s s') (hs : s.arena.Unlimited) :
    s'.arena.Unlimited :=
  h.arena.unlimited hs

/-- **Steadiness**: a rule leaves a reader that follows the one it was run on, and it does
not run out of memory where there is no limit. -/
def Steady (rule : ReadM α) : Prop :=
  ∀ s, Ends rule s (fun _ s' => Follows s s') fun f s' =>
    Follows s s' ∧ (s.arena.Unlimited → ∀ e, f ≠ .exhausted e)

section Steadiness

variable {rule : ReadM α} {s s' : Reader}

theorem Steady.follows_of_ok {a : α} (h : Steady rule) (hr : rule s = .ok a s') : Follows s s' :=
  (h s).of_ok hr

theorem steady_pure (a : α) : Steady (pure a : ReadM α) := fun s => Follows.refl s

theorem steady_throw {f : Failure} (hf : ∀ e, f ≠ .exhausted e) :
    Steady (throw f : ReadM α) := fun s => ⟨Follows.refl s, fun _ => hf⟩

theorem steady_noMatch : Steady (throw .noMatch : ReadM α) := steady_throw nofun

theorem steady_get : Steady (get : ReadM Reader) := fun s => Follows.refl s

theorem steady_observe (e : Event) : Steady (observe e) := follows_record e

theorem Steady.bind {next : α → ReadM β} (h : Steady rule) (hnext : ∀ a, Steady (next a)) :
    Steady (rule >>= next) := by
  intro s
  rw [ends_bind]
  refine (h s).imp (fun a s' hs => ?_) fun f s' hs => hs
  refine (hnext a s').imp (fun b s'' hs' => hs.trans hs') fun f s'' hs' => ?_
  exact ⟨hs.trans hs'.1, fun hu => hs'.2 (hs.unlimited hu)⟩

theorem Steady.attempt (h : Steady rule) : Steady (attempt rule) := by
  intro s
  rw [ends_attempt]
  refine (h s).imp (fun a s' hs => hs) fun f s' hs => ?_
  split
  · exact hs.1.rewind
  · exact hs

/-- What is done in one case may also be what is done at the end of the other. -/
theorem Steady.ite {rule' : ReadM α} {c : Prop} [Decidable c] (h : Steady rule)
    (h' : Steady rule → Steady rule') : Steady (if c then rule else rule') := by
  split
  · exact h
  · exact h' h

/-- Choosing between what follows a rule and what is done where it does not match. -/
theorem Steady.choice {pick : Option α → ReadM β} (h : Steady rule)
    (hsome : ∀ a, Steady (pick (some a))) (hnone : Steady (pick none)) :
    Steady (Reader.attempt rule >>= pick) := by
  refine h.attempt.bind fun a? => ?_
  rcases a? with _ | a
  · exact hnone
  · exact hsome a

theorem Steady.gather {next : ReadM (Option β)} {keep : α → β → ReadM α} (hnext : Steady next)
    (hkeep : ∀ acc item, Steady (keep acc item)) (acc : α) : Steady (gather next keep acc) := by
  intro s
  -- following the reader that the repetition began with is the invariant
  have round : Round next keep (fun _ s' => Follows s s') (fun _ s' => Follows s s') fun f s' =>
      Follows s s' ∧ (s.arena.Unlimited → ∀ e, f ≠ .exhausted e) := by
    intro acc s₁ h₁
    refine (hnext s₁).imp (fun item? s₂ h₂ => ?_) fun f s₂ h₂ =>
      ⟨h₁.trans h₂.1, fun hu => h₂.2 (h₁.unlimited hu)⟩
    rcases item? with _ | item
    · exact h₁.trans h₂
    · refine (hkeep acc item s₂).imp (fun acc' s₃ h₃ => ?_) fun f s₃ h₃ => ?_
      · exact ⟨(h₁.trans h₂).trans h₃, Or.inr ((h₁.trans h₂).trans h₃)⟩
      · exact ⟨(h₁.trans h₂).trans h₃.1, fun hu => h₃.2 ((h₁.trans h₂).unlimited hu)⟩
  exact Ends.gather round acc s (Follows.refl s)

theorem steady_found (found? : Option α) : Steady (found found?) := by
  rcases found? with _ | a
  · exact steady_noMatch
  · exact steady_pure a

/-- A move that only ever goes forward, over bytes that are there, leads to a reader that
follows. -/
theorem Follows.advance {s : Reader} {cursor : Cursor} {n : Nat} (hn : n ≤ s.cursor.left)
    (h : cursor = s.cursor.advance n) : Follows s { s with cursor } := by
  subst h
  refine ⟨⟨⟨rfl, Nat.le_add_right _ _, .refl _, List.suffix_refl _, fun hs => ?_⟩, rfl⟩, rfl⟩
  rw [pos] at hs
  rw [Cursor.left] at hn
  simp only [pos, Cursor.pos_advance, Cursor.source_advance]
  omega

theorem steady_scan {move : Cursor → Option Cursor}
    (hmove : ∀ c d, move c = some d → ∃ n ≤ c.left, d = c.advance n) : Steady (scan move) := by
  intro s
  rw [ends_scan]
  rcases hm : move s.cursor with _ | cursor
  · exact ⟨Follows.refl s, fun _ _ => nofun⟩
  · obtain ⟨n, hn, hcursor⟩ := hmove _ _ hm
    exact Follows.advance hn hcursor

theorem steady_scanned {move : Cursor → Option Cursor}
    (hmove : ∀ c d, move c = some d → ∃ n ≤ c.left, d = c.advance n) : Steady (scanned move) := by
  intro s
  rw [ends_scanned]
  rcases hm : move s.cursor with _ | cursor
  · exact Follows.refl s
  · obtain ⟨n, hn, hcursor⟩ := hmove _ _ hm
    exact Follows.advance hn hcursor

theorem steady_token : Steady token := by
  intro s
  rw [ends_token]
  rcases ht : s.cursor.token? with _ | ⟨token, cursor⟩
  · exact ⟨Follows.refl s, fun _ _ => nofun⟩
  · obtain ⟨-, rfl, hcursor⟩ := Cursor.token?_eq_some_iff.mp ht
    exact Follows.advance (Cursor.length_tokenAhead_le s.cursor) hcursor

theorem steady_slice (start stop : Nat) : Steady (slice start stop) := by
  intro s
  rw [ends_slice]
  rcases s.cursor.slice? start stop with _ | bytes
  · exact ⟨Follows.refl s, fun _ _ => nofun⟩
  · exact Follows.refl s

/-- **Asking for memory**: the answer is the one that the request gives, the cursor stays,
and only a limit can be in the way. -/
theorem ends_ask_of_gives {request : ArenaM α} {answer : Allocator → α}
    (h : Arena.Gives request answer) (s : Reader) :
    Ends (ask request) s
      (fun a s' => a = answer s.arena.allocator ∧ s'.cursor = s.cursor ∧ Follows s s')
      (fun f s' => (∃ e, f = .exhausted e) ∧ ¬s.arena.Unlimited ∧ Follows s s') := by
  rw [ends_ask]
  have hgives := h s.arena
  rcases hr : request s.arena with ⟨a, arena⟩ | ⟨e, arena⟩
  · rw [hr] at hgives
    exact ⟨hgives.1, rfl,
      ⟨⟨rfl, Nat.le_refl _, hgives.2, List.suffix_refl _, id⟩, rfl⟩, rfl⟩
  · rw [hr] at hgives
    exact ⟨⟨e, rfl⟩, hgives.2,
      ⟨⟨rfl, Nat.le_refl _, hgives.1, List.suffix_cons _ _, id⟩, rfl⟩, rfl⟩

theorem steady_ask {request : ArenaM α} {answer : Allocator → α}
    (h : Arena.Gives request answer) : Steady (ask request) := fun s =>
  (ends_ask_of_gives h s).imp (fun _ _ hs => hs.2.2) fun _ _ hs =>
    ⟨hs.2.2, fun hu => absurd hu hs.2.1⟩

end Steadiness

end Reader

end FormReader
