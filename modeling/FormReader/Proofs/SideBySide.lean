import FormReader.Proofs.Rules

/-!
# Two runs side by side

Two readers that do not see quite the same – another arena, another limit, another source –
may still go the same way for as long as the difference does not matter. To say so, two rules
are run side by side, each on a reader of its own. A comparison
(`FormReader.Reader.Comparison`) fixes what it means that two readers have come equally far;
that both have ended; and that the first one has been cut short while the second one may have
gone on. Two rules *keep pace* (`FormReader.Reader.KeepPace`) when, from readers that have come
equally far, their runs come to such an outcome.

Keeping pace is inherited along sequences, choices and repetitions. What is cut short stays
cut short whatever the second run does afterwards, since a run only ever adds to what is
recorded; this is why the second rule has to be steady.
-/

namespace FormReader

namespace Reader

variable {α α' β β' : Type}

/-! ### Running composed rules -/

section Running

variable {rule : ReadM α} {s : Reader}

theorem run_bind (rule : ReadM α) (next : α → ReadM β) (s : Reader) :
    s.run (rule >>= next) =
      match s.run rule with
      | ⟨.ok a, s'⟩ => s'.run (next a)
      | ⟨.error f, s'⟩ => ⟨.error f, s'⟩ := by
  simp only [run, bind, EStateM.bind]
  cases rule s <;> rfl

theorem run_attempt (rule : ReadM α) (s : Reader) :
    s.run (attempt rule) =
      match s.run rule with
      | ⟨.ok a, s'⟩ => ⟨.ok (some a), s'⟩
      | ⟨.error f, s'⟩ =>
        if f = .noMatch then ⟨.ok none, s'.rewind s.cursor⟩ else ⟨.error f, s'⟩ := by
  simp only [run, attempt]
  rcases rule s with ⟨a, s'⟩ | ⟨_ | _ | _ | _, s'⟩ <;> rfl

/-- Where a choice answers, its rule has found something or did not match. -/
theorem exists_of_run_attempt {a? : Option α} {s' : Reader}
    (h : s.run (attempt rule) = ⟨.ok a?, s'⟩) :
    (∃ a, a? = some a ∧ s.run rule = ⟨.ok a, s'⟩) ∨
      ∃ t, a? = none ∧ s.run rule = ⟨.error .noMatch, t⟩ ∧ s' = t.rewind s.cursor := by
  rw [run_attempt] at h
  rcases hrun : s.run rule with ⟨f | a, t⟩
  · rw [hrun] at h
    by_cases hf : f = .noMatch
    · simp only [if_pos hf] at h
      cases h
      exact Or.inr ⟨t, rfl, hf ▸ rfl, rfl⟩
    · simp only [if_neg hf] at h
      cases h
  · rw [hrun] at h
    cases h
    exact Or.inl ⟨a, rfl, rfl⟩

theorem run_gatherOne (next : ReadM (Option β)) (keep : α → β → ReadM α) (acc : α) (s : Reader) :
    s.run (gatherOne next keep acc) =
      match s.run next with
      | ⟨.ok none, s'⟩ => ⟨.ok (acc, false), s'⟩
      | ⟨.ok (some item), s'⟩ =>
        match s'.run (keep acc item) with
        | ⟨.ok acc', s''⟩ => ⟨.ok (acc', true), s''⟩
        | ⟨.error f, s''⟩ => ⟨.error f, s''⟩
      | ⟨.error f, s'⟩ => ⟨.error f, s'⟩ := by
  rw [gatherOne, run_bind]
  rcases s.run next with ⟨f | item?, s'⟩
  · rfl
  · rcases item? with _ | item
    · rfl
    · dsimp only
      rw [run_bind]
      rcases s'.run (keep acc item) with ⟨f | acc', s''⟩
      · rfl
      · rfl

theorem run_gather (next : ReadM (Option β)) (keep : α → β → ReadM α) (acc : α) (s : Reader) :
    s.run (gather next keep acc) =
      match s.run (gatherOne next keep acc) with
      | ⟨.error f, s'⟩ => ⟨.error f, s'⟩
      | ⟨.ok (acc', more), s'⟩ =>
        if more ∧ s'.cursor.left < s.cursor.left then s'.run (gather next keep acc')
        else ⟨.ok acc', s'⟩ := by
  rw [run, gather, run]
  rcases gatherOne next keep acc s with ⟨⟨acc', more⟩, s'⟩ | ⟨f, s'⟩
  · by_cases hgo : more ∧ s'.cursor.left < s.cursor.left
    · simp only [if_pos hgo, run]
    · simp only [if_neg hgo]
  · rfl

/-- The reader behind a steady rule follows. -/
theorem Steady.follows_run (h : Steady rule) (s : Reader) : Follows s (s.run rule).reader :=
  ((h s).imp (fun _ _ ha => ha) fun _ _ hf => hf.1).run_reader

theorem Steady.follows_of_run {result : Except Failure α} {s' : Reader} (h : Steady rule)
    (hrun : s.run rule = ⟨result, s'⟩) : Follows s s' := by
  have hfollows := h.follows_run s
  rwa [hrun] at hfollows

/-- What was recorded in the first part of a sequence is recorded in the end. -/
theorem log_suffix_run_bind (rule : ReadM α) (s : Reader) {next : α → ReadM β}
    (hnext : ∀ a, Steady (next a)) :
    (s.run rule).reader.log <:+ (s.run (rule >>= next)).reader.log := by
  rw [run_bind]
  rcases s.run rule with ⟨f | a, s'⟩
  · exact List.suffix_refl _
  · exact ((hnext a).follows_run s').log

theorem log_suffix_run_attempt (rule : ReadM α) (s : Reader) :
    (s.run rule).reader.log <:+ (s.run (attempt rule)).reader.log := by
  rw [run_attempt]
  rcases s.run rule with ⟨f | a, s'⟩
  · by_cases hf : f = .noMatch
    · simp only [if_pos hf]
      exact List.suffix_cons _ _
    · simp only [if_neg hf]
      exact List.suffix_refl _
  · exact List.suffix_refl _

/-- A steady rule does not run out of memory where there is no limit. -/
theorem Steady.result_ne_exhausted (h : Steady rule) (hs : s.arena.Unlimited) (e : Exhausted) :
    (s.run rule).result ≠ .error (.exhausted e) := by
  rw [run]
  intro hresult
  rcases hr : rule s with ⟨a, s'⟩ | ⟨f, s'⟩
  · rw [hr] at hresult
    cases hresult
  · rw [hr] at hresult
    cases hresult
    exact ((h s).of_error hr).2 hs e rfl

end Running

/-! ### Comparing -/

/-- **Comparisons** of a first reader with a second one. -/
structure Comparison where
  /-- Both have come equally far. -/
  near : Reader → Reader → Prop
  /-- Both have ended, and by the same failure. -/
  ended : Failure → Reader → Reader → Prop
  /-- The first has ended, and the second may have gone on since. -/
  cut : Failure → Reader → Reader → Prop
  /-- The two lie equally far before the end. -/
  left_eq : ∀ {s t}, near s t → s.cursor.left = t.cursor.left
  /-- Going back at the same time does not part them. -/
  near_rewind : ∀ {s t s' t'}, near s t → near s' t' →
    near (s'.rewind s.cursor) (t'.rewind t.cursor)
  /-- A mismatch does not end a run, since there may be a choice around it. -/
  ended_fatal : ∀ {f s t}, ended f s t → f ≠ .noMatch
  cut_fatal : ∀ {f s t}, cut f s t → f ≠ .noMatch
  /-- The second one may always go on. -/
  cut_log : ∀ {f s t t'}, cut f s t → t.log <:+ t'.log → cut f s t'

/-- **Two outcomes compared**, with a relation between what is found. -/
inductive Comparison.Alike (k : Comparison) (val : α → α' → Prop) : Outcome α → Outcome α' → Prop
  /-- Both find something. -/
  | found {a : α} {a' : α'} {s t : Reader} :
    val a a' → k.near s t → Alike k val ⟨.ok a, s⟩ ⟨.ok a', t⟩
  /-- Neither matches. -/
  | noMatch {s t : Reader} : k.near s t → Alike k val ⟨.error .noMatch, s⟩ ⟨.error .noMatch, t⟩
  /-- Both have ended. -/
  | ended {f : Failure} {s t : Reader} : k.ended f s t → Alike k val ⟨.error f, s⟩ ⟨.error f, t⟩
  /-- The first has been cut short. -/
  | cut {f : Failure} {s : Reader} {o : Outcome α'} :
    k.cut f s o.reader → Alike k val ⟨.error f, s⟩ o

/-- **Keeping pace**: from readers that have come equally far, two rules come to outcomes that
compare. -/
structure KeepPace (k : Comparison) (val : α → α' → Prop) (rule : ReadM α) (rule' : ReadM α') :
    Prop where
  steady : Steady rule'
  alike : ∀ s t, k.near s t → k.Alike val (s.run rule) (t.run rule')

namespace KeepPace

variable {k : Comparison} {val : α → α' → Prop} {val' : β → β' → Prop}
  {rule : ReadM α} {rule' : ReadM α'}

/-- What is known of what is found may be weakened. -/
theorem imp {weaker : α → α' → Prop} (h : KeepPace k val rule rule')
    (hval : ∀ a a', val a a' → weaker a a') : KeepPace k weaker rule rule' where
  steady := h.steady
  alike s t hst := by
    have hrule := h.alike s t hst
    generalize s.run rule = o at hrule
    generalize t.run rule' = o' at hrule
    cases hrule with
    | found ha hnear => exact .found (hval _ _ ha) hnear
    | noMatch hnear => exact .noMatch hnear
    | ended hended => exact .ended hended
    | cut hcut => exact .cut hcut

/-! ### Steps that do not look at the reader -/

theorem pure {a : α} {a' : α'} (h : val a a') :
    KeepPace k val (Pure.pure a) (Pure.pure a') :=
  ⟨steady_pure a', fun _ _ hst => .found h hst⟩

theorem mismatch : KeepPace k val (throw .noMatch) (throw .noMatch) :=
  ⟨steady_noMatch, fun _ _ hst => .noMatch hst⟩

theorem found (found? : Option α) : KeepPace k Eq (Reader.found found?) (Reader.found found?) := by
  rcases found? with _ | a
  · exact mismatch
  · exact pure rfl

theorem get : KeepPace k k.near MonadState.get MonadState.get :=
  ⟨steady_get, fun _ _ hst => .found hst hst⟩

/-! ### Sequences and choices -/

/-- **A sequence** keeps pace when its parts do. -/
theorem bind {next : α → ReadM β} {next' : α' → ReadM β'} (h : KeepPace k val rule rule')
    (hsteady : ∀ a', Steady (next' a'))
    (hnext : ∀ a a', val a a' → KeepPace k val' (next a) (next' a')) :
    KeepPace k val' (rule >>= next) (rule' >>= next') where
  steady := h.steady.bind hsteady
  alike s t hst := by
    have hfirst := h.alike s t hst
    have hlog := log_suffix_run_bind rule' t hsteady
    rw [run_bind] at hlog
    rw [run_bind, run_bind]
    generalize s.run rule = o at hfirst
    generalize t.run rule' = o' at hfirst hlog
    cases hfirst with
    | found hval hnear => exact (hnext _ _ hval).alike _ _ hnear
    | noMatch hnear => exact .noMatch hnear
    | ended hended => exact .ended hended
    | cut hcut => exact .cut (k.cut_log hcut hlog)

/-- A sequence whose first parts find the same. -/
theorem andThen {rule rule' : ReadM α} {next : α → ReadM β} {next' : α → ReadM β'}
    (h : KeepPace k Eq rule rule') (hnext : ∀ a, KeepPace k val' (next a) (next' a)) :
    KeepPace k val' (rule >>= next) (rule' >>= next') :=
  h.bind (fun a => (hnext a).steady) fun a _ ha => ha ▸ hnext a

/-- **A choice**: where one of the rules does not match, neither does the other, and both
cursors are put back. -/
theorem attempt (h : KeepPace k val rule rule') :
    KeepPace k (Option.Rel val) (Reader.attempt rule) (Reader.attempt rule') where
  steady := h.steady.attempt
  alike s t hst := by
    have hrule := h.alike s t hst
    have hlog := log_suffix_run_attempt rule' t
    rw [run_attempt] at hlog
    rw [run_attempt, run_attempt]
    generalize s.run rule = o at hrule
    generalize t.run rule' = o' at hrule hlog
    cases hrule with
    | found hval hnear => exact .found (.some hval) hnear
    | noMatch hnear => exact .found .none (k.near_rewind hst hnear)
    | ended hended =>
      simp only [if_neg (k.ended_fatal hended)]
      exact .ended hended
    | cut hcut =>
      simp only [if_neg (k.cut_fatal hcut)]
      exact .cut (k.cut_log hcut hlog)

/-- **Choosing** between what follows a rule and what is done where it does not match. -/
theorem choice {pick : Option α → ReadM β} {pick' : Option α' → ReadM β'}
    (h : KeepPace k val rule rule') (hsteady : ∀ a', Steady (pick' (some a')))
    (hsome : ∀ a a', val a a' → KeepPace k val' (pick (some a)) (pick' (some a')))
    (hnone : KeepPace k val' (pick none) (pick' none)) :
    KeepPace k val' (Reader.attempt rule >>= pick) (Reader.attempt rule' >>= pick') := by
  refine h.attempt.bind (fun a'? => ?_) fun a? a'? ha => ?_
  · rcases a'? with _ | a'
    · exact hnone.steady
    · exact hsteady a'
  · cases ha with
    | none => exact hnone
    | some ha => exact hsome _ _ ha

/-- Choosing where the rules find the same. -/
theorem orElse {rule rule' : ReadM α} {pick pick' : Option α → ReadM β}
    (h : KeepPace k Eq rule rule')
    (hsome : ∀ a, KeepPace k Eq (pick (some a)) (pick' (some a)))
    (hnone : KeepPace k Eq (pick none) (pick' none)) :
    KeepPace k Eq (Reader.attempt rule >>= pick) (Reader.attempt rule' >>= pick') :=
  h.choice (fun a => (hsome a).steady) (fun a _ ha => ha ▸ hsome a) hnone

/-- What is done in one case may also be what is done at the end of the other. -/
theorem ite {rule₁ : ReadM α} {rule₁' : ReadM α'} {c : Prop} [Decidable c]
    (h : KeepPace k val rule rule')
    (h₁ : KeepPace k val rule rule' → KeepPace k val rule₁ rule₁') :
    KeepPace k val (if c then rule else rule₁) (if c then rule' else rule₁') := by
  split
  · exact h
  · exact h₁ h

/-! ### Repetitions -/

section Repetition

variable {next : ReadM (Option β)} {next' : ReadM (Option β')} {keep : α → β → ReadM α}
  {keep' : α' → β' → ReadM α'}
  (hnext : KeepPace k (Option.Rel val') next next')
  (hsteady : ∀ acc' item', Steady (keep' acc' item'))
  (hkeep : ∀ acc acc' item item', val acc acc' → val' item item' →
    KeepPace k val (keep acc item) (keep' acc' item'))

include hnext hsteady hkeep

theorem gatherOne {acc : α} {acc' : α'} (hacc : val acc acc') :
    KeepPace k (fun x x' => val x.1 x'.1 ∧ x.2 = x'.2) (Reader.gatherOne next keep acc)
      (Reader.gatherOne next' keep' acc') := by
  refine hnext.bind (fun item'? => ?_) fun item? item'? hitem => ?_
  · rcases item'? with _ | item'
    · exact steady_pure _
    · exact (hsteady acc' item').bind fun _ => steady_pure _
  · cases hitem with
    | none => exact pure ⟨hacc, rfl⟩
    | some hitem =>
      exact (hkeep _ _ _ _ hacc hitem).bind (fun _ => steady_pure _) fun _ _ hkept =>
        pure ⟨hkept, rfl⟩

/-- **A repetition** keeps pace when a round of it does. The two go through as many rounds,
since they lie equally far before the end. -/
theorem gather {acc : α} {acc' : α'} (hacc : val acc acc') :
    KeepPace k val (Reader.gather next keep acc) (Reader.gather next' keep' acc') where
  steady := hnext.steady.gather hsteady acc'
  alike s t hst := by
    induction hn : s.cursor.left using Nat.strongRecOn generalizing s t acc acc' with
    | ind n ih =>
      subst hn
      have hone := (gatherOne hnext hsteady hkeep hacc).alike s t hst
      have hlog : (t.run (Reader.gatherOne next' keep' acc')).reader.log <:+
          (t.run (Reader.gather next' keep' acc')).reader.log := by
        rw [run_gather]
        rcases t.run (Reader.gatherOne next' keep' acc') with ⟨f | ⟨acc₁, more⟩, t₁⟩
        · exact List.suffix_refl _
        · dsimp only
          split
          · exact ((hnext.steady.gather hsteady acc₁).follows_run t₁).log
          · exact List.suffix_refl _
      rw [run_gather] at hlog
      rw [run_gather, run_gather]
      generalize s.run (Reader.gatherOne next keep acc) = o at hone
      generalize t.run (Reader.gatherOne next' keep' acc') = o' at hone hlog
      cases hone with
      | @found x x' s₁ t₁ hval hnear =>
        obtain ⟨acc₁, more⟩ := x
        obtain ⟨acc₁', more'⟩ := x'
        obtain ⟨hacc₁, rfl⟩ : val acc₁ acc₁' ∧ more = more' := hval
        dsimp only
        rw [← k.left_eq hst, ← k.left_eq hnear]
        split
        · next hgo => exact ih s₁.cursor.left hgo.2 hacc₁ s₁ t₁ hnear rfl
        · exact .found hacc₁ hnear
      | noMatch hnear => exact .noMatch hnear
      | ended hended => exact .ended hended
      | cut hcut => exact .cut (k.cut_log hcut hlog)

end Repetition

end KeepPace

end Reader

end FormReader
