import FormReader.Parse
import FormReader.Proofs.KeepingPace

/-!
# A limit on memory only cuts short

A reader whose arena refuses a request has to give up, and that is all a limit does. It is
compared with a reader that is the same but for an arena without limit: either the two runs
cannot be told apart, or the first one fails for want of memory, and what it recorded is the
beginning of what the other one recorded and the warning of the refusal
(`FormReader.Reader.limited_run`). In particular a refusal is never taken for a mismatch, after
which something else might be read.

Nothing is assumed of the rule that the arena follows, nor of what it granted before.
-/

namespace FormReader

namespace Reader

variable {α : Type}

/-! ### Runs in two arenas -/

/-- Two readers that **cannot be told apart** but for their arenas. -/
structure SameButArena (s t : Reader) : Prop where
  cursor : s.cursor = t.cursor
  config : s.config = t.config
  halted : s.halted = t.halted
  events : s.events = t.events

/-- A run from `s` was **refused memory** on the way that another run took: it recorded the
beginning of what that run recorded, and then the refusal with its cause, which is the only
warning. -/
def RefusedOnTheWay (cause : Exhausted) (s refused free : Reader) : Prop :=
  ∃ own later, refused.events = s.events ++ own ++ [.refused cause] ∧
    free.events = s.events ++ own ++ later ∧ IsCalm own

/-- The course of two readers that differ in their arenas. -/
def arenaCourse (s : Reader) : Course := .level 0 s.log s.log s.config.maxDepth

theorem abreast_withArena (s : Reader) {free : Arena} (hfree : free.Unlimited) :
    Abreast s.arenaCourse s (s.withArena free) :=
  ⟨.of_zero _, rfl, rfl, hfree, [], rfl, rfl, isCalm_nil⟩

/-- **A limit on memory only cuts short** a rule that keeps pace. -/
theorem run_of_keepPace {rule : ReadM α} (hrule : ∀ k : Course, KeepPace k.comparison Eq rule rule)
    (s : Reader) {free : Arena} (hfree : free.Unlimited) :
    (∃ e, (s.run rule).result = .error (.exhausted e) ∧
        RefusedOnTheWay e s (s.run rule).reader ((s.withArena free).run rule).reader) ∨
      (s.run rule).result = ((s.withArena free).run rule).result ∧
        SameButArena (s.run rule).reader ((s.withArena free).run rule).reader := by
  have halike := (hrule s.arenaCourse).alike _ _ (abreast_withArena s hfree)
  have hsteady := (hrule s.arenaCourse).steady
  have hs := hsteady.follows_run s
  have ht := hsteady.follows_run (s.withArena free)
  obtain hsame | ⟨f, hf, hcut⟩ := halike.same_or_cut
  · -- the two runs took the same course
    obtain ⟨own, hlog, hlog'⟩ := hsame.log
    refine Or.inr ⟨hsame.result, hsame.cursor.eq_of_zero, ?_, ?_, ?_⟩
    · exact hs.config.trans ht.config.symm
    · exact hs.halted.trans ht.halted.symm
    · rw [events, events, hlog, hlog']
      exact congrArg (fun own => (own ++ s.log).reverse) (Event.map_shift_zero own)
  · obtain ⟨e, rfl⟩ | ⟨-, hlt⟩ := hcut.failure
    · obtain ⟨own, later, hown⟩ := hcut.records
      refine Or.inl ⟨e, hf, own.reverse, later.reverse, ?_, ?_, ?_⟩
      · have hshift : own.map (Event.shift s.arenaCourse.offset) = own := Event.map_shift_zero own
        rw [events, events, hown.log, hshift, List.reverse_append, List.reverse_append]
        rfl
      · rw [events, events, hown.log', List.reverse_append, List.reverse_append]
        rfl
      · exact fun e he => hown.calm e (List.mem_reverse.mp he)
    · -- both allow as many lists
      exact absurd hlt (Nat.lt_irrefl _)

/-! ### Iteration -/

/-- An iteration that has not halted hands out what is read next, and halts on a failure. -/
theorem next_of_not_halted {s : Reader} (hs : s.halted = false) :
    s.next =
      if s.cursor.onlyBlanksLeft then (none, s)
      else (some (s.run one).result,
        { (s.run one).reader with halted := !isOk (s.run one).result }) := by
  rw [next, run]
  simp only [hs, Bool.false_eq_true, false_or]
  split
  · rfl
  · rcases hone : one s with ⟨t, s'⟩ | ⟨f, s'⟩
    · have hhalted : s'.halted = false := (steady_one.follows_of_ok hone).halted.trans hs
      dsimp only [isOk]
      rw [Bool.not_true, ← hhalted]
    · rfl

/-! ### Whatever a reader is asked for -/

/-- **A limit on memory can only cut a run short.** A reader with any arena is compared with one
that is the same but for an arena without limit, in reading one form, a form and nothing else,
all forms, and the next form of an iteration that has not halted. Either the limited run fails
for want of memory, and has recorded the beginning of what the other one recorded and then the
refusal, its only warning; or the results are the same, and so are the readers but for their
arenas. -/
theorem limited_run (s : Reader) (free : Arena) (hfree : free.Unlimited) :
    let t := s.withArena free
    ((∃ e, (s.run one).result = .error (.exhausted e) ∧
        RefusedOnTheWay e s (s.run one).reader (t.run one).reader) ∨
      (s.run one).result = (t.run one).result ∧
        SameButArena (s.run one).reader (t.run one).reader) ∧
    ((∃ e, (s.run whole).result = .error (.exhausted e) ∧
        RefusedOnTheWay e s (s.run whole).reader (t.run whole).reader) ∨
      (s.run whole).result = (t.run whole).result ∧
        SameButArena (s.run whole).reader (t.run whole).reader) ∧
    ((∃ e, (s.run all).result = .error (.exhausted e) ∧
        RefusedOnTheWay e s (s.run all).reader (t.run all).reader) ∨
      (s.run all).result = (t.run all).result ∧
        SameButArena (s.run all).reader (t.run all).reader) ∧
    (s.halted = false →
      (∃ e, s.next.1 = some (.error (.exhausted e)) ∧
          RefusedOnTheWay e s s.next.2 t.next.2) ∨
        s.next.1 = t.next.1 ∧ SameButArena s.next.2 t.next.2) := by
  intro t
  have hone := run_of_keepPace (fun _ => keepPace_one) s hfree
  refine ⟨hone, run_of_keepPace (fun _ => keepPace_whole) s hfree,
    run_of_keepPace (fun _ => keepPace_all) s hfree, fun hs => ?_⟩
  have ht : t.halted = false := hs
  have hblank : t.cursor.onlyBlanksLeft = s.cursor.onlyBlanksLeft := rfl
  rw [next_of_not_halted hs, next_of_not_halted ht, hblank]
  split
  · exact Or.inr ⟨rfl, rfl, rfl, rfl, rfl⟩
  · rcases hone with ⟨e, he, hrefused⟩ | ⟨hresult, hsame⟩
    · exact Or.inl ⟨e, congrArg some he, hrefused⟩
    · exact Or.inr ⟨congrArg some hresult, hsame.cursor, hsame.config,
        congrArg (fun result => !isOk result) hresult, hsame.events⟩

/-- A list that is never closed does not match. An arena of no bytes refuses the symbol inside
it before this can be seen, so the run is cut short. -/
theorem limited_run_unclosed_list :
    let s := ofBytes (Text.bytes "(a") (.withLimit 0)
    ({} : Arena).Unlimited ∧ s.halted = false ∧
      (s.run one).result = .error (.exhausted ⟨1, 0⟩) ∧
      RefusedOnTheWay ⟨1, 0⟩ s (s.run one).reader ((s.withArena {}).run one).reader := by
  have hresult : ((ofBytes (Text.bytes "(a") (.withLimit 0)).run one).result =
      .error (.exhausted ⟨1, 0⟩) := by decide +kernel
  intro s
  refine ⟨Arena.unlimited_default, rfl, hresult, ?_⟩
  rcases (limited_run s {} Arena.unlimited_default).1 with ⟨e, he, hrefused⟩ | ⟨hsame, -⟩
  · -- the refusal that was warned of is the one that was answered
    cases hresult.symm.trans he
    exact hrefused
  · -- without a limit memory does not run out
    have hfree : (s.withArena {}).arena.Unlimited := Arena.unlimited_default
    exact absurd (hsame.symm.trans hresult) (steady_one.result_ne_exhausted hfree _)

end Reader

end FormReader
