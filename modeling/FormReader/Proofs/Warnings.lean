import FormReader.Proofs.Actions
import FormReader.Proofs.Exhaustion
import FormReader.Proofs.Parsing

/-!
# Every lack of resources is warned of once

A failure that no alternative helps against is raised deep inside of a form, and has to pass
every choice, repetition and list around it before anybody hears of it. On this way it must not
get lost, nor turn into another failure, nor be recorded again. What shows that it does not is
the record (`FormReader.WarnedOnce`): there is a warning in it exactly if the reader answers
with such a failure, and then the warning tells of this failure, is the only one and comes last.

No rule has to be gone through for that. A reader keeps pace with one that is the same and has
memory without limit (`FormReader.Reader.abreast_withArena`), and in this comparison the calm
part of a record and the warning behind it are told apart already.
-/

namespace FormReader

/-! ### Records with a warning -/

/-- **Warned of once**: `own` was recorded on the way to an answer that reports the failure, if
it reports one. -/
structure WarnedOnce (failure? : Option Failure) (own : List Event) : Prop where
  /-- There is a warning exactly if a resource has run out. -/
  warned_iff : (∃ e ∈ own, e.level = .warn) ↔ ∃ f, failure? = some f ∧ f.kind = .resource
  /-- A refusal of the arena comes last, with what the arena said, and nothing else is warned of. -/
  exhausted : ∀ cause, failure? = some (.exhausted cause) →
    ∃ calm, own = calm ++ [.refused cause] ∧ IsCalm calm
  /-- A bracket that is too deep comes last, and is told with the same numbers. -/
  tooDeep : ∀ depth limit, failure? = some (.tooDeep depth limit) →
    ∃ calm, own = calm ++ [.tooDeep depth limit] ∧ IsCalm calm

theorem IsCalm.append {events events' : List Event} (h : IsCalm events) (h' : IsCalm events') :
    IsCalm (events ++ events') := by
  intro e he
  rcases List.mem_append.mp he with he | he
  · exact h e he
  · exact h' e he

theorem Failure.kind_eq_resource_iff (f : Failure) :
    f.kind = .resource ↔ ∃ w, f.warning? = some w ∧ w.level = .warn := by
  cases f with
  | noMatch => simp [kind, warning?]
  | exhausted cause => simp [kind, warning?, Event.level]
  | tooDeep depth limit => simp [kind, warning?, Event.level]
  | outOfRange => simp [kind, warning?]

/-- **A calm record and the warning behind it**, if the failure has one. -/
theorem warnedOnce_of_calm {failure? : Option Failure} {calm : List Event} (h : IsCalm calm) :
    WarnedOnce failure? (calm ++ (failure?.bind Failure.warning?).toList) where
  warned_iff := by
    constructor
    · rintro ⟨e, he, hlevel⟩
      rcases List.mem_append.mp he with he | he
      · exact absurd hlevel (h e he)
      · -- the warning is the one of the failure
        obtain ⟨f, rfl, hf⟩ := Option.bind_eq_some_iff.mp (Option.mem_toList.mp he)
        exact ⟨f, rfl, (Failure.kind_eq_resource_iff f).mpr ⟨e, hf, hlevel⟩⟩
    · rintro ⟨f, rfl, hf⟩
      obtain ⟨w, hw, hlevel⟩ := (Failure.kind_eq_resource_iff f).mp hf
      refine ⟨w, List.mem_append.mpr (Or.inr ?_), hlevel⟩
      rw [Option.bind_some, hw]
      exact List.mem_singleton.mpr rfl
  exhausted := by
    rintro cause rfl
    exact ⟨calm, rfl, h⟩
  tooDeep := by
    rintro depth limit rfl
    exact ⟨calm, rfl, h⟩

namespace Reader

variable {α β : Type}

/-! ### What a rule records -/

/-- What two readers abreast have recorded is calm, up to the warning of the failure that the
first one has met. -/
theorem Comparison.Alike.records {k : Course} {val : α → β → Prop} {o : Outcome α} {o' : Outcome β}
    (h : k.comparison.Alike val o o') :
    ∃ own top, k.Records own ((failureOf? o.result).bind Failure.warning?).toList top o.reader
      o'.reader := by
  cases h with
  | found _ hnear =>
    obtain ⟨own, hown⟩ := hnear.records
    exact ⟨own, [], hown⟩
  | noMatch hnear =>
    obtain ⟨own, hown⟩ := hnear.records
    exact ⟨own, [], hown⟩
  | ended hended =>
    obtain ⟨own, hown⟩ := hended.records
    exact ⟨own, _, hown⟩
  | cut hcut =>
    obtain ⟨own, later, hown⟩ := hcut.records
    exact ⟨own, later, hown⟩

/-- **Answering**: what an answer reports was warned of once since the reader was asked. -/
def AnswersWarned (s : Reader) (failure? : Option Failure) (s' : Reader) : Prop :=
  ∃ calm, IsCalm calm ∧
    s'.events = s.events ++ (calm ++ (failure?.bind Failure.warning?).toList)

/-- **A rule that keeps pace** warns of its failure, and of nothing else. -/
theorem answersWarned_of_keepPace {rule : ReadM α}
    (hrule : ∀ k : Course, KeepPace k.comparison Eq rule rule) (s : Reader) :
    AnswersWarned s (failureOf? (s.run rule).result) (s.run rule).reader := by
  have halike := (hrule s.arenaCourse).alike _ _ (abreast_withArena s Arena.unlimited_default)
  obtain ⟨own, top, hown⟩ := halike.records
  refine ⟨own.reverse, fun e he => hown.calm e (List.mem_reverse.mp he), ?_⟩
  -- both readers have the same source, so no position is shifted
  have hshift : own.map (Event.shift s.arenaCourse.offset) = own := Event.map_shift_zero own
  rw [events, hown.log, hshift, List.reverse_append, List.reverse_append, List.append_assoc]
  congr 2
  rcases (failureOf? (s.run rule).result).bind Failure.warning? with _ | w
  · rfl
  · rfl

theorem AnswersWarned.warnedOnce {s s' : Reader} {failure? : Option Failure}
    (h : AnswersWarned s failure? s') :
    ∃ own, s'.events = s.events ++ own ∧ WarnedOnce failure? own := by
  obtain ⟨calm, hcalm, hevents⟩ := h
  exact ⟨_, hevents, warnedOnce_of_calm hcalm⟩

/-- Where nothing fails first, what is reported later is warned of once over the whole way. -/
theorem AnswersWarned.trans {s s' s'' : Reader} {failure? : Option Failure}
    (h : AnswersWarned s none s') (h' : AnswersWarned s' failure? s'') :
    AnswersWarned s failure? s'' := by
  obtain ⟨calm, hcalm, hevents⟩ := h
  obtain ⟨calm', hcalm', hevents'⟩ := h'
  refine ⟨calm ++ calm', hcalm.append hcalm', ?_⟩
  rw [hevents', hevents]
  simp

theorem answersWarned_refl (s : Reader) : AnswersWarned s none s :=
  ⟨[], isCalm_nil, (List.append_nil _).symm⟩

/-! ### What iteration records -/

/-- The next form of an iteration is a form, or nothing and then nothing is recorded. -/
theorem answersWarned_next (s : Reader) :
    AnswersWarned s (s.next.1.bind failureOf?) s.next.2 := by
  have hwarned := answersWarned_of_keepPace (fun _ => keepPace_one) s
  rw [next]
  split
  · exact answersWarned_refl s
  · rcases hone : one s with ⟨t, s'⟩ | ⟨f, s'⟩
    · rw [run_of_ok hone] at hwarned
      exact hwarned
    · rw [run_of_error hone] at hwarned
      exact hwarned

/-- All that is left of an iteration ends with the first failure, which is warned of once. -/
theorem answersWarned_collect (s : Reader) :
    AnswersWarned s (s.collect.1.findSome? failureOf?) s.collect.2 := by
  induction hn : s.cursor.left using Nat.strongRecOn generalizing s with
  | ind n ih =>
    subst hn
    have hnext := answersWarned_next s
    rw [collect]
    generalize s.next = x at hnext ⊢
    rcases x with ⟨_ | (f | t), s'⟩
    · exact hnext
    · exact hnext
    · dsimp only
      split
      · next hlt => exact hnext.trans (ih _ hlt s' rfl)
      · exact hnext

/-! ### What is asked of a reader -/

/-- **An action is warned of once**: what it records tells of the failure it answers with. -/
def WarnsOnce (s : Reader) (action : Action) : Prop :=
  ∃ own, (s.perform action).2.events = s.events ++ own ∧
    WarnedOnce (s.perform action).1.failure? own

end Reader

/-- **Failures are never swallowed, and warned of once.** Parsing records how it begins, what the
rules record, and whether it has ended well; and of what the rules record a warning is part
exactly if the result is a lack of resources, in which case it is the last event, the only
warning, and tells of just this failure. So it is with reading all forms of a source behind the
event that this begins, and with everything that any reader, in whatever state, may be asked for:
one form, a form and nothing else, all forms, the end of the source, the next form of an
iteration and the rest of it. -/
theorem warned_once :
    (∀ (source : List Byte) (config : Config) (arena : Arena),
      let outcome := parseBytes source config arena
      ∃ own, outcome.reader.events = .parsing source.length config.maxDepth ::
          (own ++ [.parsed (isOk outcome.result) outcome.reader.arena.reserved]) ∧
        WarnedOnce (failureOf? outcome.result) own) ∧
    (∀ (text : String) (config : Config) (arena : Arena),
      let outcome := parse text config arena
      ∃ own, outcome.reader.events = .parsing text.utf8ByteSize config.maxDepth ::
          (own ++ [.parsed (isOk outcome.result) outcome.reader.arena.reserved]) ∧
        WarnedOnce (failureOf? outcome.result) own) ∧
    (∀ (text : String) (arena : Arena),
      let outcome := parseAll text arena
      ∃ own, outcome.reader.events = .parsingAll text.utf8ByteSize :: own ∧
        WarnedOnce (failureOf? outcome.result) own) ∧
    ∀ s : Reader, s.WarnsOnce .one ∧ s.WarnsOnce .whole ∧ s.WarnsOnce .all ∧
      s.WarnsOnce .finish ∧ s.WarnsOnce .next ∧ s.WarnsOnce .collect := by
  have hbytes (source : List Byte) (config : Config) (arena : Arena) :
      let outcome := parseBytes source config arena
      ∃ own, outcome.reader.events = .parsing source.length config.maxDepth ::
          (own ++ [.parsed (isOk outcome.result) outcome.reader.arena.reserved]) ∧
        WarnedOnce (failureOf? outcome.result) own := by
    obtain ⟨own, hevents, hwarned⟩ := (Reader.answersWarned_of_keepPace
      (fun _ => Reader.keepPace_whole) (parsing source config arena)).warnedOnce
    refine ⟨own, ?_, hwarned⟩
    rw [events_parseBytes, hevents]
    rfl
  refine ⟨hbytes, fun text config arena => ?_, fun text arena => ?_, fun s => ?_⟩
  · rw [← Text.length_bytes]
    exact hbytes (Text.bytes text) config arena
  · rw [← Text.length_bytes]
    exact (Reader.answersWarned_of_keepPace (fun _ => Reader.keepPace_all)
      ((Reader.ofBytes (Text.bytes text) arena).record
        (.parsingAll (Text.bytes text).length))).warnedOnce
  · have hrule {α : Type} {rule : ReadM α}
        (h : ∀ k : Reader.Course, Reader.KeepPace k.comparison Eq rule rule) :=
      (Reader.answersWarned_of_keepPace h s).warnedOnce
    refine ⟨?_, ?_, ?_, ?_, ?_, ?_⟩
    · rw [Reader.WarnsOnce, Reader.perform]
      exact hrule fun _ => Reader.keepPace_one
    · rw [Reader.WarnsOnce, Reader.perform]
      exact hrule fun _ => Reader.keepPace_whole
    · rw [Reader.WarnsOnce, Reader.perform]
      exact hrule fun _ => Reader.keepPace_all
    · rw [Reader.WarnsOnce, Reader.perform]
      exact hrule fun _ => Reader.keepPace_finish
    · rw [Reader.WarnsOnce, Reader.perform]
      exact (Reader.answersWarned_next s).warnedOnce
    · rw [Reader.WarnsOnce, Reader.perform]
      exact (Reader.answersWarned_collect s).warnedOnce

end FormReader
