import FormReader.Proofs.Completeness
import FormReader.Proofs.Exhaustion
import FormReader.Proofs.Gauging
import FormReader.Proofs.InTurn
import FormReader.Proofs.Parsing

/-!
# What the limit on nesting does

How many lists may be open at once decides one thing only: whether a source whose forms are
deeper is refused. A reader with a lower limit is compared with one that has a higher limit and
is the same otherwise (`FormReader.nesting_limit`). As long as the lower limit is not met
nothing shows that there is one; where it is met the reader says so, and names its own limit;
and it is met by a source that could be read exactly if a form of it is deeper than that. The
depth of the forms alone is compared with the limit, and neither the number of items in a list
nor that of the forms before is.

All of this is read off a reader that hands its room on. The same is true of a reader that
counts open lists (`FormReader.Gauged`), and the count is never above the limit.
-/

namespace FormReader

namespace Reader

variable {α : Type}

/-- The reader with another limit on nesting. -/
def withMaxDepth (s : Reader) (maxDepth : Nat) : Reader :=
  { s with config := { s.config with maxDepth } }

/-! ### Refusals name the limit -/

/-- A reader that has met a limit has met its own. -/
theorem Comparison.Alike.tooDeep_eq {k : Course} {o o' : Outcome α} {depth limit : Nat}
    (h : k.comparison.Alike Eq o o') (ho : o.result = .error (.tooDeep depth limit)) :
    depth = k.limit ∧ limit = k.limit := by
  cases h with
  | found _ _ => cases ho
  | noMatch _ => cases ho
  | ended hended =>
    cases ho
    obtain ⟨hf, -⟩ | hf := hended.failure
    · cases hf
      exact ⟨rfl, rfl⟩
    · cases hf
  | cut hcut =>
    cases ho
    obtain ⟨e, hf⟩ | ⟨hf, -⟩ := hcut.failure
    · cases hf
    · cases hf
      exact ⟨rfl, rfl⟩

/-! ### The depth of the forms decides -/

/-- **The limit is met by what is deeper**: what can be read with some limit is read with a
lower one, by a reader in any state, if it is no deeper than that. -/
theorem result_withMaxDepth {s : Reader} (hs : s.arena.Unlimited) (low high : Nat) :
    (∀ t, ((s.withMaxDepth high).run one).result = .ok t →
      ((s.withMaxDepth low).run one).result =
        if t.depth ≤ low then .ok t else .error (.tooDeep low low)) ∧
    ∀ forms, ((s.withMaxDepth high).run all).result = .ok forms →
      ((s.withMaxDepth low).run all).result =
        if Form.depthOfItems forms ≤ low then .ok forms else .error (.tooDeep low low) := by
  have hlow : (s.withMaxDepth low).arena.Unlimited := hs
  refine ⟨fun t ht => ?_, fun forms hforms => ?_⟩
  · exact result_one_of_reads hlow ((reads_one _).of_result_ok ht) rfl
  · have hlaidOut : LaysOutAll (s.withMaxDepth high).cursor.rest forms := laysOutAll_of_all hforms
    exact result_all_of_laysOutAll hlow hlaidOut

end Reader

/-! ### Parsing with two limits -/

section Parsing

variable {source : List Byte} {arena : Arena} {m m' : Nat}

/-- The events of two parses are **the same but for the limit** that the first of them tells. The
last one tells of the arena as well. -/
def SameButLimit (size m m' : Nat) (low high : Outcome Form) : Prop :=
  ∃ own,
    low.reader.events = .parsing size m ::
      (own ++ [.parsed (isOk low.result) low.reader.arena.reserved]) ∧
    high.reader.events = .parsing size m' ::
      (own ++ [.parsed (isOk high.result) high.reader.arena.reserved])

/-- The course of parsing a source with two limits. -/
def limitCourse (source : List Byte) (hm : m ≤ m') : Reader.Course where
  offset := 0
  before := [.parsing source.length m]
  before' := [.parsing source.length m']
  limit := m
  limit' := m'
  limit_le := hm

theorem alike_parsing (source : List Byte) (harena : arena.Unlimited) (hm : m ≤ m') :
    (limitCourse source hm).comparison.Alike Eq
      ((parsing source { maxDepth := m } arena).run Reader.whole)
      ((parsing source { maxDepth := m' } arena).run Reader.whole) :=
  Reader.keepPace_whole.alike _ _
    ⟨.of_zero _, rfl, rfl, harena, [], rfl, rfl, isCalm_nil⟩

/-- **A lower limit that is not met** does not show. -/
theorem same_of_not_tooDeep (harena : arena.Unlimited) (hm : m ≤ m')
    (h : ∀ depth limit, (parseBytes source { maxDepth := m } arena).result ≠
      .error (.tooDeep depth limit)) :
    (parseBytes source { maxDepth := m' } arena).result =
        (parseBytes source { maxDepth := m } arena).result ∧
      (parseBytes source { maxDepth := m' } arena).reader.cursor =
        (parseBytes source { maxDepth := m } arena).reader.cursor ∧
      SameButLimit source.length m m' (parseBytes source { maxDepth := m } arena)
        (parseBytes source { maxDepth := m' } arena) := by
  have hmemory : (parsing source { maxDepth := m } arena).arena.Unlimited := harena
  obtain hsame | ⟨f, hf, hcut⟩ := (alike_parsing source harena hm).same_or_cut
  · obtain ⟨own, hlow, hhigh⟩ := hsame.log
    rw [limitCourse, Event.map_shift_zero] at hlow
    refine ⟨hsame.result.symm, hsame.cursor.eq_of_zero.symm, own.reverse, ?_, ?_⟩
    · rw [events_parseBytes, Reader.events, hlow, List.reverse_append]
      rfl
    · rw [events_parseBytes, Reader.events, hhigh, List.reverse_append]
      rfl
  · -- the first reader was cut short, but not for want of memory
    obtain ⟨e, rfl⟩ | ⟨rfl, -⟩ := hcut.failure
    · exact absurd hf (Reader.steady_whole.result_ne_exhausted hmemory e)
    · exact absurd hf (h m m)

/-- **A limit that is met** is the one that there is. -/
theorem eq_maxDepth_of_tooDeep (harena : arena.Unlimited) {depth limit : Nat}
    (h : (parseBytes source { maxDepth := m } arena).result = .error (.tooDeep depth limit)) :
    depth = m ∧ limit = m :=
  (alike_parsing source harena (Nat.le_refl m)).tooDeep_eq h

/-- **A lower limit is met** exactly if the form is deeper. -/
theorem result_of_lower_limit (harena : arena.Unlimited) {t : Form}
    (h : (parseBytes source { maxDepth := m' } arena).result = .ok t) :
    (parseBytes source { maxDepth := m } arena).result =
      if t.depth ≤ m then .ok t else .error (.tooDeep m m) := by
  obtain ⟨hlaidOut, -⟩ := (result_parseBytes_eq_ok_iff harena).mp h
  exact result_parseBytes_of_laysOut harena hlaidOut

/-! ### Counting open lists -/

/-- A reader that counts open lists, at the beginning of a parse. -/
def counting (source : List Byte) (config : Config) (arena : Arena) : Gauged :=
  { reader := parsing source config arena }

/-- **The count** of open lists comes to the same result, is at nothing again in the end, and
was never above the limit. -/
theorem perform_whole_counting (source : List Byte) (config : Config) (arena : Arena) :
    ((counting source config arena).perform .whole).1 =
        .form (parseBytes source config arena).result ∧
      ((counting source config arena).perform .whole).2.depth = 0 ∧
      ((counting source config arena).perform .whole).2.highest ≤ config.maxDepth := by
  have hshows := Gauged.agrees_whole.shows (counting source config arena) rfl rfl
  have hrest := Gauged.perform_at_rest (g := counting source config arena) rfl .whole
  refine ⟨hrest.result, hrest.depth, ?_⟩
  rw [Gauged.perform]
  exact Nat.le_trans (Gauged.highest_answer_le hshows _)
    (Nat.max_le.mpr ⟨Nat.zero_le _, Nat.le_refl _⟩)

end Parsing

/-! ### The limit on nesting -/

/-- **The limit on nesting is transparent, monotone and tight.** Where memory is not limited,
parsing a source with a limit that is not met comes to the same with any higher limit, down to
what is recorded of it; where the limit is met, the reader names it; and a source that can be
parsed with a higher limit meets the lower one exactly if its form is deeper. Nothing but the
depth of forms counts, so the same holds of the next form and of all the forms that a reader
in any state still has before it. A reader that counts open lists finds the same and is never
above the limit, so that its count fits into a machine word if the limit does. -/
theorem nesting_limit (source : List Byte) (arena : Arena) (harena : arena.Unlimited) {m m' : Nat}
    (hm : m ≤ m') :
    let low := parseBytes source { maxDepth := m } arena
    let high := parseBytes source { maxDepth := m' } arena
    let counted := (counting source { maxDepth := m } arena).perform .whole
    ((∀ depth limit, low.result ≠ .error (.tooDeep depth limit)) →
      high.result = low.result ∧ high.reader.cursor = low.reader.cursor ∧
        SameButLimit source.length m m' low high) ∧
    (∀ depth limit, low.result = .error (.tooDeep depth limit) → depth = m ∧ limit = m) ∧
    (∀ t, high.result = .ok t →
      low.result = if t.depth ≤ m then .ok t else .error (.tooDeep m m)) ∧
    (∀ s : Reader, s.arena.Unlimited →
      (∀ t, ((s.withMaxDepth m').run Reader.one).result = .ok t →
        ((s.withMaxDepth m).run Reader.one).result =
          if t.depth ≤ m then .ok t else .error (.tooDeep m m)) ∧
      ∀ forms, ((s.withMaxDepth m').run Reader.all).result = .ok forms →
        ((s.withMaxDepth m).run Reader.all).result =
          if Form.depthOfItems forms ≤ m then .ok forms else .error (.tooDeep m m)) ∧
    counted.1 = .form low.result ∧ counted.2.depth = 0 ∧ counted.2.highest ≤ m ∧
      (m < UInt64.size → counted.2.highest < UInt64.size) := by
  intro low high counted
  obtain ⟨hresult, hdepth, hhighest⟩ :=
    perform_whole_counting source { maxDepth := m } arena
  exact ⟨same_of_not_tooDeep harena hm, fun _ _ => eq_maxDepth_of_tooDeep harena,
    fun _ => result_of_lower_limit harena, fun _ hs => Reader.result_withMaxDepth hs m m',
    hresult, hdepth, hhighest, Nat.lt_of_le_of_lt hhighest⟩

/-- Two lists inside one another are read if both may be open, and where only one may be open
the reader says that there was one when it met the second. -/
theorem nesting_limit_two_lists :
    ({} : Arena).Unlimited ∧ 1 ≤ 2 ∧
      (parseBytes (Text.bytes "(())") { maxDepth := 2 }).result = .ok (.list [.list []]) ∧
      (parseBytes (Text.bytes "(())") { maxDepth := 1 }).result = .error (.tooDeep 1 1) := by
  have hinner : LaidOut [Bracket.round.opening, Bracket.round.closing] (.list [])
      [Bracket.round.closing] := .list (.nil allBlank_nil)
  have houter : LaidOut (Text.bytes "(())") (.list [.list []]) [] :=
    .list (.single allBlank_nil hinner)
  have hhigh : (parseBytes (Text.bytes "(())") { maxDepth := 2 }).result =
      .ok (.list [.list []]) :=
    (result_parseBytes_eq_ok_iff Arena.unlimited_default).mpr
      ⟨.single allBlank_nil houter, by decide⟩
  refine ⟨Arena.unlimited_default, by decide, hhigh, ?_⟩
  exact (nesting_limit (Text.bytes "(())") {} Arena.unlimited_default (by decide : 1 ≤ 2)).2.2.1
    _ hhigh

end FormReader
