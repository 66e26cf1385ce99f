import FormReader.Proofs.Actions
import FormReader.Proofs.Exhaustion
import FormReader.Proofs.Gauging

/-!
# Nothing is left of what was read before

A session leaves a reader somewhere in its source, with whatever happened to it on the way. For
what it reads next only three things matter: where it stands, its settings, and whether its
iteration has halted. This is put by comparing it with a fresh reader, whose source is what the
first one still has before it (`FormReader.Reader.session_afresh`). The two find the same, and
differ in their positions by the number of bytes that lie behind the first one. Memory is left
out of this, since an arena does remember: it is supposed that neither runs out of it.

That lists which were left open by a failure do not count any more is a part of the claim. A
reader does not count open lists, but one that does (`FormReader.Gauged`) has none open behind
any session.
-/

namespace FormReader

namespace Reader

variable {α : Type}

/-! ### Fresh readers -/

/-- **A fresh reader** for what a reader still has before it, with the same settings. -/
def afresh (s : Reader) (arena : Arena) : Reader :=
  { ofBytes s.cursor.rest arena with config := s.config }

/-- Two readers that came as far, one from `s` and the other from a fresh reader. Their positions
differ by the position of `s`, also those that are told in events. -/
structure LikeAfresh (s t t' : Reader) : Prop where
  pos : t.pos = t'.pos + s.pos
  events : t.events = s.events ++ t'.events.map (Event.shift s.pos)

/-- **A rule comes to the same** on a reader and on a fresh one, if neither runs out of
memory. -/
def BehavesAfresh (rule : ReadM α) (s fresh : Reader) : Prop :=
  (∀ e, (s.run rule).result ≠ .error (.exhausted e)) →
    (∀ e, (fresh.run rule).result ≠ .error (.exhausted e)) →
      (s.run rule).result = (fresh.run rule).result ∧
        LikeAfresh s (s.run rule).reader (fresh.run rule).reader

/-- The course of a reader and a fresh one. -/
def freshCourse (s : Reader) : Course := .level s.pos s.log [] s.config.maxDepth

theorem abreast_afresh {s : Reader} (hs : s.pos ≤ s.cursor.source.size) {free : Arena}
    (hfree : free.Unlimited) : Abreast s.freshCourse s (s.afresh free) :=
  ⟨.ofBytes_rest hs, rfl, rfl, hfree, [], rfl, rfl, isCalm_nil⟩

/-- **Beginning afresh**: a rule that keeps pace comes to the same on a fresh reader. -/
theorem behavesAfresh_of_keepPace {rule : ReadM α}
    (hrule : ∀ k : Course, KeepPace k.comparison Eq rule rule) {s : Reader}
    (hs : s.pos ≤ s.cursor.source.size) (arena : Arena) :
    BehavesAfresh rule s (s.afresh arena) := by
  intro hmemory hmemory'
  -- the fresh reader may as well have memory without limit
  obtain ⟨e, he, -⟩ | ⟨hresult, hbut⟩ :=
    run_of_keepPace hrule (s.afresh arena) Arena.unlimited_default
  · exact absurd he (hmemory' e)
  have halike := (hrule s.freshCourse).alike _ _ (abreast_afresh hs Arena.unlimited_default)
  obtain hsame | ⟨f, hf, hcut⟩ := halike.same_or_cut
  · obtain ⟨own, hlog, hlog'⟩ := hsame.log
    refine ⟨hsame.result.trans hresult.symm, ?_, ?_⟩
    · rw [pos, pos, hbut.cursor]
      exact hsame.cursor.pos
    · have hown : ((s.afresh {}).run rule).reader.events = own.reverse := by
        rw [events, hlog']
        exact congrArg List.reverse (List.append_nil own)
      rw [hbut.events, events, hlog, List.reverse_append, ← List.map_reverse]
      exact congrArg (fun own => s.events ++ own.map (Event.shift s.pos)) hown.symm
  · obtain ⟨e, rfl⟩ | ⟨-, hlt⟩ := hcut.failure
    · exact absurd hf (hmemory e)
    · exact absurd hlt (Nat.lt_irrefl _)

/-- **Iteration goes on** as a fresh one begins, unless it has halted. -/
theorem next_afresh {s : Reader} (hs : s.pos ≤ s.cursor.source.size) (hhalted : s.halted = false)
    (arena : Arena) (hmemory : ∀ e, s.next.1 ≠ some (.error (.exhausted e)))
    (hmemory' : ∀ e, (s.afresh arena).next.1 ≠ some (.error (.exhausted e))) :
    s.next.1 = (s.afresh arena).next.1 ∧ LikeAfresh s s.next.2 (s.afresh arena).next.2 := by
  have hblank : (s.afresh arena).cursor.onlyBlanksLeft = s.cursor.onlyBlanksLeft := rfl
  rw [next_of_not_halted hhalted] at hmemory ⊢
  rw [next_of_not_halted rfl, hblank] at hmemory' ⊢
  by_cases hleft : s.cursor.onlyBlanksLeft = true
  · rw [if_pos hleft, if_pos hleft]
    exact ⟨rfl, (Nat.zero_add _).symm, (List.append_nil _).symm⟩
  · rw [if_neg hleft] at hmemory hmemory'
    obtain ⟨hresult, hlike⟩ := behavesAfresh_of_keepPace (fun _ => keepPace_one) hs arena
      (fun e he => hmemory e (congrArg some he)) fun e he => hmemory' e (congrArg some he)
    rw [if_neg hleft, if_neg hleft]
    exact ⟨congrArg some hresult, hlike.pos, hlike.events⟩

/-! ### Behind a session -/

/-- **Behind every session a reader behaves like a fresh one** on what is left of the source.
However the steps of the session ended, no list counts as open any more, the source is the same,
the cursor stands in it and the settings are the ones given last; and reading one form, a form
and nothing else, all forms, the end of the source or the next form of an iteration that has not
halted comes to what a fresh reader with these settings comes to, up to the position that the
session has reached. -/
theorem session_afresh (source : List Byte) (arena : Arena) (steps : List Step) :
    let ended := (ofBytes source arena).session steps
    let counted := (Gauged.ofBytes source arena).session steps
    let s := ended.2
    (counted.1 = ended.1 ∧ counted.2.reader = s ∧ counted.2.depth = 0) ∧
    s.cursor.source.toList = source ∧ s.pos ≤ source.length ∧
    s.config = (steps.filterMap Step.setting?).getLast?.getD {} ∧
    ∀ arena' : Arena,
      let fresh := { ofBytes (source.drop s.pos) arena' with config := s.config }
      BehavesAfresh one s fresh ∧ BehavesAfresh whole s fresh ∧ BehavesAfresh all s fresh ∧
      BehavesAfresh finish s fresh ∧
      (s.halted = false → (∀ e, s.next.1 ≠ some (.error (.exhausted e))) →
        (∀ e, fresh.next.1 ≠ some (.error (.exhausted e))) →
          s.next.1 = fresh.next.1 ∧ LikeAfresh s s.next.2 fresh.next.2) := by
  intro ended counted s
  have hrest := Gauged.session_at_rest (g := Gauged.ofBytes source arena) rfl steps
  have honward : Onward (ofBytes source arena) s := onward_session _ steps
  have hsource : s.cursor.source.toList = source := by
    rw [honward.source]
    exact List.toList_toArray
  have hsize : s.cursor.source.size = source.length := by
    rw [← Array.length_toList, hsource]
  have hinRange : s.pos ≤ s.cursor.source.size := honward.inRange (Nat.zero_le _)
  refine ⟨⟨hrest.result, hrest.reader, hrest.depth⟩, hsource, hsize ▸ hinRange,
    config_session _ steps, fun arena' => ?_⟩
  intro fresh
  have hfresh : fresh = s.afresh arena' := by
    rw [afresh, Cursor.rest_eq, hsource]
    rfl
  rw [hfresh]
  exact ⟨behavesAfresh_of_keepPace (fun _ => keepPace_one) hinRange arena',
    behavesAfresh_of_keepPace (fun _ => keepPace_whole) hinRange arena',
    behavesAfresh_of_keepPace (fun _ => keepPace_all) hinRange arena',
    behavesAfresh_of_keepPace (fun _ => keepPace_finish) hinRange arena',
    fun hhalted => next_afresh hinRange hhalted arena'⟩

/-- A bracket that is one too many leaves the reader behind it, and the symbol that follows is
read as at the beginning of a source. -/
theorem session_afresh_behind_bracket :
    let s := ((ofBytes (Text.bytes "((a")).session [.setMaxDepth 1, .act .one]).2
    let fresh : Reader := { ofBytes ((Text.bytes "((a").drop s.pos) with config := s.config }
    s.pos = 2 ∧ s.halted = false ∧
      (s.run one).result = .ok (.atom (.symbol "a")) ∧ LikeAfresh s (s.run one).reader
        (fresh.run one).reader ∧
      s.next.1 = fresh.next.1 := by
  intro s fresh
  have hhalted : s.halted = false := by decide +kernel
  have hresult : (s.run one).result = .ok (.atom (.symbol "a")) := by decide +kernel
  have hnext : s.next.1 = some (.ok (.atom (.symbol "a"))) := by decide +kernel
  have hfresh : (fresh.run one).result = .ok (.atom (.symbol "a")) := by decide +kernel
  have hfreshNext : fresh.next.1 = some (.ok (.atom (.symbol "a"))) := by decide +kernel
  obtain ⟨-, -, -, -, hafresh⟩ := session_afresh (Text.bytes "((a") {} [.setMaxDepth 1, .act .one]
  obtain ⟨hone, -, -, -, hiterate⟩ := hafresh {}
  refine ⟨by decide +kernel, hhalted, hresult, ?_, ?_⟩
  · refine (hone (fun e he => ?_) fun e he => ?_).2
    · cases hresult.symm.trans he
    · cases hfresh.symm.trans he
  · refine (hiterate hhalted (fun e he => ?_) fun e he => ?_).1
    · cases hnext.symm.trans he
    · cases hfreshNext.symm.trans he

end Reader

end FormReader
