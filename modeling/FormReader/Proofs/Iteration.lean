import FormReader.Proofs.Exhaustion
import FormReader.Proofs.InTurn
import FormReader.Proofs.Simulation

/-!
# Iteration, and reading all at once

There are three ways to read the forms of a source: to iterate over them, to read them all as
the items of one list, and to read a single form and look whether anything is left. Each of them
is a loop of its own, or none, with its own rule for where to stop. They agree
(`FormReader.Reader.iteration_agrees`): what an iteration hands out tells what each of the
others answers, on a source of any kind.

The link between the two loops is the relation `FormReader.Reader.ReadsInTurn`. Reading all
forms is known to read them in turn, and an iteration from the same place goes through the same
forms, since the two differ by nothing but what their arenas have granted
(`FormReader.Reader.collect_of_readsInTurn`).
-/

namespace FormReader

namespace Reader

/-! ### What an iteration hands out -/

/-- **Handing out**: the results of an iteration, asked for one after another until there is no
more, and the reader behind them. -/
inductive HandsOut : Reader → List (Except Failure Form) → Reader → Prop
  /-- There is nothing to hand out. -/
  | over {s s' : Reader} : s.next = (none, s') → HandsOut s [] s'
  /-- A result is handed out before those that follow it. -/
  | item {s s₁ s' : Reader} {result : Except Failure Form} {rest : List (Except Failure Form)} :
    s.next = (some result, s₁) → HandsOut s₁ rest s' → HandsOut s (result :: rest) s'

/-- A failure that is handed out is the last. -/
theorem next_of_next_error {s s' : Reader} {f : Failure} (h : s.next = (some (.error f), s')) :
    s'.next = (none, s') := by
  have hhalted : s'.halted = true := by
    rw [next] at h
    split at h
    · cases h
    · split at h
      · cases h
      · cases h
        rfl
  rw [next, if_pos (Or.inl hhalted)]

/-- What is collected is what is handed out. -/
theorem handsOut_collect (s : Reader) : HandsOut s s.collect.1 s.collect.2 := by
  induction s using collect.induct with
  | case1 s s' hnext =>
    rw [collect, hnext]
    exact .over hnext
  | case2 s f s' hnext =>
    rw [collect, hnext]
    exact .item hnext (.over (next_of_next_error hnext))
  | case3 s t s' hnext hlt results s'' hresults ih =>
    rw [collect, hnext]
    simp only [hlt, ↓reduceIte]
    exact .item hnext ih
  | case4 s t s' hnext hstop =>
    -- a form takes at least one byte
    exact absurd (reads_next hnext).1.left_lt hstop

section Steps

variable {s s' : Reader}

theorem collect_of_onlyBlanksLeft (h : s.cursor.onlyBlanksLeft = true) : s.collect = ([], s) := by
  have hnext : s.next = (none, s) := by rw [next, if_pos (Or.inr h)]
  rw [collect, hnext]

variable (hs : s.halted = false) (hleft : s.cursor.onlyBlanksLeft = false)

include hs hleft

theorem collect_of_run_error {f : Failure} (hone : s.run one = ⟨.error f, s'⟩) :
    s.collect = ([.error f], { s' with halted := true }) := by
  have hnext : s.next = (some (.error f), { s' with halted := true }) := by
    rw [next_of_not_halted hs, hleft, hone]
    rfl
  rw [collect, hnext]

theorem collect_of_run_ok {t : Form} (hone : s.run one = ⟨.ok t, s'⟩) :
    s.collect = (.ok t :: s'.collect.1, s'.collect.2) := by
  have hfollows := steady_one.follows_of_run hone
  have hnext : s.next = (some (.ok t), s') := by
    rw [next_of_not_halted hs, hleft, hone]
    have hhalted : s'.halted = !isOk (.ok t : Except Failure Form) := hfollows.halted.trans hs
    rw [if_neg Bool.false_ne_true, ← hhalted]
  rw [collect, hnext]
  simp only [(reads_next hnext).1.left_lt, ↓reduceIte]

end Steps

/-! ### The same in another arena -/

section Arenas

variable {α : Type} {s t : Reader}

theorem SameButArena.eq_withArena (h : SameButArena s t) : t = s.withArena t.arena := by
  have hlog : s.log = t.log := List.reverse_injective h.events
  obtain ⟨_, _, _, _, _⟩ := s
  obtain ⟨_, _, _, _, _⟩ := t
  obtain ⟨rfl, rfl, rfl, -⟩ := h
  cases hlog
  rfl

/-- A rule that does not run out of memory comes to the same where there is no limit. -/
theorem SameButArena.run_eq {rule : ReadM α} {result : Except Failure α} {s' : Reader}
    (h : SameButArena s t) (hrule : ∀ k : Course, KeepPace k.comparison Eq rule rule)
    (ht : t.arena.Unlimited) (hs : s.run rule = ⟨result, s'⟩)
    (hmemory : ∀ e, result ≠ .error (.exhausted e)) :
    ∃ t', t.run rule = ⟨result, t'⟩ ∧ SameButArena s' t' ∧ Follows t t' := by
  have hsteady := (hrule s.arenaCourse).steady.follows_run t
  have hsame := run_of_keepPace hrule s ht
  rw [← h.eq_withArena, hs] at hsame
  rcases hsame with ⟨e, he, -⟩ | ⟨hresult, hst⟩
  · exact absurd he (hmemory e)
  · refine ⟨(t.run rule).reader, ?_, hst, hsteady⟩
    rw [show result = (t.run rule).result from hresult]

end Arenas

/-! ### Reading all forms -/

section All

variable {s s₁ t : Reader} {forms : List Form}

/-- **An iteration hands out what is read in turn**, and goes on from there. -/
theorem collect_of_readsInTurn (h : ReadsInTurn s forms s₁) (hst : SameButArena s t)
    (ht : t.arena.Unlimited) (hhalted : t.halted = false) :
    ∃ t₁, SameButArena s₁ t₁ ∧ t₁.arena.Unlimited ∧ t₁.halted = false ∧
      t.collect = (forms.map .ok ++ t₁.collect.1, t₁.collect.2) := by
  induction h with
  | nil => exact ⟨t, hst, ht, hhalted, rfl⟩
  | @snoc forms form s₁ s₂ arena _ hleft hone ih =>
    obtain ⟨t₁, hst₁, ht₁, hhalted₁, hcollect⟩ := ih
    obtain ⟨t₂, hone₁, hst₂, hfollows⟩ := hst₁.run_eq (fun _ => keepPace_one) ht₁ hone nofun
    rw [hst₁.cursor] at hleft
    refine ⟨t₂, ?_, hfollows.unlimited ht₁, hfollows.halted.trans hhalted₁, ?_⟩
    · exact ⟨hst₂.cursor, hst₂.config, hst₂.halted, hst₂.events⟩
    · rw [hcollect, collect_of_run_ok hhalted₁ hleft hone₁]
      simp

/-- **All forms and an iteration**: the forms that an iteration hands out are the ones that are
read at once, the failure that it ends with is the one of reading all, and the two leave their
cursors at the same place. -/
theorem all_of_collect (hs : s.arena.Unlimited) (hst : SameButArena s t) (ht : t.arena.Unlimited)
    (hhalted : t.halted = false) :
    ∃ (forms : List Form) (failure? : Option Failure),
      t.collect.1 = forms.map .ok ++ failure?.toList.map .error ∧
      (s.run all).result = failure?.elim (.ok forms) .error ∧
      (s.run all).reader.cursor = t.collect.2.cursor := by
  have hall := ends_all_in_turn s
  rcases hrun : all s with ⟨forms, s'⟩ | ⟨f, s'⟩
  · obtain ⟨s₁, hread, hleft, hcursor⟩ := hall.of_ok hrun
    obtain ⟨t₁, hst₁, -, -, hcollect⟩ := collect_of_readsInTurn hread hst ht hhalted
    rw [hst₁.cursor] at hleft
    rw [collect_of_onlyBlanksLeft hleft] at hcollect
    rw [run_of_ok hrun, hcollect]
    exact ⟨forms, none, rfl, rfl, hcursor.trans hst₁.cursor⟩
  · have hmemory : ∀ e, f ≠ .exhausted e := ((steady_all s).of_error hrun).2 hs
    obtain ⟨forms, s₁, hread, hleft, hone⟩ | ⟨e, he⟩ := hall.of_error hrun
    · obtain ⟨t₁, hst₁, ht₁, hhalted₁, hcollect⟩ := collect_of_readsInTurn hread hst ht hhalted
      obtain ⟨t₂, hone₁, hst₂, -⟩ := hst₁.run_eq (fun _ => keepPace_one) ht₁ hone
        fun e he => hmemory e (Except.error.inj he)
      rw [hst₁.cursor] at hleft
      rw [collect_of_run_error hhalted₁ hleft hone₁] at hcollect
      rw [run_of_error hrun, hcollect]
      exact ⟨forms, some f, rfl, rfl, hst₂.cursor⟩
    · exact absurd he (hmemory e)

/-- The result that some results come to if all of them have to be forms. -/
def allForms : List (Except Failure Form) → Except Failure (List Form)
  | [] => .ok []
  | .error f :: _ => .error f
  | .ok t :: rest => (allForms rest).map (t :: ·)

/-- Forms that come first are the first of all forms. -/
theorem allForms_append (forms : List Form) (rest : List (Except Failure Form)) :
    allForms (forms.map .ok ++ rest) = (allForms rest).map (forms ++ ·) := by
  induction forms with
  | nil =>
    rcases hrest : allForms rest with f | items
    · rw [List.map_nil, List.nil_append, hrest]
      rfl
    · rw [List.map_nil, List.nil_append, hrest]
      rfl
  | cons t forms ih =>
    rw [List.map_cons, List.cons_append, allForms, ih]
    rcases allForms rest with f | items
    · rfl
    · rfl

/-- **Reading all forms** comes to what an iteration hands out. -/
theorem all_eq_allForms (hs : s.arena.Unlimited) (hhalted : s.halted = false) :
    (s.run all).result = allForms s.collect.1 ∧
      (s.run all).reader.cursor = s.collect.2.cursor := by
  obtain ⟨forms, failure?, hcollect, hresult, hcursor⟩ :=
    all_of_collect hs ⟨rfl, rfl, rfl, rfl⟩ hs hhalted
  refine ⟨?_, hcursor⟩
  rw [hresult, hcollect, allForms_append]
  rcases failure? with _ | f
  · rw [Option.elim, Option.toList, List.map_nil, allForms, Except.map, List.append_nil]
  · rfl

end All

/-! ### Reading a single form -/

/-- The result that some results come to if there has to be one form and nothing else. -/
def soleForm : List (Except Failure Form) → Except Failure Form
  | [.ok t] => .ok t
  | .error f :: _ => .error f
  | _ => .error .noMatch

/-- There is no form among blanks. -/
theorem result_one_of_onlyBlanksLeft {s : Reader} (hs : s.arena.Unlimited)
    (h : s.cursor.onlyBlanksLeft = true) : (s.run one).result = .error .noMatch := by
  have hblank : allBlank (s.forward []).rest := List.all_eq_true.mp h
  obtain ⟨m, hm⟩ : ∃ m, Forward.run s.config.maxDepth (s.forward []) = (.error .noMatch, m) :=
    Forward.run_of_allBlank hblank
  have hone := simulates_one hs
  rw [hm] at hone
  rw [run]
  split
  · next t s' hrun => cases hone.of_ok hrun
  · next f s' hrun =>
    obtain ⟨rfl, -⟩ | ⟨rfl, inner, hout⟩ := hone.of_error hrun
    · rfl
    · cases hout

/-- A form and nothing else: one form, and then the end of the source. -/
theorem result_whole (s : Reader) :
    (s.run whole).result =
      match s.run one with
      | ⟨.ok t, s'⟩ => if s'.cursor.onlyBlanksLeft then .ok t else .error .noMatch
      | ⟨.error f, _⟩ => .error f := by
  rw [whole, run_bind]
  rcases s.run one with ⟨f | t, s'⟩
  · rfl
  · dsimp only
    have hlook : s'.run get = ⟨.ok s', s'⟩ := rfl
    rw [run_bind, finish, run_bind, hlook]
    dsimp only
    cases s'.cursor.onlyBlanksLeft with
    | true => rfl
    | false => rfl

/-- **A form and nothing else** is what an iteration hands out if it hands out nothing else. -/
theorem result_whole_eq_soleForm {s t : Reader} (hs : s.arena.Unlimited) (hst : SameButArena s t)
    (ht : t.arena.Unlimited) (hhalted : t.halted = false) :
    (s.run whole).result = soleForm t.collect.1 := by
  rw [result_whole]
  have hmemory := steady_one.result_ne_exhausted hs
  rcases hone : s.run one with ⟨result, s'⟩
  rw [hone] at hmemory
  obtain ⟨t', hone', hst', hfollows⟩ := hst.run_eq (fun _ => keepPace_one) ht hone hmemory
  cases hleft : t.cursor.onlyBlanksLeft with
  | true =>
    have hnone := result_one_of_onlyBlanksLeft ht hleft
    rw [hone'] at hnone
    cases hnone
    rw [collect_of_onlyBlanksLeft hleft]
    rfl
  | false =>
    rcases result with f | form
    · rw [collect_of_run_error hhalted hleft hone']
      rfl
    · rw [collect_of_run_ok hhalted hleft hone']
      dsimp only
      rw [hst'.cursor]
      have hhalted' : t'.halted = false := hfollows.halted.trans hhalted
      cases hleft' : t'.cursor.onlyBlanksLeft with
      | true =>
        rw [collect_of_onlyBlanksLeft hleft']
        rfl
      | false =>
        -- there is something behind the form, whatever it is
        rcases hone'' : t'.run one with ⟨f | form', t''⟩
        · rw [collect_of_run_error hhalted' hleft' hone'']
          rfl
        · rw [collect_of_run_ok hhalted' hleft' hone'']
          rfl

section SoleForm

variable {results : List (Except Failure Form)}

theorem soleForm_eq_ok_iff {t : Form} : soleForm results = .ok t ↔ results = [.ok t] := by
  rcases results with _ | ⟨f | t', _ | ⟨r, rest⟩⟩
  · simp [soleForm]
  · simp [soleForm]
  · simp [soleForm]
  · simp [soleForm]
  · simp [soleForm]

theorem soleForm_eq_error_iff {f : Failure} (hf : f ≠ .noMatch) :
    soleForm results = .error f ↔ results.head? = some (.error f) := by
  rcases results with _ | ⟨g | t', _ | ⟨r, rest⟩⟩
  · simp [soleForm, hf.symm]
  · simp [soleForm]
  · simp [soleForm]
  · simp [soleForm]
  · simp [soleForm, hf.symm]

theorem soleForm_eq_noMatch_iff :
    soleForm results = .error .noMatch ↔
      results = [] ∨ results.head? = some (.error .noMatch) ∨
        ∃ t next rest, results = .ok t :: next :: rest := by
  rcases results with _ | ⟨f | t', _ | ⟨r, rest⟩⟩
  · simp [soleForm]
  · simp [soleForm]
  · simp [soleForm]
  · simp [soleForm]
  · simp [soleForm]

end SoleForm

/-! ### The three ways -/

/-- **The three ways of reading a source agree**, where memory is not limited. An iteration over
its forms hands out forms, and then one failure at most. Reading all forms answers with the
same forms in the same order if there is no failure, and with the failure if there is one, and
the two stop at the same place. Reading a form and nothing else finds a form exactly if it is
all that is handed out, fails for good exactly as an iteration does that begins with this
failure, and does not match in all other cases: if nothing is handed out, or a mismatch, or
anything behind a form. -/
theorem iteration_agrees (source : List Byte) (config : Config) (arena arena' : Arena)
    (harena : arena.Unlimited) (harena' : arena'.Unlimited) :
    let t : Reader := { ofBytes source arena with config }
    let s : Reader := { ofBytes source arena' with config }
    let results := t.collect.1
    HandsOut t results t.collect.2 ∧
    (∃ (forms : List Form) (failure? : Option Failure),
      results = forms.map .ok ++ failure?.toList.map .error ∧
      (s.run all).result = failure?.elim (.ok forms) .error ∧
      (s.run all).reader.cursor = t.collect.2.cursor) ∧
    (∀ form, (s.run whole).result = .ok form ↔ results = [.ok form]) ∧
    (∀ f, f ≠ .noMatch →
      ((s.run whole).result = .error f ↔ results.head? = some (.error f))) ∧
    ((s.run whole).result = .error .noMatch ↔
      results = [] ∨ results.head? = some (.error .noMatch) ∨
        ∃ form next rest, results = .ok form :: next :: rest) := by
  intro t s results
  have hst : SameButArena s t := ⟨rfl, rfl, rfl, rfl⟩
  have hwhole : (s.run whole).result = soleForm results :=
    result_whole_eq_soleForm harena' hst harena rfl
  rw [hwhole]
  exact ⟨handsOut_collect t, all_of_collect harena' hst harena rfl,
    fun _ => soleForm_eq_ok_iff, fun _ hf => soleForm_eq_error_iff hf, soleForm_eq_noMatch_iff⟩

/-- Two forms with a stray bracket behind them: an iteration hands out the forms and the
mismatch, reading all comes to the mismatch at the same place, and there is no sole form. -/
theorem iteration_agrees_stray_bracket :
    let s := ofBytes (Text.bytes "a 1 )")
    ({} : Arena).Unlimited ∧
      s.collect.1 = [.ok (.atom (.symbol "a")), .ok (.atom (.number 1)), .error .noMatch] ∧
      (s.run all).result = .error .noMatch ∧ (s.run all).reader.cursor = s.collect.2.cursor ∧
      (s.run whole).result = .error .noMatch := by
  intro s
  let s₁ := (s.run one).reader
  let s₂ := (s₁.run one).reader
  have hsymbol : s.run one = ⟨.ok (.atom (.symbol "a")), s₁⟩ :=
    run_of_result (by decide +kernel)
  have hnumber : s₁.run one = ⟨.ok (.atom (.number 1)), s₂⟩ :=
    run_of_result (by decide +kernel)
  have hbracket : s₂.run one = ⟨.error .noMatch, (s₂.run one).reader⟩ :=
    run_of_result (by decide +kernel)
  have hcollect : s.collect.1 =
      [.ok (.atom (.symbol "a")), .ok (.atom (.number 1)), .error .noMatch] := by
    rw [collect_of_run_ok rfl (by decide +kernel) hsymbol,
      collect_of_run_ok (by decide +kernel) (by decide +kernel) hnumber,
      collect_of_run_error (by decide +kernel) (by decide +kernel) hbracket]
  obtain ⟨-, ⟨forms, failure?, hforms, hall, hcursor⟩, -, -, hwhole⟩ := iteration_agrees
    (Text.bytes "a 1 )") {} {} {} Arena.unlimited_default Arena.unlimited_default
  refine ⟨Arena.unlimited_default, hcollect, ?_, hcursor, ?_⟩
  · have hlast := congrArg List.getLast? (hcollect.symm.trans hforms)
    refine hall.trans ?_
    rcases failure? with _ | f
    · simp at hlast
    · obtain rfl : Failure.noMatch = f := by simpa using hlast
      rfl
  · exact hwhole.mpr (Or.inr (Or.inr ⟨_, _, _, hcollect⟩))

end Reader

end FormReader
