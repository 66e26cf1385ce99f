import FormReader.Proofs.Afresh
import FormReader.Proofs.Completeness
import FormReader.Proofs.Iteration

/-!
# One source behind another

All forms of a source, and then all forms of another one behind it: with blanks between the two
this is what reading all forms of both of them together comes to
(`FormReader.Reader.all_of_concatenation`). The first source has to be read to its end, and the
second one may fail in any way.

Of the first source it is known that it lays out its forms, and a layout does not depend on what
follows as long as a token ends there (`FormReader.ItemsLaidOut.of_behind`), so the blanks do no
harm. Behind its last form the reader has all blanks and the second source before it, where a
fresh reader has the second source only. The blanks make no difference to the machine, and the
rest is what is known of beginning afresh.
-/

namespace FormReader

namespace Reader

variable {s s' : Reader}

/-! ### All forms, the first of them, and the others -/

section First

variable (hs : s.arena.Unlimited) (hhalted : s.halted = false)

include hs hhalted

theorem all_of_onlyBlanksLeft (hleft : s.cursor.onlyBlanksLeft = true) :
    (s.run all).result = .ok [] ∧ (s.run all).reader.cursor = s.cursor := by
  obtain ⟨hall, hcursor⟩ := all_eq_allForms hs hhalted
  rw [hall, hcursor, collect_of_onlyBlanksLeft hleft]
  exact ⟨rfl, rfl⟩

variable (hleft : s.cursor.onlyBlanksLeft = false)

include hleft

theorem all_of_run_error {f : Failure} (hone : s.run one = ⟨.error f, s'⟩) :
    (s.run all).result = .error f ∧ (s.run all).reader.cursor = s'.cursor := by
  obtain ⟨hall, hcursor⟩ := all_eq_allForms hs hhalted
  rw [hall, hcursor, collect_of_run_error hhalted hleft hone]
  exact ⟨rfl, rfl⟩

/-- Where a form is read, the others are all forms that are left behind it. -/
theorem all_of_run_ok {form : Form} (hone : s.run one = ⟨.ok form, s'⟩) :
    (s.run all).result = (s'.run all).result.map (form :: ·) ∧
      (s.run all).reader.cursor = (s'.run all).reader.cursor := by
  have hfollows := steady_one.follows_of_run hone
  obtain ⟨hall, hcursor⟩ := all_eq_allForms hs hhalted
  obtain ⟨hall', hcursor'⟩ :=
    all_eq_allForms (hfollows.unlimited hs) (hfollows.halted.trans hhalted)
  rw [hall, hcursor, hall', hcursor', collect_of_run_ok hhalted hleft hone]
  exact ⟨rfl, rfl⟩

end First

/-- **Forms that are laid out first** are the first of all forms, and behind them only blanks
stand before what follows. -/
theorem all_of_itemsLaidOut {items : List Form} {bytes behind : List Byte}
    (h : ItemsLaidOut bytes items behind) (hs : s.arena.Unlimited) (hhalted : s.halted = false)
    (hrest : s.cursor.rest = bytes ++ behind)
    (hfits : Form.depthOfItems items ≤ s.config.maxDepth) :
    ∃ s' blanks, Follows s s' ∧ allBlank blanks ∧ s'.cursor.rest = blanks ++ behind ∧
      (s.run all).result = (s'.run all).result.map (items ++ ·) ∧
      (s.run all).reader.cursor = (s'.run all).reader.cursor := by
  induction items generalizing s bytes with
  | nil =>
    cases h with
    | nil hblanks =>
      refine ⟨s, bytes, .refl s, hblanks, hrest, ?_, rfl⟩
      rcases (s.run all).result with f | forms
      · rfl
      · rfl
  | cons item items ih =>
    cases h with
    | @cons blanks text rest _ _ _ hblanks hitem hitems =>
      rw [List.append_assoc, List.append_assoc] at hrest
      have hone := (ends_one_of_laidOut hs hrest hblanks hitem).and (steady_one s)
      have hfits' := Form.depthOfItems_le_iff.mp hfits
      have hleft := onlyBlanksLeft_of_laidOut hrest hitem
      rcases hrun : one s with ⟨form, s₁⟩ | ⟨f, s₁⟩
      · obtain ⟨⟨-, rfl, hrest₁⟩, hfollows⟩ := hone.of_ok hrun
        have hfits₁ : Form.depthOfItems items ≤ s₁.config.maxDepth := by
          rw [hfollows.config, Form.depthOfItems_le_iff]
          exact fun form hform => hfits' form (List.mem_cons_of_mem _ hform)
        obtain ⟨s', blanks', hfollows', hblanks', hrest', hall', hcursor'⟩ :=
          ih hitems (hfollows.unlimited hs) (hfollows.halted.trans hhalted) hrest₁ hfits₁
        obtain ⟨hall, hcursor⟩ := all_of_run_ok hs hhalted hleft (run_of_ok hrun)
        refine ⟨s', blanks', hfollows.trans hfollows', hblanks', hrest', ?_,
          hcursor.trans hcursor'⟩
        rw [hall, hall']
        rcases (s'.run all).result with f | forms
        · rfl
        · rfl
      · obtain ⟨⟨hdeep, -⟩, -⟩ := hone.of_error hrun
        exact absurd (hfits' item List.mem_cons_self) (Nat.not_le.mpr hdeep)

/-! ### The same bytes ahead -/

/-- **The same bytes ahead** are read to the same, and the positions behind differ as those
before. -/
theorem run_of_rest_eq {α : Type} {rule : ReadM α}
    (hrule : ∀ k : Course, KeepPace k.comparison Eq rule rule) {s t : Reader}
    (hs : s.arena.Unlimited) (ht : t.arena.Unlimited) (hsrange : s.pos ≤ s.cursor.source.size)
    (htrange : t.pos ≤ t.cursor.source.size) (hconfig : s.config = t.config)
    (hrest : s.cursor.rest = t.cursor.rest) :
    (s.run rule).result = (t.run rule).result ∧
      (s.run rule).reader.pos + t.pos = (t.run rule).reader.pos + s.pos := by
  have hsteady := (hrule s.freshCourse).steady
  have hfresh : s.afresh {} = t.afresh {} := by rw [afresh, afresh, hconfig, hrest]
  have hmemory := hsteady.result_ne_exhausted (s := s.afresh {}) Arena.unlimited_default
  obtain ⟨hresult, hlike⟩ := behavesAfresh_of_keepPace hrule hsrange {}
    (hsteady.result_ne_exhausted hs) hmemory
  obtain ⟨hresult', hlike'⟩ := behavesAfresh_of_keepPace hrule htrange {}
    (hsteady.result_ne_exhausted ht) (hfresh ▸ hmemory)
  rw [← hfresh] at hresult' hlike'
  refine ⟨hresult.trans hresult'.symm, ?_⟩
  have hpos := hlike.pos
  have hpos' := hlike'.pos
  omega

/-- **Having something to contribute**: a form at least, or a failure for good. -/
def Contributes (s : Reader) : Prop :=
  (∃ form, (s.run one).result = .ok form) ∨ ∃ f, f ≠ .noMatch ∧ (s.run all).result = .error f

/-- Where forms are read there is a first one. -/
theorem Contributes.of_forms {forms : List Form} (hs : s.arena.Unlimited)
    (hhalted : s.halted = false) (h : (s.run all).result = .ok forms) (hne : forms ≠ []) :
    s.Contributes := by
  cases hleft : s.cursor.onlyBlanksLeft with
  | true =>
    obtain ⟨hall, -⟩ := all_of_onlyBlanksLeft hs hhalted hleft
    exact absurd (Except.ok.inj (h.symm.trans hall)) hne
  | false =>
    rcases hone : s.run one with ⟨f | form, s'⟩
    · obtain ⟨hall, -⟩ := all_of_run_error hs hhalted hleft hone
      cases h.symm.trans hall
    · exact Or.inl ⟨form, congrArg Outcome.result hone⟩

/-- Where only blanks are left there is nothing to contribute. -/
theorem Contributes.onlyBlanksLeft (h : s.Contributes) (hs : s.arena.Unlimited)
    (hhalted : s.halted = false) : s.cursor.onlyBlanksLeft = false := by
  cases hleft : s.cursor.onlyBlanksLeft with
  | false => rfl
  | true =>
    obtain ⟨hall, -⟩ := all_of_onlyBlanksLeft hs hhalted hleft
    rcases h with ⟨form, hone⟩ | ⟨f, -, hf⟩
    · rw [result_one_of_onlyBlanksLeft hs hleft] at hone
      cases hone
    · rw [hall] at hf
      cases hf

/-- Where there is something to contribute, a failure to read the first form is for good. -/
theorem Contributes.ne_noMatch {t : Reader} {f : Failure} (h : s.Contributes)
    (hs : s.arena.Unlimited) (hhalted : s.halted = false) (hone : s.run one = ⟨.error f, t⟩) :
    f ≠ .noMatch := by
  obtain ⟨hall, -⟩ := all_of_run_error hs hhalted (h.onlyBlanksLeft hs hhalted) hone
  rintro rfl
  rcases h with ⟨form, hform⟩ | ⟨f, hne, hf⟩
  · rw [hone] at hform
    cases hform
  · exact hne (Except.error.inj (hf.symm.trans hall))

section Machine

variable {t t' : Reader} (hs : s.arena.Unlimited) (hs' : s'.arena.Unlimited)
  (hmachine : Forward.run s'.config.maxDepth (s'.forward []) =
    Forward.run s.config.maxDepth (s.forward []))

include hs hs' hmachine

/-- Two readers with the same machine read a form to the same place. -/
theorem same_place_of_ok {form : Form} (hone : s.run one = ⟨.ok form, t⟩)
    (hone' : s'.run one = ⟨.ok form, t'⟩) : t.pos = t'.pos ∧ t.cursor.rest = t'.cursor.rest := by
  have hm := run_forward_of_ok hs hone
  have hm' := run_forward_of_ok hs' hone'
  have hend := (Prod.mk.inj (hm.symm.trans (hmachine.symm.trans hm'))).2
  exact ⟨congrArg Forward.pos hend, congrArg Forward.rest hend⟩

/-- A failure for good happens where the machine ends, so they fail in the same place as well. -/
theorem same_place_of_error {f : Failure} (hf : f ≠ .noMatch) (hone : s.run one = ⟨.error f, t⟩)
    (hone' : s'.run one = ⟨.error f, t'⟩) : t.pos = t'.pos := by
  have hforward {s t : Reader} (hs : s.arena.Unlimited) (hone : s.run one = ⟨.error f, t⟩) :
      ∃ frames, Forward.run s.config.maxDepth (s.forward []) = (.error f, t.forward frames) := by
    have hsimulates := (simulates_one hs).of_result_error (congrArg Outcome.result hone)
    rw [hone] at hsimulates
    rcases hsimulates with ⟨hmatch, -⟩ | ⟨-, hout⟩
    · exact absurd hmatch hf
    · exact hout
  obtain ⟨frames, hm⟩ := hforward hs hone
  obtain ⟨frames', hm'⟩ := hforward hs' hone'
  have hend := (Prod.mk.inj (hm.symm.trans (hmachine.symm.trans hm'))).2
  exact congrArg Forward.pos hend

end Machine

/-- **Blanks ahead** make no difference, except that a reader stays in front of them if there is
nothing to contribute behind them. -/
theorem all_of_blanks_ahead {blanks behind : List Byte} (hs : s.arena.Unlimited)
    (hhalted : s.halted = false) (hsrange : s.pos ≤ s.cursor.source.size)
    (hblanks : allBlank blanks) (hrest : s.cursor.rest = blanks ++ behind)
    (hsrange' : s'.pos ≤ s'.cursor.source.size)
    (hs' : s' = { s with cursor := s.cursor.advance blanks.length }) :
    (s.run all).result = (s'.run all).result ∧
      (s'.Contributes → (s.run all).reader.pos = (s'.run all).reader.pos) := by
  have harena' : s'.arena.Unlimited := hs' ▸ hs
  have hhalted' : s'.halted = false := hs' ▸ hhalted
  have hrest' : s'.cursor.rest = behind := by
    rw [hs']
    exact Cursor.rest_advance_of_append hrest
  have hblank : s'.cursor.onlyBlanksLeft = s.cursor.onlyBlanksLeft := by
    have hall : blanks.all Byte.isBlank = true := List.all_eq_true.mpr hblanks
    rw [Cursor.onlyBlanksLeft, Cursor.onlyBlanksLeft, hrest, hrest', List.all_append, hall,
      Bool.true_and]
  cases hleft : s.cursor.onlyBlanksLeft with
  | true =>
    obtain ⟨hall, -⟩ := all_of_onlyBlanksLeft hs hhalted hleft
    obtain ⟨hall', -⟩ := all_of_onlyBlanksLeft harena' hhalted' (hblank.trans hleft)
    refine ⟨hall.trans hall'.symm, fun hcontributes => ?_⟩
    have hmore := hcontributes.onlyBlanksLeft harena' hhalted'
    rw [hblank, hleft] at hmore
    cases hmore
  | false =>
    have hmachine : Forward.run s'.config.maxDepth (s'.forward []) =
        Forward.run s.config.maxDepth (s.forward []) := by
      rw [hs']
      exact Forward.run_advance_of_allBlank (s := s.forward []) hblanks hrest
    have hsame : (s.run one).result = (s'.run one).result := by
      rw [result_one hs, result_one harena', hmachine]
    rcases hone : s.run one with ⟨result, t⟩
    rcases hone' : s'.run one with ⟨result', t'⟩
    rw [hone, hone'] at hsame
    obtain rfl : result = result' := hsame
    rcases result with f | form
    · obtain ⟨hall, hcursor⟩ := all_of_run_error hs hhalted hleft hone
      obtain ⟨hall', hcursor'⟩ := all_of_run_error harena' hhalted' (hblank.trans hleft) hone'
      refine ⟨hall.trans hall'.symm, fun hcontributes => ?_⟩
      rw [pos, hcursor, pos, hcursor']
      exact same_place_of_error hs harena' hmachine
        (hcontributes.ne_noMatch harena' hhalted' hone') hone hone'
    · obtain ⟨hall, hcursor⟩ := all_of_run_ok hs hhalted hleft hone
      obtain ⟨hall', hcursor'⟩ := all_of_run_ok harena' hhalted' (hblank.trans hleft) hone'
      obtain ⟨hpos, hbehind⟩ := same_place_of_ok hs harena' hmachine hone hone'
      have hfollows := steady_one.follows_of_run hone
      have hfollows' := steady_one.follows_of_run hone'
      have hconfig : t.config = t'.config := by
        rw [hfollows.config, hfollows'.config, hs']
      obtain ⟨hothers, hlast⟩ := run_of_rest_eq (fun _ => keepPace_all) (hfollows.unlimited hs)
        (hfollows'.unlimited harena') (hfollows.inRange hsrange) (hfollows'.inRange hsrange')
        hconfig hbehind
      rw [hall, hall', hothers]
      refine ⟨rfl, fun _ => ?_⟩
      rw [pos, hcursor, pos, hcursor']
      change (t.run all).reader.pos = (t'.run all).reader.pos
      omega

/-! ### Both sources -/

/-- **Behind the first source** and the blanks stands a reader with the second source ahead, and
what it reads comes behind the forms of the first one. -/
theorem exists_behind_first {first blanks : List Byte} (second : List Byte) {config : Config}
    {arena arena' : Arena} {forms : List Form} (hblanks : allBlank blanks) (hne : blanks ≠ [])
    (harena' : arena'.Unlimited)
    (hfirst : (({ ofBytes first arena with config } : Reader).run all).result = .ok forms) :
    let joint : Reader := { ofBytes (first ++ blanks ++ second) arena' with config }
    ∃ s : Reader, s.arena.Unlimited ∧ s.config = config ∧ s.pos = first.length + blanks.length ∧
      s.pos ≤ s.cursor.source.size ∧ s.cursor.rest = second ∧
      (joint.run all).result = (s.run all).result.map (forms ++ ·) ∧
      (s.Contributes → (joint.run all).reader.pos = (s.run all).reader.pos) := by
  intro joint
  have hread := (reads_all _).of_result_ok hfirst
  have hfits : Form.depthOfItems forms ≤ config.maxDepth :=
    Form.depthOfItems_le_iff.mpr (Form.depth_list_le_iff.mp hread.depth_le).2
  have hend : endsToken (blanks ++ second) := by
    obtain ⟨b, behind, rfl⟩ := List.exists_cons_of_ne_nil hne
    exact endsToken_cons (Byte.isSeparator_of_isBlank (hblanks b List.mem_cons_self))
  have hahead : ItemsLaidOut first forms (blanks ++ second) :=
    (laysOutAll_of_all hfirst).of_behind fun _ => hend
  -- behind the forms of the first source, and then behind the blanks
  obtain ⟨s, left, hfollows, hleft, hrest, hforms, hcursor⟩ :=
    all_of_itemsLaidOut (s := joint) hahead harena' rfl (List.append_assoc _ _ _) hfits
  have hsrange : s.pos ≤ s.cursor.source.size := hfollows.inRange (Nat.zero_le _)
  rw [← List.append_assoc] at hrest
  let s' : Reader := { s with cursor := s.cursor.advance (left ++ blanks).length }
  have hrest' : s'.cursor.rest = second := Cursor.rest_advance_of_append hrest
  have hsize : s.cursor.source.size = first.length + blanks.length + second.length := by
    rw [hfollows.source]
    change (first ++ blanks ++ second).toArray.size = _
    rw [List.size_toArray, List.length_append, List.length_append]
  have hpos : s'.pos = first.length + blanks.length := by
    have hlength := congrArg List.length hrest
    rw [Cursor.length_rest, Cursor.left, List.length_append, List.length_append] at hlength
    change s.cursor.pos + (left ++ blanks).length = _
    change s.cursor.pos ≤ _ at hsrange
    rw [List.length_append]
    omega
  have hsrange' : s'.pos ≤ s'.cursor.source.size := by
    change _ ≤ s.cursor.source.size
    omega
  obtain ⟨hskip, hplace⟩ := all_of_blanks_ahead (hfollows.unlimited harena') hfollows.halted hsrange
    (allBlank_append.mpr ⟨hleft, hblanks⟩) hrest hsrange' rfl
  refine ⟨s', hfollows.unlimited harena', hfollows.config, hpos, hsrange', hrest',
    hforms.trans (congrArg _ hskip), fun hcontributes => ?_⟩
  rw [pos, hcursor]
  exact hplace hcontributes

/-- **One source behind another**, with blanks between them and memory without limit. If all forms
of the first source can be read, reading all forms of both comes to these and those of the second
one behind them, and fails as the second one does if it does; there are no forms only if neither
has any. The reader stops where it stops in the second source if this contributes a form, one
that is read before a failure included, or a failure for good. -/
theorem all_of_concatenation (first blanks second : List Byte) (config : Config)
    (arena arena' arena'' : Arena) (forms : List Form) (hblanks : allBlank blanks)
    (hne : blanks ≠ []) (harena' : arena'.Unlimited) (harena'' : arena''.Unlimited)
    (hfirst : (({ ofBytes first arena with config } : Reader).run all).result = .ok forms) :
    let joint : Reader := { ofBytes (first ++ blanks ++ second) arena' with config }
    let later : Reader := { ofBytes second arena'' with config }
    (∀ others, (later.run all).result = .ok others →
      (joint.run all).result = .ok (forms ++ others)) ∧
    (∀ f, (later.run all).result = .error f → (joint.run all).result = .error f) ∧
    ((joint.run all).result = .ok [] ↔ forms = [] ∧ (later.run all).result = .ok []) ∧
    ((∃ others, others ≠ [] ∧ (later.run all).result = .ok others) ∨ later.Contributes →
      (joint.run all).reader.pos = first.length + blanks.length + (later.run all).reader.pos) := by
  intro joint later
  obtain ⟨s, hs, hconfig, hpos, hsrange, hrest, hforms, hplace⟩ :=
    exists_behind_first second hblanks hne harena' hfirst
  -- from there on everything is as in the second source
  have hlater {α : Type} {rule : ReadM α}
      (hrule : ∀ k : Course, KeepPace k.comparison Eq rule rule) :=
    run_of_rest_eq hrule (t := later) hs harena'' hsrange (Nat.zero_le _) hconfig hrest
  have hjoint : (joint.run all).result = (later.run all).result.map (forms ++ ·) := by
    rw [hforms, (hlater fun _ => keepPace_all).1]
  refine ⟨fun others hothers => ?_, fun f hf => ?_, ?_, fun h => ?_⟩
  · rw [hjoint, hothers]
    rfl
  · rw [hjoint, hf]
    rfl
  · rw [hjoint]
    rcases (later.run all).result with f | others
    · simp [Except.map]
    · simp [Except.map]
  · have hcontributes : later.Contributes := by
      rcases h with ⟨others, hothers, hresult⟩ | h
      · exact .of_forms harena'' rfl hresult hothers
      · exact h
    rw [Contributes, ← (hlater fun _ => keepPace_one).1, ← (hlater fun _ => keepPace_all).1]
      at hcontributes
    have hlast := (hlater fun _ => keepPace_all).2
    change _ + 0 = _ at hlast
    rw [hplace hcontributes]
    omega

/-- A stray bracket behind two forms, one of which is in the first source: all of them fail to
match, in front of the bracket. -/
theorem all_of_concatenation_stray_bracket :
    allBlank [32] ∧ ({} : Arena).Unlimited ∧
      ((ofBytes (Text.bytes "a")).run all).result = .ok [.atom (.symbol "a")] ∧
      ((ofBytes (Text.bytes "a" ++ [32] ++ Text.bytes "b)")).run all).result = .error .noMatch ∧
      ((ofBytes (Text.bytes "a" ++ [32] ++ Text.bytes "b)")).run all).reader.pos = 3 := by
  have hblanks : allBlank [32] := by
    intro b hb
    rw [List.mem_singleton.mp hb]
    rfl
  have hfirst : ((ofBytes (Text.bytes "a")).run all).result = .ok [.atom (.symbol "a")] := by
    decide +kernel
  have hone : ((ofBytes (Text.bytes "b)")).run one).result = .ok (.atom (.symbol "b")) := by
    decide +kernel
  have hlater : ((ofBytes (Text.bytes "b)")).run all).result = .error .noMatch := by decide +kernel
  have hpos : ((ofBytes (Text.bytes "b)")).run all).reader.pos = 1 := by decide +kernel
  obtain ⟨-, hfails, -, hplace⟩ := all_of_concatenation (Text.bytes "a") [32] (Text.bytes "b)") {}
    {} {} {} _ hblanks (List.cons_ne_nil _ _) Arena.unlimited_default Arena.unlimited_default hfirst
  refine ⟨hblanks, Arena.unlimited_default, hfirst, hfails _ hlater, ?_⟩
  refine (hplace (Or.inr (Or.inl ⟨_, hone⟩))).trans ?_
  change 1 + 1 + ((ofBytes (Text.bytes "b)")).run all).reader.pos = 3
  rw [hpos]

end Reader

end FormReader
