import FormReader.Proofs.Soundness

/-!
# One form after another

Reading all forms of a source is reading one of them after another, with nothing done to the
reader in between but asking its arena for room. `FormReader.Reader.ReadsInTurn` says of two
readers that some forms were read in turn between them, and
`FormReader.Reader.ends_all_in_turn` takes reading all forms apart in this way, for an arena of
any kind: either there are only blanks left behind the last of them, or the next one is not
read, or memory has run out.
-/

namespace FormReader

namespace Reader

variable {s s' : Reader} {forms : List Form}

/-- **Forms read in turn** between two readers. Each of them begins behind the one before, and
only the arena may have changed since. -/
inductive ReadsInTurn (s : Reader) : List Form → Reader → Prop
  | nil : ReadsInTurn s [] s
  | snoc {forms : List Form} {form : Form} {s₁ s₂ : Reader} {arena : Arena} :
    ReadsInTurn s forms s₁ → s₁.cursor.onlyBlanksLeft = false →
    s₁.run one = ⟨.ok form, s₂⟩ → ReadsInTurn s (forms ++ [form]) (s₂.withArena arena)

/-- Pushing a form changes nothing but the arena. -/
theorem ends_push_withArena (forms : Scratch Form) (form : Form) (s : Reader) :
    Ends (push forms form) s
      (fun forms' s' => forms' = forms.pushed s.arena.allocator form ∧
        ∃ arena, s' = s.withArena arena)
      (fun f _ => ∃ e, f = .exhausted e) := by
  have hgives := Scratch.gives_push forms form s.arena
  rw [push, ends_ask]
  rcases hr : forms.push form s.arena with ⟨forms', arena⟩ | ⟨e, arena⟩
  · rw [hr] at hgives
    exact ⟨hgives.1, arena, rfl⟩
  · exact ⟨e, rfl⟩

/-- What goes wrong in reading all forms: the next form is not read, or memory runs out. -/
def BreaksOff (s : Reader) (f : Failure) (s' : Reader) : Prop :=
  (∃ forms s₁, ReadsInTurn s forms s₁ ∧ s₁.cursor.onlyBlanksLeft = false ∧
    s₁.run one = ⟨.error f, s'⟩) ∨ ∃ e, f = .exhausted e

/-- Gathering one more form reads it in turn. -/
theorem round_in_turn (s : Reader) :
    Round oneMore push (fun forms s₁ => ReadsInTurn s forms.items.toList s₁)
      (fun forms s₁ => ReadsInTurn s forms.items.toList s₁ ∧ s₁.cursor.onlyBlanksLeft = true)
      (BreaksOff s) := by
  intro forms s₁ h
  rw [oneMore, ends_bind, ends_get]
  cases hleft : s₁.cursor.onlyBlanksLeft with
  | true => exact ⟨h, hleft⟩
  | false =>
    refine ends_bind.mpr ?_
    rw [Ends]
    split
    · next form s₂ hone =>
      have hmoved := ((reads_one s₁).of_ok hone).left_lt
      refine (ends_push_withArena forms form s₂).imp (fun forms' s₃ h₃ => ?_)
        fun f s₃ h₃ => Or.inr h₃
      obtain ⟨rfl, arena, rfl⟩ := h₃
      have hread : ReadsInTurn s (forms.pushed s₂.arena.allocator form).items.toList
          (s₂.withArena arena) := by
        rw [Scratch.toList_pushed]
        exact h.snoc hleft (run_of_ok hone)
      exact ⟨hread, Or.inl hmoved⟩
    · next f s₂ hone => exact Or.inl ⟨_, s₁, h, hleft, run_of_error hone⟩

/-- **All forms are read in turn**, until only blanks are left. -/
theorem ends_all_in_turn (s : Reader) :
    Ends all s
      (fun forms s' => ∃ s₁, ReadsInTurn s forms s₁ ∧ s₁.cursor.onlyBlanksLeft = true ∧
        s'.cursor = s₁.cursor)
      (BreaksOff s) := by
  rw [all, ends_bind]
  refine (Ends.gather (round_in_turn s) _ s .nil).imp (fun forms s₁ h => ?_) fun f s₁ h => h
  refine (ends_link forms s₁).imp (fun items s' h' => ?_) fun f s' h' => Or.inr h'.1
  obtain ⟨rfl, hcursor, -⟩ := h'
  exact ⟨s₁, h.1, h.2, hcursor⟩

/-- What was read as all forms of a source lays it out. -/
theorem laysOutAll_of_all (h : (s.run all).result = .ok forms) :
    LaysOutAll s.cursor.rest forms := by
  obtain ⟨bytes, hrest, hbytes⟩ := ((reads_all s).of_result_ok h).layout
  obtain ⟨s₁, -, hblank, hcursor⟩ := (ends_all_in_turn s).of_result_ok h
  rw [← hcursor] at hblank
  have hblanks : allBlank (s.run all).reader.cursor.rest := List.all_eq_true.mp hblank
  rw [← List.append_nil (s.run all).reader.cursor.rest] at hbytes
  have hall := hbytes.append (.nil hblanks)
  rw [List.append_nil] at hall
  rw [hrest]
  exact hall

end Reader

end FormReader
