import FormReader.Proofs.Simulation

/-!
# What is laid out is read

What is read was laid out (`FormReader.Reader.reads_one`, `FormReader.Reader.reads_all`), and
where memory is not limited the converse holds too. It is told here of a reader in any state,
which may have read a lot before: if a form comes next it is read, unless it is deeper than
allowed (`FormReader.Reader.ends_one_of_laidOut`), and if nothing but forms is left all of them
are read, unless one of them is (`FormReader.Reader.ends_all_of_laysOutAll`). How many there
are, and how many were read before, is of no account. A form that is all there is left is read
as a whole (`FormReader.Reader.ends_whole_of_laysOut`).

One form is what the machine reads, and all forms follow by an invariant of the repetition:
those that were gathered and those that lie ahead are the forms of the source.
-/

namespace FormReader

namespace Reader

variable {s : Reader}

/-! ### One form -/

/-- **One form that is laid out** is read, up to its last byte, if it is not too deep. -/
theorem ends_one_of_laidOut {blanks text behind : List Byte} {form : Form}
    (hs : s.arena.Unlimited) (hrest : s.cursor.rest = blanks ++ (text ++ behind))
    (hblanks : allBlank blanks) (htext : LaidOut text form behind) :
    Ends one s
      (fun t s' => form.depth ≤ s.config.maxDepth ∧ t = form ∧ s'.cursor.rest = behind)
      (fun f _ => s.config.maxDepth < form.depth ∧
        f = .tooDeep s.config.maxDepth s.config.maxDepth) := by
  have hstart : (s.forward []).rest = blanks ++ (text ++ behind) := hrest
  have htextAhead := Forward.rest_advance_of_append hstart
  have hbehind := Forward.rest_advance_of_append htextAhead
  have hrun := simulates_one hs
  rw [← Forward.run_advance_of_allBlank hblanks hstart] at hrun
  rcases Nat.lt_or_ge s.config.maxDepth form.depth with hdeep | hfits
  · -- the machine ends inside the form
    obtain ⟨m, hm⟩ := Forward.run_laidOut_tooDeep (s := (s.forward []).advance blanks.length)
      htext htextAhead (Nat.zero_le _) (Nat.lt_of_lt_of_le hdeep (Nat.le_add_left _ _))
    rw [hm] at hrun
    refine hrun.imp (fun t s' h => ?_) fun f s' h => ?_
    · cases h
    · rcases h with ⟨-, -, m', hm'⟩ | ⟨hf, -⟩
      · cases hm'
      · exact ⟨hdeep, hf⟩
  · have hroom : ((s.forward []).advance blanks.length).frames.length + form.depth ≤
        s.config.maxDepth := by
      rw [Forward.frames_advance, forward, List.length_nil, Nat.zero_add]
      exact hfits
    rw [Forward.run_laidOut htext htextAhead hroom, Forward.complete_of_nil rfl,
      Forward.outcome_ends] at hrun
    refine hrun.imp (fun t s' h => ?_) fun f s' h => ?_
    · obtain ⟨⟨⟩, hm⟩ := Prod.mk.inj h
      refine ⟨hfits, rfl, ?_⟩
      rw [hm] at hbehind
      exact hbehind
    · rcases h with ⟨-, -, m', hm'⟩ | ⟨-, inner, hm'⟩
      · cases hm'
      · cases hm'

/-- **A form and nothing else** is read as a whole, if it is not too deep. -/
theorem ends_whole_of_laysOut {form : Form} (hs : s.arena.Unlimited)
    (h : LaysOut s.cursor.rest form) :
    Ends whole s (fun t _ => form.depth ≤ s.config.maxDepth ∧ t = form)
      (fun f _ => s.config.maxDepth < form.depth ∧
        f = .tooDeep s.config.maxDepth s.config.maxDepth) := by
  obtain ⟨blanks, text, behind, hblanks, hblank, hrest, htext⟩ := exists_of_laysOut h
  rw [whole, ends_bind]
  refine (ends_one_of_laidOut hs hrest hblanks htext).imp (fun t s' h' => ?_) fun f s' h' => h'
  obtain ⟨hfits, rfl, hbehind⟩ := h'
  have hleft : s'.cursor.onlyBlanksLeft = true := List.all_eq_true.mpr (hbehind ▸ hblank)
  rw [ends_bind, finish, ends_bind, ends_get, hleft]
  exact ⟨hfits, rfl⟩

/-! ### All forms -/

/-- Where a form comes next there are not only blanks. -/
theorem onlyBlanksLeft_of_laidOut {c : Cursor} {blanks text behind after : List Byte} {form : Form}
    (hrest : c.rest = blanks ++ (text ++ behind)) (htext : LaidOut text form after) :
    c.onlyBlanksLeft = false := by
  obtain ⟨b, bytes, rfl, hb⟩ := htext.exists_cons
  have hmem : b ∈ c.rest := by
    rw [hrest]
    exact List.mem_append_right _ List.mem_cons_self
  refine Bool.eq_false_iff.mpr fun hblank => ?_
  rw [List.all_eq_true.mp hblank b hmem] at hb
  cases hb

/-- **Having come as far** as some forms gathered from a source, none of them too deep, where
the other forms of the source lie ahead. -/
structure HasGathered (limit : Nat) (items : List Form) (forms : Scratch Form) (s : Reader) :
    Prop where
  allows : s.Allows limit
  ahead : ∃ others, items = forms.items.toList ++ others ∧ LaysOutAll s.cursor.rest others
  depth_le : Form.depthOfItems forms.items.toList ≤ limit

/-- The next form of the source is gathered, if it is not too deep. -/
theorem HasGathered.snoc {limit : Nat} {items others : List Form} {item : Form}
    {forms : Scratch Form} {s s' : Reader} (h : HasGathered limit items forms s)
    (allocator : Allocator)
    (hitems : items = forms.items.toList ++ item :: others) (hfits : item.depth ≤ limit)
    (hs' : s'.Allows limit) (hothers : LaysOutAll s'.cursor.rest others) :
    HasGathered limit items (forms.pushed allocator item) s' := by
  have hpushed := Scratch.toList_pushed forms allocator item
  refine ⟨hs', ⟨others, ?_, hothers⟩, ?_⟩
  · rw [hitems, hpushed, List.append_assoc]
    rfl
  · rw [hpushed, Form.depthOfItems_append_le_iff]
    refine ⟨h.depth_le, Form.depthOfItems_le_iff.mpr fun t ht => ?_⟩
    rw [List.mem_singleton.mp ht]
    exact hfits

/-- Gathering one more form: it is the next one of the source. -/
theorem round_oneMore (limit : Nat) (items : List Form) :
    Round oneMore push (HasGathered limit items)
      (fun forms s => Form.depthOfItems items ≤ limit ∧ forms.items.toList = items ∧
        s.Allows limit)
      (fun f _ => limit < Form.depthOfItems items ∧ f = .tooDeep limit limit) := by
  intro forms s h
  obtain ⟨others, hitems, hothers⟩ := h.ahead
  obtain ⟨hunlimited, rfl⟩ := h.allows
  rw [oneMore, ends_bind, ends_get]
  generalize hbytes : s.cursor.rest = bytes at hothers
  cases hothers with
  | nil hblank =>
    have hleft : s.cursor.onlyBlanksLeft = true := List.all_eq_true.mpr (hbytes ▸ hblank)
    rw [List.append_nil] at hitems
    rw [hleft, hitems]
    exact ⟨h.depth_le, rfl, h.allows⟩
  | @cons blanks text rest item others _ hblanks htext hrest =>
    rw [List.append_assoc] at hbytes
    rw [List.append_nil] at htext
    rw [onlyBlanksLeft_of_laidOut hbytes htext]
    have hone := (ends_one_of_laidOut hunlimited hbytes hblanks htext).and
      ((reads_one s).and (steady_one s))
    refine ends_bind.mpr (hone.imp (fun t s₁ h₁ => ?_) fun f s₁ h₁ => ?_)
    · obtain ⟨⟨hfits, rfl, hahead⟩, hread, hfollows⟩ := h₁
      refine (ends_push forms t s₁).imp (fun forms' s₂ h₂ => ?_) fun f s₂ h₂ => ?_
      · obtain ⟨rfl, hcursor, hfollows'⟩ := h₂
        have hothers : LaysOutAll s₂.cursor.rest others := by
          rw [hcursor, hahead]
          exact hrest
        refine ⟨h.snoc _ hitems hfits ((hfollows.trans hfollows').allows h.allows) hothers, ?_⟩
        rw [hcursor]
        exact Or.inl hread.left_lt
      · exact absurd (hfollows.unlimited hunlimited) h₂.2.1
    · -- the form is among those of the source
      obtain ⟨⟨hdeep, rfl⟩, -⟩ := h₁
      refine ⟨Nat.lt_of_not_le fun hle => ?_, rfl⟩
      rw [hitems, Form.depthOfItems_le_iff] at hle
      have hfits := hle item (List.mem_append_right _ List.mem_cons_self)
      exact absurd hfits (Nat.not_le.mpr hdeep)

/-- **All forms of a source** are read if none of them is too deep. -/
theorem ends_all_of_laysOutAll {items : List Form} (hs : s.arena.Unlimited)
    (h : LaysOutAll s.cursor.rest items) :
    Ends all s (fun forms _ => Form.depthOfItems items ≤ s.config.maxDepth ∧ forms = items)
      (fun f _ => s.config.maxDepth < Form.depthOfItems items ∧
        f = .tooDeep s.config.maxDepth s.config.maxDepth) := by
  have hstart : HasGathered s.config.maxDepth items { width := Scratch.formWidth } s :=
    ⟨⟨hs, rfl⟩, ⟨items, rfl, h⟩, Nat.zero_le _⟩
  rw [all, ends_bind]
  refine (Ends.gather (round_oneMore _ items) _ s hstart).imp (fun forms s' hforms => ?_)
    fun f s' hf => hf
  obtain ⟨hfits, rfl, hallows⟩ := hforms
  refine (ends_link forms s').imp (fun items' s'' h => ⟨hfits, h.1⟩) fun f s'' h => ?_
  exact absurd hallows.unlimited h.2.1

/-! ### Results -/

section Results

theorem result_whole_of_laysOut {form : Form} (hs : s.arena.Unlimited)
    (h : LaysOut s.cursor.rest form) :
    (s.run whole).result =
      if form.depth ≤ s.config.maxDepth then .ok form
      else .error (.tooDeep s.config.maxDepth s.config.maxDepth) :=
  (ends_whole_of_laysOut hs h).result_eq_ite

theorem result_one_of_reads {limit : Nat} {s₁ s₂ : Reader} {form : Form} (hs : s.arena.Unlimited)
    (h : Reads limit s₁ form s₂) (hcursor : s.cursor = s₁.cursor) :
    (s.run one).result =
      if form.depth ≤ s.config.maxDepth then .ok form
      else .error (.tooDeep s.config.maxDepth s.config.maxDepth) := by
  obtain ⟨blanks, text, hblanks, hrest, htext⟩ := h.layout
  rw [← hcursor, List.append_assoc] at hrest
  exact ((ends_one_of_laidOut hs hrest hblanks htext).imp (fun _ _ h => ⟨h.1, h.2.1⟩)
    fun _ _ h => h).result_eq_ite

theorem result_all_of_laysOutAll {items : List Form} (hs : s.arena.Unlimited)
    (h : LaysOutAll s.cursor.rest items) :
    (s.run all).result =
      if Form.depthOfItems items ≤ s.config.maxDepth then .ok items
      else .error (.tooDeep s.config.maxDepth s.config.maxDepth) :=
  (ends_all_of_laysOutAll hs h).result_eq_ite

end Results

end Reader

end FormReader
