import FormReader.Proofs.Parsing

/-!
# Writing and reading back

A form is read back from its source text exactly when it is representable and not too deep.
That nothing else is read back needs no case analysis of how a form can fail to be
representable: whatever is read has a layout, and what has a layout is representable.

The same remark describes what a reader can hand out at all. By whichever way a form is
obtained, and whatever the arena refused in between, it is representable and within the limit
(`FormReader.Form.Readable`), and is read back from its source text.
-/

namespace FormReader

/-! ### Reading back -/

/-- **Writing and reading are inverse** exactly on the representable forms within the limit.
A representable form beyond the limit is refused for its depth. -/
theorem parse_text_eq_ok_iff (form : Form) (config : Config) (arena : Arena)
    (harena : arena.Unlimited) :
    ((parse form.text config arena).result = .ok form ↔
      form.depth ≤ config.maxDepth ∧ form.isRepresentable = true) ∧
    (form.isRepresentable = true → config.maxDepth < form.depth →
      (parse form.text config arena).result =
        .error (.tooDeep config.maxDepth config.maxDepth)) := by
  have hiff : (parse form.text config arena).result = .ok form ↔
      LaysOut (Text.bytes form.text) form ∧ form.depth ≤ config.maxDepth :=
    result_parseBytes_eq_ok_iff harena
  refine ⟨⟨fun h => ?_, fun h => ?_⟩, fun hform hdeep => ?_⟩
  · obtain ⟨hlaysOut, hdepth⟩ := hiff.mp h
    exact ⟨hdepth, isRepresentable_of_laysOut hlaysOut⟩
  · exact hiff.mpr ⟨laysOut_text h.2, h.1⟩
  · exact result_parseBytes_eq_tooDeep harena (laysOut_text hform) hdeep

/-- The empty list is read back where one list may be open, and refused where none may. A
symbol that looks like a number is not read back. -/
theorem parse_text_empty_list :
    ({} : Arena).Unlimited ∧
    (parse "()" { maxDepth := 1 }).result = .ok (.list []) ∧
    (parse "()" { maxDepth := 0 }).result = .error (.tooDeep 0 0) ∧
    (parse "1").result ≠ .ok (.atom (.symbol "1")) := by
  have hempty (config : Config) :=
    parse_text_eq_ok_iff (.list []) config {} Arena.unlimited_default
  have hnumber := parse_text_eq_ok_iff (.atom (.symbol "1")) {} {} Arena.unlimited_default
  refine ⟨Arena.unlimited_default, (hempty _).1.mpr ⟨by decide, rfl⟩,
    (hempty _).2 rfl (by decide), fun h => ?_⟩
  exact absurd (hnumber.1.mp h).2 (by decide)

/-! ### What is handed out -/

/-- **Being readable** within a limit: representable, and no deeper than the limit. -/
structure Form.Readable (limit : Nat) (form : Form) : Prop where
  isRepresentable : form.isRepresentable = true
  depth_le : form.depth ≤ limit

/-- What is readable is read back. -/
theorem Form.Readable.parse_text {limit : Nat} {form : Form} (h : form.Readable limit)
    {arena : Arena} (harena : arena.Unlimited) :
    (parse form.text { maxDepth := limit } arena).result = .ok form :=
  (result_parseBytes_eq_ok_iff harena).mpr ⟨laysOut_text h.isRepresentable, h.depth_le⟩

/-- The items of a readable list are readable with room for one list less. -/
theorem Form.Readable.of_mem {limit : Nat} {items : List Form}
    (h : (Form.list items).Readable (limit + 1)) {item : Form} (hitem : item ∈ items) :
    item.Readable limit := by
  have hitems := h.isRepresentable
  rw [Form.isRepresentable_list, Form.areRepresentable_iff] at hitems
  exact ⟨hitems item hitem, (Form.depth_list_le_iff.mp h.depth_le).2 item hitem⟩

namespace Reader

section Handed

variable {limit : Nat} {s s' : Reader} {form : Form} {items : List Form}

theorem Reads.readable (h : Reads limit s form s') : form.Readable limit :=
  ⟨h.isRepresentable, h.depth_le⟩

/-- Items that were read make a list that is readable. -/
theorem ReadsItems.readable (h : ReadsItems limit s items s') :
    (Form.list items).Readable limit := by
  refine ⟨?_, h.depth_le⟩
  rw [Form.isRepresentable_list]
  exact h.areRepresentable

/-- **Iteration** hands out nothing but readable forms. -/
theorem readable_of_mem_collect (h : .ok form ∈ s.collect.1) :
    form.Readable s.config.maxDepth := by
  induction s using collect.induct with
  | case1 s s' hnext =>
    rw [collect, hnext] at h
    cases h
  | case2 s f s' hnext =>
    rw [collect, hnext] at h
    simp at h
  | case3 s t s' hnext hlt results s'' hresults ih =>
    obtain ⟨hread, hconfig⟩ := reads_next hnext
    rw [collect, hnext] at h
    simp only [hlt, ↓reduceIte] at h
    -- the settings stay, so the limit is the same for the rest
    rcases List.mem_cons.mp h with hfirst | hrest
    · cases hfirst
      exact hread.readable
    · rw [← hconfig]
      exact ih hrest
  | case4 s t s' hnext hlt =>
    rw [collect, hnext] at h
    simp only [hlt, ↓reduceIte] at h
    cases List.mem_singleton.mp h
    exact (reads_next hnext).1.readable

end Handed

end Reader

/-- **What a reader hands out is readable.** In whichever way a form is obtained – one form or
a whole source, all forms or one after another, from a reader in any state or by parsing – and
whatever the arena refuses, it is representable and within the limit on nesting. So it is read
back from its source text where memory is not limited; and all forms of a source, written as a
list, are read back with room for one list more. -/
theorem readable_of_read :
    (∀ (s : Reader) (t : Form),
      (s.run Reader.one).result = .ok t → t.Readable s.config.maxDepth) ∧
    (∀ (s : Reader) (t : Form),
      (s.run Reader.whole).result = .ok t → t.Readable s.config.maxDepth) ∧
    (∀ (s : Reader) (items : List Form),
      (s.run Reader.all).result = .ok items → ∀ t ∈ items, t.Readable s.config.maxDepth) ∧
    (∀ (s : Reader) (t : Form),
      s.next.1 = some (.ok t) → t.Readable s.config.maxDepth) ∧
    (∀ (s : Reader) (t : Form), .ok t ∈ s.collect.1 → t.Readable s.config.maxDepth) ∧
    (∀ (source : List Byte) (config : Config) (arena : Arena) (t : Form),
      (parseBytes source config arena).result = .ok t → t.Readable config.maxDepth) ∧
    (∀ (source : String) (config : Config) (arena : Arena) (t : Form),
      (parse source config arena).result = .ok t → t.Readable config.maxDepth) ∧
    (∀ (source : String) (arena : Arena) (items : List Form),
      (parseAll source arena).result = .ok items →
        ∀ t ∈ items, t.Readable ({} : Config).maxDepth) ∧
    (∀ (source : String) (config : Config) (arena : Arena) (t : Form), arena.Unlimited →
      (parse source config arena).result = .ok t →
        (parse t.text config arena).result = .ok t ∧
        (parse t.text config arena).result.map Form.text = .ok t.text) ∧
    (∀ (s : Reader) (arena : Arena) (items : List Form), arena.Unlimited →
      (s.run Reader.all).result = .ok items →
        (parse (Form.list items).text { maxDepth := s.config.maxDepth + 1 } arena).result =
          .ok (.list items)) := by
  have hwhole (s : Reader) (t : Form) (h : (s.run Reader.whole).result = .ok t) :
      t.Readable s.config.maxDepth := ((Reader.reads_whole s).of_result_ok h).1.readable
  have hall (s : Reader) (items : List Form) (h : (s.run Reader.all).result = .ok items) :
      (Form.list items).Readable (s.config.maxDepth + 1) :=
    ((Reader.reads_all s).of_result_ok h).readable
  have hparse (source : List Byte) (config : Config) (arena : Arena) (t : Form)
      (h : (parseBytes source config arena).result = .ok t) : t.Readable config.maxDepth :=
    hwhole (parsing source config arena) t h
  refine ⟨fun s t h => ((Reader.reads_one s).of_result_ok h).readable, hwhole,
    fun s items h t ht => (hall s items h).of_mem ht, fun s t h => ?_,
    fun s t h => Reader.readable_of_mem_collect h, hparse,
    fun source config arena t h => hparse _ config arena t h,
    fun source arena items h t ht => (hall _ items h).of_mem ht,
    fun source config arena t harena h => ?_,
    fun s arena items harena h => (hall s items h).parse_text harena⟩
  · exact (Reader.reads_next (Prod.ext h rfl)).1.readable
  · have hback := (hparse _ config arena t h).parse_text harena
    refine ⟨hback, ?_⟩
    rw [hback]
    rfl

/-- A list of one symbol is handed out, and everything said of what is handed out holds of
it. -/
theorem readable_list_of_symbol :
    ({} : Arena).Unlimited ∧
    (parse "(a)").result = .ok (.list [.atom (.symbol "a")]) ∧
    (Form.list [.atom (.symbol "a")]).Readable 256 ∧
    (parse (Form.list [.atom (.symbol "a")]).text).result = .ok (.list [.atom (.symbol "a")]) := by
  have hreadable : (Form.list [.atom (.symbol "a")]).Readable 256 := ⟨by decide, by decide⟩
  have hparse : (parse "(a)").result = .ok (.list [.atom (.symbol "a")]) :=
    hreadable.parse_text Arena.unlimited_default
  obtain ⟨-, -, -, -, -, -, hdepth, -, hback, -⟩ := readable_of_read
  exact ⟨Arena.unlimited_default, hparse, hdepth _ _ _ _ hparse,
    (hback _ _ _ _ Arena.unlimited_default hparse).1⟩

end FormReader
