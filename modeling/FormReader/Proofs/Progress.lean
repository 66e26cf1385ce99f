import FormReader.Proofs.Actions
import FormReader.Proofs.Iteration
import FormReader.Proofs.Tallies
import FormReader.Rounds

/-!
# Progress

Many steps succeed without moving the cursor: a token may be empty, blanks may be none, and the end
of a source is found where it is. A form is never read in this way. It takes a byte for each atom
in it and two for each list, so a reader that has read one is further on
(`FormReader.Reader.strict_progress`).

All that is said about loops follows from this. The three of them go on while there are forms, and
their own conditions do not speak of progress. Where every item moves the cursor, a repetition that
never looks at the cursor is over after no more rounds than there are bytes, and it comes to what
`FormReader.Reader.gather` comes to (`FormReader.Reader.rounds_gather`); so it makes no
difference that the latter looks. An iteration hands out no more forms than there are bytes for the
same reason.
-/

namespace FormReader

namespace Reader

variable {α β : Type} {s s' : Reader}

/-! ### Taking bytes -/

/-- **Taking bytes**: one reader came out of another and has passed so many bytes at least, all of
them from the source. -/
structure Takes (n : Nat) (s s' : Reader) : Prop where
  pos : s.pos + n ≤ s'.pos
  left : s'.cursor.left + n ≤ s.cursor.left

/-- Going on never makes more bytes lie ahead. -/
theorem Onward.left_le (h : Onward s s') : s'.cursor.left ≤ s.cursor.left := by
  have hpos := h.pos
  rw [Reader.pos, Reader.pos] at hpos
  rw [Cursor.left, Cursor.left, h.source]
  exact Nat.sub_le_sub_left hpos _

/-- Bytes that do not lie ahead any more have been passed. -/
theorem Onward.takes {n : Nat} (h : Onward s s') (hleft : s'.cursor.left + n ≤ s.cursor.left) :
    Takes n s s' := by
  refine ⟨?_, hleft⟩
  have hpos := h.pos
  have hrange := h.inRange
  rw [Cursor.left, Cursor.left] at hleft
  rw [h.source] at hleft hrange
  rw [Reader.pos, Reader.pos] at hpos hrange ⊢
  omega

/-- **Reading a form** takes the bytes of its extent. -/
theorem Reads.takes {limit : Nat} {form : Form} (h : Reads limit s form s') (hs : Onward s s') :
    Takes form.extent s s' := by
  refine hs.takes ?_
  have hform := h.tally_le (fun _ => Nat.le_refl 1) (Nat.le_refl (2 * 1))
  rw [Nat.one_mul, Nat.one_mul, Nat.add_comm] at hform
  rw [Form.extent_eq_tally]
  exact hform

/-- **Reading items** takes the bytes of all of them together. -/
theorem ReadsItems.takes {limit : Nat} {forms : List Form} (h : ReadsItems limit s forms s')
    (hs : Onward s s') : Takes (forms.map Form.extent).sum s s' := by
  refine hs.takes ?_
  have hforms := h.tally_le (fun _ => Nat.le_refl 1) (Nat.le_refl (2 * 1))
  rw [Nat.one_mul, Nat.one_mul, Nat.add_comm, Form.tallyOfItems_eq_sum] at hforms
  rw [funext Form.extent_eq_tally]
  exact hforms

/-! ### Repetitions -/

section Repetition

variable {next : ReadM (Option β)} {keep : α → β → ReadM α}

variable (hfound : ∀ {s s' : Reader} {item : β}, s.run next = ⟨.ok (some item), s'⟩ →
    s'.cursor.left < s.cursor.left)
  (hkept : ∀ {acc acc' : α} {item : β} {s s' : Reader}, s.run (keep acc item) = ⟨.ok acc', s'⟩ →
    s'.cursor.left ≤ s.cursor.left)

include hfound hkept

/-- **Where every item moves the cursor** a repetition is over after no more rounds than there are
bytes, whether it looks at the cursor or not. -/
theorem rounds_gather (acc : α) (s : Reader) :
    ∃ n ≤ s.cursor.left, Rounds next keep acc s n (s.run (gather next keep acc)) := by
  induction hn : s.cursor.left using Nat.strongRecOn generalizing acc s with
  | ind n ih =>
    subst hn
    rw [run_gather, run_gatherOne]
    rcases hnext : s.run next with ⟨f | (_ | item), s₁⟩
    · exact ⟨0, Nat.zero_le _, .notFound hnext⟩
    · exact ⟨0, Nat.zero_le _, .done hnext⟩
    · have hlt := hfound hnext
      dsimp only
      rcases hkeep : s₁.run (keep acc item) with ⟨f | acc', s₂⟩
      · exact ⟨1, Nat.lt_of_le_of_lt (Nat.zero_le _) hlt, .notKept hnext hkeep⟩
      · have hmoved := Nat.lt_of_le_of_lt (hkept hkeep) hlt
        obtain ⟨n, hn, hrounds⟩ := ih _ hmoved acc' s₂ rfl
        simp only [hmoved, and_self, ↓reduceIte]
        exact ⟨n + 1, Nat.lt_of_le_of_lt hn hmoved, .again hnext hkeep hrounds⟩

end Repetition

/-- Gathering forms that were read ends by itself. -/
theorem rounds_gather_push (limit : Reader → Nat) {next : ReadM (Option Form)}
    (hnext : ∀ s : Reader, Ends next s
      (fun form? s' => ∀ form, form? = some form → Reads (limit s) s form s') fun _ _ => True)
    (forms : Scratch Form) (s : Reader) :
    ∃ n ≤ s.cursor.left, Rounds next push forms s n (s.run (gather next push forms)) := by
  refine rounds_gather (fun hfound => ?_) (fun hkept => ?_) forms s
  · exact ((hnext _).of_run_ok hfound _ rfl).left_lt
  · exact ((steady_push _ _).follows_of_run hkept).toOnward.left_le

/-! ### Iteration -/

/-- **An iteration** hands out no more forms than there are bytes. -/
theorem HandsOut.countP_isOk_le {results : List (Except Failure Form)}
    (h : HandsOut s results s') : results.countP isOk ≤ s.cursor.left := by
  induction h with
  | @item s s₁ s' result rest hnext _ ih =>
    rcases result with f | form
    · have hleft := (keeps_next s).left_le
      rw [hnext] at hleft
      rw [List.countP_cons_of_neg (by simp [isOk])]
      exact Nat.le_trans ih hleft
    · rw [List.countP_cons_of_pos rfl]
      exact Nat.lt_of_le_of_lt ih (reads_next hnext).1.left_lt
  | _ => exact Nat.zero_le _

/-! ### Progress -/

/-- **Progress is strict.** Whatever the reader, its arena and the room for lists are, a form that
is read – inside of a list, by itself or in an iteration – takes at least a byte for each atom and
two for each list in it, and so one byte in any case; and all forms that are read at once take as
many as they do together. Therefore the loop that gathers the items of a list and the loop that
gathers all forms end by themselves, without ever looking at the cursor, after they have found no
more items than there are bytes; and an iteration, which also ends, hands out no more forms. -/
theorem strict_progress (s : Reader) :
    (∀ form : Form, 0 < form.extent) ∧
    (∀ (room : Nat) (form : Form) (s' : Reader),
      s.run (Reader.form room) = ⟨.ok form, s'⟩ → Takes form.extent s s') ∧
    (∀ (form : Form) (s' : Reader), s.run one = ⟨.ok form, s'⟩ → Takes form.extent s s') ∧
    (∀ (form : Form) (s' : Reader), s.next = (some (.ok form), s') → Takes form.extent s s') ∧
    (∀ (forms : List Form) (s' : Reader), s.run all = ⟨.ok forms, s'⟩ →
      Takes (forms.map Form.extent).sum s s') ∧
    (∀ (room : Nat) (forms : Scratch Form), ∃ n ≤ s.cursor.left,
      Rounds (attempt (form room)) push forms s n
        (s.run (gather (attempt (form room)) push forms))) ∧
    (∀ forms : Scratch Form, ∃ n ≤ s.cursor.left,
      Rounds oneMore push forms s n (s.run (gather oneMore push forms))) ∧
    HandsOut s s.collect.1 s.collect.2 ∧ s.collect.1.countP isOk ≤ s.cursor.left := by
  refine ⟨Form.extent_pos, fun room form s' h => ?_, fun form s' h => ?_, fun form s' h => ?_,
    fun forms s' h => ?_, fun room forms => ?_, fun forms => ?_, handsOut_collect s,
    (handsOut_collect s).countP_isOk_le⟩
  · exact ((reads_form room s).of_run_ok h).takes ((steady_form room).follows_of_run h).toOnward
  · exact ((reads_one s).of_run_ok h).takes (steady_one.follows_of_run h).toOnward
  · have honward := (keeps_next s).toOnward
    rw [h] at honward
    exact (reads_next h).1.takes honward
  · exact ((reads_all s).of_run_ok h).takes (steady_all.follows_of_run h).toOnward
  · refine rounds_gather_push (fun _ => room) (fun s => ?_) forms s
    refine (reads_attempt (reads_form room) s).imp (fun form? s' h form hform => ?_)
      fun _ _ _ => trivial
    rw [hform] at h
    exact h
  · exact rounds_gather_push _ reads_oneMore forms s

/-- A layout without a byte to spare: the list takes two bytes for itself and for each of the two
lists in it, and one for each of its two atoms. -/
theorem strict_progress_tight :
    let s := ofBytes (Text.bytes "(f()[1])")
    let form := Form.list [.atom (.symbol "f"), .list [], .list [.atom (.number 1)]]
    s.run one = ⟨.ok form, (s.run one).reader⟩ ∧ form.extent = 8 ∧ (s.run one).reader.pos = 8 ∧
      Takes 8 s (s.run one).reader := by
  intro s form
  have hone : s.run one = ⟨.ok form, (s.run one).reader⟩ :=
    run_of_result (by decide +kernel)
  exact ⟨hone, rfl, by decide +kernel, (strict_progress s).2.2.1 form _ hone⟩

end Reader

end FormReader
