import FormReader.Gathering
import FormReader.Proofs.Steadiness

/-!
# Gathered items are linked unchanged

Heads of a list go a long way before the list is read: they are pushed onto a scratch buffer until
there are no more, and then tied together by cells, the last one first. The arena may refuse at any
push and at any cell. Nothing is lost, doubled or exchanged on this way
(`FormReader.gathered_and_linked`).

A push that fails leaves no trace, so a buffer holds what has been pushed onto it and nothing
else, however far that got. For the cells there is nothing to be compared with but the arena: it
grants one cell for each item if the linking succeeds, and fewer if it does not
(`FormReader.Arena.sizes_link`).
-/

namespace FormReader

/-! ### Pushing -/

theorem Arena.eq_of_request_error {size reported : Nat} {a a' : Arena} {e : Exhausted}
    (h : request size reported a = .error e a') : a' = a := by
  unfold request at h
  split at h
  · cases h
  · split at h
    · cases h
    · cases h
      rfl

namespace Scratch

variable {α : Type} {b b' : Scratch α} {a a' : Arena} {item : α} {items : List α}

/-- **A good push** puts the item behind the others. -/
theorem eq_pushed_of_push (h : b.push item a = .ok b' a') :
    b' = b.pushed a.allocator item ∧ a.Grown a' := by
  have hgives := gives_push b item a
  rw [h] at hgives
  exact hgives

/-- **A push that fails** changes nothing, and it takes an arena with a limit. -/
theorem eq_of_push_error {e : Exhausted} (h : b.push item a = .error e a') :
    a' = a ∧ ¬a.Unlimited := by
  have hgives := gives_push b item a
  rw [h] at hgives
  refine ⟨?_, hgives.2⟩
  by_cases hfull : b.isFull = true
  · rw [push_of_isFull hfull] at h
    simp only [bind, EStateM.bind] at h
    split at h
    · cases h
    · next hrequest =>
      cases h
      exact Arena.eq_of_request_error hrequest
  · unfold push at h
    rw [if_neg hfull] at h
    cases h

/-- A push makes room for the item if there is none. -/
theorem HasRoom.pushed (h : b.HasRoom) (allocator : Allocator) (item : α) :
    (b.pushed allocator item).HasRoom := by
  rw [HasRoom] at h ⊢
  rw [items_pushed, Array.size_push, Scratch.pushed]
  dsimp only
  split
  · have hgrows := allocator.lt_grows b.capacity
    omega
  · next hfull =>
    rw [isFull, decide_eq_true_eq] at hfull
    omega

/-- **A filled buffer** holds what it held before and what was pushed, in order. -/
theorem Filled.items_eq (h : Filled b a items b' a') :
    b'.items.toList = b.items.toList ++ items := by
  induction h with
  | nil => exact (List.append_nil _).symm
  | cons hpush _ ih =>
    rw [ih, (eq_pushed_of_push hpush).1, toList_pushed, List.append_assoc, List.singleton_append]

theorem Filled.hasRoom (h : Filled b a items b' a') (hb : b.HasRoom) : b'.HasRoom := by
  induction h with
  | nil => exact hb
  | cons hpush _ ih => exact ih ((eq_pushed_of_push hpush).1 ▸ hb.pushed _ _)

theorem Filled.grown (h : Filled b a items b' a') : a.Grown a' := by
  induction h with
  | nil => exact .refl _
  | cons hpush _ ih => exact (eq_pushed_of_push hpush).2.trans ih

/-- Where there is no limit, nothing is left. -/
theorem Stops.eq_nil_of_unlimited {left : List α} {failure : Option Exhausted}
    (h : b.Stops a left failure) (ha : a.Unlimited) : left = [] := by
  cases h with
  | done => rfl
  | refused hpush => exact absurd ha (eq_of_push_error hpush).2

/-- **Pushing all items** fills the buffer with the first of them, counting up, and stops in front
of the rest. -/
theorem pushAll_eq (b : Scratch α) (items : List α) (a : Arena) :
    ∃ pushed left last failure a', items = pushed ++ left ∧
      b.pushAll items a =
        ((List.range' (b.items.size + 1) pushed.length, last, failure), a') ∧
      b.Filled a pushed last a' ∧ last.Stops a' left failure := by
  induction items generalizing b a with
  | nil => exact ⟨[], [], b, none, a, rfl, rfl, .nil, .done⟩
  | cons item items ih =>
    rcases hpush : b.push item a with ⟨b₁, a₁⟩ | ⟨e, a₁⟩
    · obtain ⟨pushed, left, last, failure, a', hitems, hall, hfilled, hstops⟩ := ih b₁ a₁
      have hsize : b₁.items.size = b.items.size + 1 := by
        rw [(eq_pushed_of_push hpush).1, items_pushed, Array.size_push]
      refine ⟨item :: pushed, left, last, failure, a', congrArg _ hitems, ?_,
        .cons hpush hfilled, hstops⟩
      rw [pushAll, hpush]
      dsimp only
      rw [hall, hsize]
      rfl
    · obtain ⟨rfl, -⟩ := eq_of_push_error hpush
      refine ⟨[], item :: items, b, some e, a₁, rfl, ?_, .nil, .refused hpush⟩
      rw [pushAll, hpush]
      rfl

end Scratch

/-! ### Linking -/

namespace Arena

/-- A cell is granted, or the arena stays as it is. -/
theorem sizes_cell (item : Form) (rest : List Form) (a : Arena) :
    match cell item rest a with
    | .ok _ a' => a'.granted.sizes = cellSize :: a.granted.sizes
    | .error _ a' => a' = a := by
  simp only [cell, reserve, bind, EStateM.bind]
  rcases hrequest : request cellSize cellSize a with ⟨_, a'⟩ | ⟨e, a'⟩
  · rw [request, if_neg (by decide)] at hrequest
    split at hrequest
    · cases hrequest
      rfl
    · cases hrequest
  · exact eq_of_request_error hrequest

/-- **The cells of a list**: one is granted for each item, or fewer and the linking fails. -/
theorem sizes_link (items : List Form) (a : Arena) :
    match link items a with
    | .ok _ a' => a'.granted.sizes = List.replicate items.length cellSize ++ a.granted.sizes
    | .error _ a' => ∃ n < items.length,
      a'.granted.sizes = List.replicate n cellSize ++ a.granted.sizes := by
  induction items with
  | nil => rfl
  | cons item items ih =>
    have hlink : link (item :: items) a = (link items >>= cell item) a := by
      rw [link, List.foldrM_cons]
      rfl
    rw [hlink]
    simp only [bind, EStateM.bind]
    rcases hrest : link items a with ⟨rest, a₁⟩ | ⟨e, a₁⟩
    · rw [hrest] at ih
      have hcell := sizes_cell item rest a₁
      dsimp only at ih ⊢
      rcases hlast : cell item rest a₁ with ⟨linked, a'⟩ | ⟨e, a'⟩
      · rw [hlast] at hcell
        dsimp only at hcell ⊢
        rw [hcell, ih, List.length_cons, List.replicate_succ, List.cons_append]
      · rw [hlast] at hcell
        dsimp only at hcell ⊢
        exact ⟨items.length, Nat.lt_succ_self _, hcell ▸ ih⟩
    · rw [hrest] at ih
      obtain ⟨n, hn, hsizes⟩ := ih
      exact ⟨n, Nat.lt_succ_of_lt hn, hsizes⟩

end Arena

/-! ### Reading back -/

namespace Walk

variable {w : Walk} {items visited : List Form}

/-- **A walk visits** the items that it has left, and these in no other way. -/
theorem visits_iff : w.Visits visited ↔ visited = w.left := by
  constructor
  · intro h
    induction h with
    | @done w w' hnext =>
      obtain ⟨_ | ⟨item, left⟩⟩ := w
      · rfl
      · cases hnext
    | @item w w' item items hnext _ ih =>
      obtain ⟨_ | ⟨item', left⟩⟩ := w
      · cases hnext
      · cases hnext
        rw [ih]
  · rintro rfl
    obtain ⟨left⟩ := w
    induction left with
    | nil => exact .done rfl
    | cons item left ih => exact .item rfl ih

/-- **A number of steps** along some items. -/
theorem take_along (items : List Form) (n : Nat) :
    (along items).take n = ((List.range n).map fun k => items[k]?, along (items.drop n)) := by
  induction n generalizing items with
  | zero => rfl
  | succ n ih =>
    rw [List.range_succ_eq_map, List.map_cons, List.map_map, take_succ]
    cases items with
    | nil =>
      rw [next_along_nil, ih, List.drop_nil, List.drop_nil]
      rfl
    | cons item items =>
      rw [next_along_cons, ih, List.drop_succ_cons]
      rfl

end Walk

namespace Form

/-- An item in front of others that follow it. -/
theorem text_append_followingText (item : Form) (items : List Form) :
    item.text ++ followingText items = " ".intercalate ((item :: items).map text) := by
  induction items generalizing item with
  | nil => rw [followingText, List.map_singleton, String.intercalate_singleton, String.append_empty]
  | cons next items ih =>
    rw [followingText, List.map_cons, List.map_cons, String.intercalate_cons_cons,
      ← List.map_cons, ← ih next]
    simp only [String.append_assoc]

/-- **The text of a list** is made of those of the items, with a space between each and the
next. -/
theorem text_list (items : List Form) :
    (list items).text = "(" ++ " ".intercalate (items.map text) ++ ")" := by
  cases items with
  | nil => rfl
  | cons item items => rw [text, spacedText, text_append_followingText]

end Form

/-- **What is read back** from a list are its own items. -/
theorem readsBack_self (items : List Form) : ReadsBack items items where
  eq_nil_iff := List.length_eq_zero_iff.symm
  countItems_eq := countItems_eq items
  visits_iff _ := Walk.visits_iff
  take_eq := Walk.take_along items
  length_left n := by
    rw [Walk.take_along, Walk.along, List.length_drop]
    omega
  text_eq := Form.text_list items

/-! ### Gathering and linking -/

/-- **Gathered items are linked unchanged**, in every arena. Pushing all items onto a buffer pushes
the first of them, all if the arena has no limit. The buffer holds these in order behind what it
held before, it counts them, it has room for them, and the push that fails has changed neither the
buffer nor the arena. What is linked reads back as the items that the buffer holds. There is a cell
for each of them, and only a refusal of the arena prevents it. -/
theorem gathered_and_linked :
    (∀ (b : Scratch Form) (heads : List Form) (a : Arena),
      ∃ pushed left last failure a', heads = pushed ++ left ∧
        b.pushAll heads a =
          ((List.range' (b.items.size + 1) pushed.length, last, failure), a') ∧
        b.Filled a pushed last a' ∧ last.Stops a' left failure ∧
        (a.Unlimited → left = []) ∧
        last.items.toList = b.items.toList ++ pushed ∧
        last.items.size = b.items.size + pushed.length ∧
        (last.items.isEmpty = true ↔ b.items.isEmpty = true ∧ pushed = []) ∧
        (b.HasRoom → last.HasRoom)) ∧
    ∀ (b : Scratch Form) (s : Reader),
      Reader.Ends (Reader.link b) s
        (fun linked s' => ReadsBack linked b.items.toList ∧
          s'.arena.granted.sizes =
            List.replicate b.items.size Arena.cellSize ++ s.arena.granted.sizes)
        fun f s' => (∃ e, f = .exhausted e) ∧ ¬s.arena.Unlimited ∧
          ∃ n < b.items.size, s'.arena.granted.sizes =
            List.replicate n Arena.cellSize ++ s.arena.granted.sizes := by
  constructor
  · intro b heads a
    obtain ⟨pushed, left, last, failure, a', hheads, hall, hfilled, hstops⟩ :=
      Scratch.pushAll_eq b heads a
    have hitems := hfilled.items_eq
    have hsize : last.items.size = b.items.size + pushed.length := by
      rw [← Array.length_toList, hitems, List.length_append, Array.length_toList]
    refine ⟨pushed, left, last, failure, a', hheads, hall, hfilled, hstops, fun ha => ?_, hitems,
      hsize, ?_, hfilled.hasRoom⟩
    · exact hstops.eq_nil_of_unlimited (hfilled.grown.unlimited ha)
    · rw [Array.isEmpty_iff_size_eq_zero, Array.isEmpty_iff_size_eq_zero, hsize,
        Nat.add_eq_zero_iff, List.length_eq_zero_iff]
  · intro b s
    have hgives := Arena.gives_link b.items.toList s.arena
    have hsizes := Arena.sizes_link b.items.toList s.arena
    rw [Array.length_toList] at hsizes
    rw [Reader.link, Reader.ends_ask]
    rcases hlink : Arena.link b.items.toList s.arena with ⟨linked, arena⟩ | ⟨e, arena⟩
    · rw [hlink] at hgives hsizes
      obtain ⟨rfl, -⟩ := hgives
      exact ⟨readsBack_self _, hsizes⟩
    · rw [hlink] at hgives hsizes
      exact ⟨⟨e, rfl⟩, hgives.2, hsizes⟩

/-- Two items in an arena without a limit. A third step of a walk along the list finds nothing. -/
theorem gathered_and_linked_two :
    let b : Scratch Form := { width := Scratch.formWidth }
    let heads : List Form := [.atom (.symbol "f"), .list []]
    ({} : Arena).Unlimited ∧ b.HasRoom ∧
      ∃ last a', b.pushAll heads {} = (([1, 2], last, none), a') ∧
        last.items.toList = heads ∧ last.HasRoom ∧
        Reader.Ends (Reader.link last) (Reader.ofBytes [])
          (fun linked _ => countItems linked = 2 ∧ (Form.list linked).text = "(f ())" ∧
            ((Walk.along linked).take 3).1 = [heads[0]?, heads[1]?, none])
          fun _ _ => False := by
  intro b heads
  have hroom : b.HasRoom := Nat.le_refl 0
  obtain ⟨hgather, hlink⟩ := gathered_and_linked
  obtain ⟨pushed, left, last, failure, a', hheads, hall, -, hstops, hleft, hitems, -, -, hlast⟩ :=
    hgather b heads {}
  obtain rfl := hleft Arena.unlimited_default
  rw [List.append_nil] at hheads
  subst hheads
  cases hstops
  refine ⟨Arena.unlimited_default, hroom, last, a', hall, hitems, hlast hroom, ?_⟩
  refine (hlink last (Reader.ofBytes [])).imp (fun linked s' h => ?_) fun f s' h => ?_
  · have hread := h.1
    rw [hitems] at hread
    refine ⟨hread.countItems_eq, hread.text_eq.trans ?_, ?_⟩
    · decide
    · rw [hread.take_eq]
      rfl
  · exact h.2.1 Arena.unlimited_default

/-- The first of two items is pushed, and the room for the second is refused, where an arena grants
one request and no more. -/
example :
    let b : Scratch Form := { width := Scratch.formWidth }
    let f : Form := .atom (.symbol "f")
    let once : Arena := { grants := fun granted _ => granted.sizes.isEmpty }
    b.pushAll [f, .list []] once =
      (([1], b.pushed once.allocator f, some ⟨24, (once.grant 24).reserved⟩), once.grant 24) := rfl

end FormReader
