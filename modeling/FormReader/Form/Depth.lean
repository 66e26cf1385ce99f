import FormReader.Form.Basic

/-!
# Depth

The depth of a form is the number of lists that are open at the innermost point of its
text: none for an atom, one for the empty list. It is what a reader's limit on nesting
is about.
-/

namespace FormReader

namespace Form

mutual

/-- How many lists are inside one another at most. -/
def depth : Form → Nat
  | atom _ => 0
  | list items => depthOfItems items + 1

/-- The greatest depth among some forms. -/
def depthOfItems : List Form → Nat
  | [] => 0
  | item :: items => max item.depth (depthOfItems items)

end

@[simp] theorem depth_atom (a : Atom) : (atom a).depth = 0 := by rw [depth]

@[simp] theorem depth_list (items : List Form) : (list items).depth = depthOfItems items + 1 := by
  rw [depth]

/-- The depth of items is bounded by what bounds each of them. -/
theorem depthOfItems_le_iff {items : List Form} {n : Nat} :
    depthOfItems items ≤ n ↔ ∀ item ∈ items, item.depth ≤ n := by
  induction items with
  | nil => simp [depthOfItems]
  | cons item items ih => rw [depthOfItems, Nat.max_le, ih, List.forall_mem_cons]

theorem depthOfItems_append_le_iff {items items' : List Form} {n : Nat} :
    depthOfItems (items ++ items') ≤ n ↔ depthOfItems items ≤ n ∧ depthOfItems items' ≤ n := by
  rw [depthOfItems_le_iff, depthOfItems_le_iff, depthOfItems_le_iff, List.forall_mem_append]

/-- A list is as deep as allowed when its items are one less deep. -/
theorem depth_list_le_iff {items : List Form} {n : Nat} :
    (list items).depth ≤ n ↔ 0 < n ∧ ∀ item ∈ items, item.depth ≤ n - 1 := by
  rw [depth_list, ← depthOfItems_le_iff]
  omega

end Form

end FormReader
