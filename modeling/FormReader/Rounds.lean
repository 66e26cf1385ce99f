import FormReader.Reader.Basic

/-!
# Rounds of a repetition

A repetition goes on for as long as items are found. Nothing in this makes it end: a rule that
finds an item and leaves the cursor where it is will find the same item again.
`FormReader.Reader.gather` ends all the same, since it looks whether the cursor has moved. The
relation of this file does not look (`FormReader.Reader.Rounds`). It says of a repetition that
does nothing but find and keep items that it is over after a number of rounds, and what it has come
to; and where such a repetition goes on forever, it says nothing.
-/

namespace FormReader

namespace Reader

variable {α β : Type}

/-- **Rounds**: a repetition is over after it has found so many items, with a certain outcome. -/
inductive Rounds (next : ReadM (Option β)) (keep : α → β → ReadM α) :
    α → Reader → Nat → Outcome α → Prop where
  /-- There is no item, and what was kept so far is all. -/
  | done {acc : α} {s s' : Reader} :
      s.run next = ⟨.ok none, s'⟩ → Rounds next keep acc s 0 ⟨.ok acc, s'⟩
  /-- Looking for an item fails. -/
  | notFound {acc : α} {s s' : Reader} {f : Failure} :
      s.run next = ⟨.error f, s'⟩ → Rounds next keep acc s 0 ⟨.error f, s'⟩
  /-- An item is found, but keeping it fails. -/
  | notKept {acc : α} {s s₁ s' : Reader} {item : β} {f : Failure} :
      s.run next = ⟨.ok (some item), s₁⟩ → s₁.run (keep acc item) = ⟨.error f, s'⟩ →
      Rounds next keep acc s 1 ⟨.error f, s'⟩
  /-- An item is found and kept, and there are more rounds. -/
  | again {acc acc' : α} {s s₁ s₂ : Reader} {item : β} {n : Nat} {outcome : Outcome α} :
      s.run next = ⟨.ok (some item), s₁⟩ → s₁.run (keep acc item) = ⟨.ok acc', s₂⟩ →
      Rounds next keep acc' s₂ n outcome → Rounds next keep acc s (n + 1) outcome

end Reader

end FormReader
