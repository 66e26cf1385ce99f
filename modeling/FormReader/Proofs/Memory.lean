import FormReader.Arena.Scratch

/-!
# What is asked of an arena

Whatever rule an arena follows, a request to it has only one possible answer: the arena
decides whether the request is met, and not with what. `FormReader.Arena.Gives` says so of
copying a text, of linking items and of pushing onto a scratch buffer, where the allocator has a
say only in how much room the buffer has. An arena without a
limit (`FormReader.Arena.Unlimited`) meets every request. No request changes the rule that an
arena follows or takes anything back that was granted (`FormReader.Arena.Grown`).
-/

namespace FormReader

namespace Arena

/-- **An arena without a limit** grants whatever it is asked for. -/
def Unlimited (a : Arena) : Prop :=
  ∀ granted size, a.grants granted size = true

/-- Whatever the allocator, a limit has to be set. -/
theorem unlimited_of_allocator (allocator : Allocator) : ({ allocator } : Arena).Unlimited :=
  fun _ _ => rfl

theorem unlimited_default : ({} : Arena).Unlimited := unlimited_of_allocator .plain

/-- **Growth**: one arena came out of another by requests. It has the same allocator and follows
the same rule, and what was granted or reserved before still is. -/
structure Grown (a a' : Arena) : Prop where
  allocator : a'.allocator = a.allocator
  grants : a'.grants = a.grants
  sizes : a.granted.sizes <:+ a'.granted.sizes
  reserved : a.reserved ≤ a'.reserved

theorem Grown.refl (a : Arena) : a.Grown a := ⟨rfl, rfl, List.suffix_refl _, Nat.le_refl _⟩

theorem Grown.trans {a a' a'' : Arena} (h : a.Grown a') (h' : a'.Grown a'') : a.Grown a'' :=
  ⟨h'.allocator.trans h.allocator, h'.grants.trans h.grants, h.sizes.trans h'.sizes,
    Nat.le_trans h.reserved h'.reserved⟩

theorem grown_grant (a : Arena) (size : Nat) : a.Grown (a.grant size) :=
  ⟨rfl, rfl, List.suffix_cons _ _, a.allocator.le_holds _ _ _⟩

theorem Grown.unlimited {a a' : Arena} (h : a.Grown a') (ha : a.Unlimited) : a'.Unlimited := by
  intro granted size
  rw [h.grants]
  exact ha granted size

/-- **What a request gives**: this answer, which nothing but the allocator matters for, unless the
arena refuses. The arena grows in both cases, if at all, and without a limit it does not refuse. -/
def Gives {α : Type} (request : ArenaM α) (answer : Allocator → α) : Prop :=
  ∀ a, match request a with
    | .ok given a' => given = answer a.allocator ∧ a.Grown a'
    | .error _ a' => a.Grown a' ∧ ¬a.Unlimited

section Requests

variable {α β : Type}

theorem gives_pure (answer : α) : Gives (pure answer) fun _ => answer :=
  fun a => ⟨rfl, Grown.refl a⟩

theorem Gives.bind {first : ArenaM α} {next : α → ArenaM β} {a : Allocator → α}
    {b : Allocator → β} (h : Gives first a) (hnext : ∀ allocator, Gives (next (a allocator)) b) :
    Gives (first >>= next) b := by
  intro arena
  have h₁ := h arena
  rcases hf : first arena with ⟨given, arena₁⟩ | ⟨e, arena₁⟩
  · rw [hf] at h₁
    obtain ⟨rfl, hgrown⟩ := h₁
    have h₂ := hnext arena.allocator arena₁
    rcases hn : next (a arena.allocator) arena₁ with ⟨b', arena₂⟩ | ⟨e, arena₂⟩
    · rw [hn] at h₂
      simp only [Bind.bind, EStateM.bind, hf, hn]
      exact ⟨h₂.1.trans (congrArg b hgrown.allocator), hgrown.trans h₂.2⟩
    · rw [hn] at h₂
      simp only [Bind.bind, EStateM.bind, hf, hn]
      exact ⟨hgrown.trans h₂.1, fun hu => h₂.2 (hgrown.unlimited hu)⟩
  · rw [hf] at h₁
    simp only [Bind.bind, EStateM.bind, hf]
    exact h₁

theorem gives_request (size reported : Nat) : Gives (request size reported) fun _ => () := by
  intro a
  unfold request
  split
  · next a' hok =>
    split at hok
    · cases hok
      exact ⟨rfl, Grown.refl a⟩
    · split at hok <;> cases hok
      exact ⟨rfl, grown_grant a size⟩
  · next e a' herror =>
    split at herror
    · cases herror
    · split at herror
      · cases herror
      · next hrefused =>
        cases herror
        exact ⟨Grown.refl a, fun hu => hrefused (hu a.granted size)⟩

theorem gives_copyText (s : String) : Gives (copyText s) fun _ => s :=
  (gives_request s.utf8ByteSize s.utf8ByteSize).bind fun _ => gives_pure s

theorem gives_cell (item : Form) (rest : List Form) :
    Gives (cell item rest) fun _ => item :: rest :=
  (gives_request cellSize cellSize).bind fun _ => gives_pure _

/-- **Linking** gives the items themselves. -/
theorem gives_link (items : List Form) : Gives (link items) fun _ => items := by
  induction items with
  | nil => exact gives_pure []
  | cons item items ih =>
    rw [link, List.foldrM_cons]
    exact Gives.bind ih fun _ => gives_cell item items

end Requests

end Arena

namespace Scratch

variable {α : Type}

/-- The buffer behind a push, with as much room as it has then. -/
def pushed (b : Scratch α) (allocator : Allocator) (item : α) : Scratch α :=
  { b with
    items := b.items.push item
    capacity := if b.isFull then allocator.grows b.capacity else b.capacity }

@[simp] theorem items_pushed (b : Scratch α) (allocator : Allocator) (item : α) :
    (b.pushed allocator item).items = b.items.push item := rfl

/-- The item stands behind the others. -/
theorem toList_pushed (b : Scratch α) (allocator : Allocator) (item : α) :
    (b.pushed allocator item).items.toList = b.items.toList ++ [item] := Array.toList_push

/-- A full buffer asks for the room that the allocator of the arena has it grow to. -/
theorem push_of_isFull {b : Scratch α} (h : b.isFull = true) (item : α) (a : Arena) :
    b.push item a =
      (do
        Arena.request (a.allocator.grows b.capacity * b.width) (max b.capacity 1 * b.width)
        return b.pushed a.allocator item : ArenaM (Scratch α)) a := by
  simp only [push, pushed, h, if_true]
  rfl

/-- **A push** gives the buffer with one more item. -/
theorem gives_push (b : Scratch α) (item : α) :
    Arena.Gives (b.push item) fun allocator => b.pushed allocator item := by
  intro a
  by_cases hfull : b.isFull = true
  · have hrequested (size reported : Nat) (grown : Scratch α) :
        Arena.Gives (do Arena.request size reported; return grown) fun _ => grown :=
      (Arena.gives_request size reported).bind fun _ => Arena.gives_pure grown
    rw [push_of_isFull hfull]
    exact hrequested _ _ _ a
  · have hpush : b.push item = pure (b.pushed a.allocator item) := by
      simp only [push, pushed, hfull]
      rfl
    rw [hpush]
    exact Arena.gives_pure _ a

end Scratch

end FormReader
