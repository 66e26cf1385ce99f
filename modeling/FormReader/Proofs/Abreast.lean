import FormReader.Proofs.Shifted
import FormReader.Proofs.SideBySide

/-!
# Readers that are abreast

Two readers are *abreast* when they see the same bytes ahead. The second one may have a source
that begins further on, so that all of its positions are smaller by an offset; it has memory
without limit; and it allows at least as many lists to be open at once
(`FormReader.Reader.Abreast`). What each of them recorded since a certain point is the same but
for the offset, and there is no warning in it.

Two readers that are abreast part in one way only: the first one is cut short because it ran
out of memory, or of levels of nesting where the second one has more of them
(`FormReader.Reader.CutShort`). The warning of that is the last event it records. This makes a
comparison, and this file shows that the steps which rules are made of keep pace in it.
-/

namespace FormReader

/-! ### Warnings -/

/-- Whether there is no warning among some events. -/
def IsCalm (events : List Event) : Prop :=
  ∀ e ∈ events, e.level ≠ .warn

theorem isCalm_nil : IsCalm [] := fun _ he => nomatch he

theorem isCalm_cons {e : Event} {events : List Event} :
    IsCalm (e :: events) ↔ e.level ≠ .warn ∧ IsCalm events :=
  List.forall_mem_cons

/-- The warning that goes with a failure. Only a resource that has run out is warned of. -/
def Failure.warning? : Failure → Option Event
  | exhausted cause => some (.refused cause)
  | tooDeep depth limit => some (.tooDeep depth limit)
  | _ => none

/-- A warning is the same wherever the source begins. -/
theorem Failure.map_shift_warning? (offset : Nat) (f : Failure) :
    f.warning?.toList.map (Event.shift offset) = f.warning?.toList := by
  cases f <;> rfl

namespace Reader

variable {α : Type}

/-! ### Being abreast -/

/-- What is known of two readers from the beginning: the offset of their sources, what they
had recorded before, latest first, and how many lists each of them allows to be open. -/
structure Course where
  offset : Nat
  before : List Event
  before' : List Event
  limit : Nat
  limit' : Nat
  limit_le : limit ≤ limit'

/-- A course on which both readers allow as many lists. -/
def Course.level (offset : Nat) (before before' : List Event) (limit : Nat) : Course where
  offset := offset
  before := before
  before' := before'
  limit := limit
  limit' := limit
  limit_le := Nat.le_refl limit

section Course

variable (k : Course)

/-- **A record** of the same events on both sides, the positions of the first one being greater
by the offset: `own` since the beginning, and on top of it what is particular to each. -/
structure Course.Records (own top top' : List Event) (s t : Reader) : Prop where
  log : s.log = top ++ (own.map (Event.shift k.offset) ++ k.before)
  log' : t.log = top' ++ (own ++ k.before')
  calm : IsCalm own

/-- **Being abreast**: both readers have gone the same way so far. -/
structure Abreast (s t : Reader) : Prop where
  cursor : s.cursor.Shifted k.offset t.cursor
  maxDepth : s.config.maxDepth = k.limit
  maxDepth' : t.config.maxDepth = k.limit'
  unlimited : t.arena.Unlimited
  records : ∃ own, k.Records own [] [] s t

/-- **Having ended abreast**: both had no more levels of nesting left at the same bracket, or
asked for bytes that are not there. A warning is the last that they recorded. -/
structure EndedAbreast (f : Failure) (s t : Reader) : Prop where
  cursor : s.cursor.Shifted k.offset t.cursor
  failure : f = .tooDeep k.limit k.limit ∧ k.limit = k.limit' ∨ f = .outOfRange
  records : ∃ own, k.Records own f.warning?.toList f.warning?.toList s t

/-- **Being cut short**: a resource of the first reader has run out, which is the last that it
recorded, and not so with the second one. -/
structure CutShort (f : Failure) (s t : Reader) : Prop where
  failure : (∃ e, f = .exhausted e) ∨ f = .tooDeep k.limit k.limit ∧ k.limit < k.limit'
  records : ∃ own later, k.Records own f.warning?.toList later s t

variable {k} {s t s' t' : Reader} {f : Failure}

theorem Abreast.records_event {e : Event} (h : Abreast k s t) (he : e.level ≠ .warn) :
    ∃ own, k.Records own [] [] (s.record (e.shift k.offset)) (t.record e) := by
  obtain ⟨own, hown⟩ := h.records
  refine ⟨e :: own, congrArg (_ :: ·) hown.log, congrArg (_ :: ·) hown.log', ?_⟩
  exact isCalm_cons.mpr ⟨he, hown.calm⟩

/-- An event that is no warning keeps two readers abreast. -/
theorem Abreast.record {e : Event} (h : Abreast k s t) (he : e.level ≠ .warn) :
    Abreast k (s.record (e.shift k.offset)) (t.record e) :=
  ⟨h.cursor, h.maxDepth, h.maxDepth', h.unlimited, h.records_event he⟩

theorem Abreast.withCursor {c d : Cursor} (h : Abreast k s t) (hc : c.Shifted k.offset d) :
    Abreast k { s with cursor := c } { t with cursor := d } := by
  obtain ⟨own, hown⟩ := h.records
  exact ⟨hc, h.maxDepth, h.maxDepth', h.unlimited, own, hown.log, hown.log', hown.calm⟩

theorem Abreast.withArena {a b : Arena} (h : Abreast k s t) (hb : b.Unlimited) :
    Abreast k { s with arena := a } { t with arena := b } := by
  obtain ⟨own, hown⟩ := h.records
  exact ⟨h.cursor, h.maxDepth, h.maxDepth', hb, own, hown.log, hown.log', hown.calm⟩

theorem Abreast.rewind (h : Abreast k s t) (h' : Abreast k s' t') :
    Abreast k (s'.rewind s.cursor) (t'.rewind t.cursor) := by
  have hevent : Event.rewinding s'.cursor.pos s.cursor.pos =
      (Event.rewinding t'.cursor.pos t.cursor.pos).shift k.offset := by
    rw [Event.shift, h'.cursor.pos, h.cursor.pos]
  rw [Reader.rewind, Reader.rewind, hevent]
  exact (h'.withCursor h.cursor).record nofun

/-- The positions of two readers differ by the offset. -/
theorem Abreast.pos (h : Abreast k s t) : s.pos = t.pos + k.offset := h.cursor.pos

theorem CutShort.log (h : CutShort k f s t) (ht : t.log <:+ t'.log) : CutShort k f s t' := by
  obtain ⟨own, later, hown⟩ := h.records
  obtain ⟨more, hmore⟩ := ht
  refine ⟨h.failure, own, more ++ later, hown.log, ?_, hown.calm⟩
  rw [← hmore, hown.log', List.append_assoc]

variable (k) in
/-- The comparison of two readers on the same course. -/
def Course.comparison : Comparison where
  near := Abreast k
  ended := EndedAbreast k
  cut := CutShort k
  left_eq h := h.cursor.left
  near_rewind := Abreast.rewind
  ended_fatal := by
    rintro f s t h rfl
    obtain ⟨he, -⟩ | he := h.failure
    · cases he
    · cases he
  cut_fatal := by
    rintro f s t h rfl
    obtain ⟨e, he⟩ | ⟨he, -⟩ := h.failure
    · cases he
    · cases he
  cut_log := CutShort.log

/-- Asking for bytes that are not there ends both runs. -/
theorem Abreast.outOfRange (h : Abreast k s t) : EndedAbreast k .outOfRange s t :=
  ⟨h.cursor, Or.inr rfl, h.records⟩

/-- A run that took **the same course** as another one. -/
structure Course.Same (k : Course) (o o' : Outcome α) : Prop where
  result : o.result = o'.result
  cursor : o.reader.cursor.Shifted k.offset o'.reader.cursor
  log : ∃ own, o.reader.log = own.map (Event.shift k.offset) ++ k.before ∧
    o'.reader.log = own ++ k.before'

/-- Runs that find the same if anything take the same course, or the first is cut short. -/
theorem Comparison.Alike.same_or_cut {o o' : Outcome α} (h : k.comparison.Alike Eq o o') :
    k.Same o o' ∨ ∃ f, o.result = .error f ∧ CutShort k f o.reader o'.reader := by
  cases h with
  | found ha hnear =>
    obtain ⟨own, hown⟩ := hnear.records
    exact Or.inl ⟨congrArg Except.ok ha, hnear.cursor, own, hown.log, hown.log'⟩
  | noMatch hnear =>
    obtain ⟨own, hown⟩ := hnear.records
    exact Or.inl ⟨rfl, hnear.cursor, own, hown.log, hown.log'⟩
  | @ended f _ _ hended =>
    -- the warning belongs to what both recorded
    obtain ⟨own, hown⟩ := hended.records
    refine Or.inl ⟨rfl, hended.cursor, f.warning?.toList ++ own, ?_, ?_⟩
    · rw [List.map_append, Failure.map_shift_warning?, List.append_assoc]
      exact hown.log
    · rw [List.append_assoc]
      exact hown.log'
  | cut hcut => exact Or.inr ⟨_, rfl, hcut⟩

end Course

/-! ### Steps -/

section Steps

variable {k : Course}

theorem keepPace_scan {move : Cursor → Option Cursor} (hsteady : Steady (scan move))
    (hmove : ∀ c d : Cursor, c.Shifted k.offset d →
      Option.Rel (Cursor.Shifted k.offset) (move c) (move d)) :
    KeepPace k.comparison Eq (scan move) (scan move) where
  steady := hsteady
  alike s t hst := by
    have hmoved := hmove _ _ hst.cursor
    rw [run, scan, run, scan]
    generalize move s.cursor = c at hmoved
    generalize move t.cursor = d at hmoved
    cases hmoved with
    | none => exact .noMatch hst
    | some hcursor => exact .found rfl (hst.withCursor hcursor)

theorem keepPace_scanned {move : Cursor → Option Cursor} (hsteady : Steady (scanned move))
    (hmove : ∀ c d : Cursor, c.Shifted k.offset d →
      Option.Rel (Cursor.Shifted k.offset) (move c) (move d)) :
    KeepPace k.comparison Eq (scanned move) (scanned move) where
  steady := hsteady
  alike s t hst := by
    have hmoved := hmove _ _ hst.cursor
    rw [run, scanned, run, scanned]
    generalize move s.cursor = c at hmoved
    generalize move t.cursor = d at hmoved
    cases hmoved with
    | none => exact .found rfl hst
    | some hcursor => exact .found rfl (hst.withCursor hcursor)

theorem keepPace_token : KeepPace k.comparison Eq token token where
  steady := steady_token
  alike s t hst := by
    have htoken := hst.cursor.token?
    rw [run, token, run, token]
    generalize s.cursor.token? = x at htoken
    generalize t.cursor.token? = y at htoken
    cases htoken with
    | none => exact .ended hst.outOfRange
    | some h => exact .found h.1 (hst.withCursor h.2)

theorem keepPace_slice (start stop : Nat) :
    KeepPace k.comparison Eq (slice (start + k.offset) (stop + k.offset)) (slice start stop) where
  steady := steady_slice start stop
  alike s t hst := by
    have hslice := hst.cursor.slice? start stop
    rw [run, slice, run, slice, hslice]
    rcases t.cursor.slice? start stop with _ | bytes
    · exact .ended hst.outOfRange
    · exact .found rfl hst

/-- An event that is no warning is recorded on both sides. -/
theorem keepPace_observe {e : Event} (he : e.level ≠ .warn) :
    KeepPace k.comparison Eq (observe (e.shift k.offset)) (observe e) :=
  ⟨steady_observe e, fun _ _ hst => .found rfl (hst.record he)⟩

/-- **Asking for memory**: the second reader always gets what it asks for, and the first one
gets what compares with it or is cut short. -/
theorem keepPace_ask {request request' : ArenaM α} {answer answer' : Allocator → α}
    {val : α → α → Prop} (h : Arena.Gives request answer) (h' : Arena.Gives request' answer')
    (hval : ∀ allocator allocator', val (answer allocator) (answer' allocator')) :
    KeepPace k.comparison val (ask request) (ask request') where
  steady := steady_ask h'
  alike s t hst := by
    have hs := h s.arena
    have ht := h' t.arena
    rw [run, ask, run, ask]
    rcases hrequest' : request' t.arena with ⟨given', b⟩ | ⟨e', b⟩
    · rw [hrequest'] at ht
      have hb : b.Unlimited := ht.2.unlimited hst.unlimited
      rcases hrequest : request s.arena with ⟨given, a⟩ | ⟨e, a⟩
      · rw [hrequest] at hs
        refine .found ?_ (hst.withArena hb)
        rw [hs.1, ht.1]
        exact hval _ _
      · obtain ⟨own, hown⟩ := hst.records
        exact .cut ⟨Or.inl ⟨e, rfl⟩, own, [], congrArg (_ :: ·) hown.log, hown.log', hown.calm⟩
    · rw [hrequest'] at ht
      exact absurd hst.unlimited ht.2

end Steps

end Reader

end FormReader
