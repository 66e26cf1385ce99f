import FormReader.Cursor.Course
import FormReader.Proofs.Steadiness

/-!
# Cursors in range and beyond

A position is a plain number, and nothing prevents a script from putting a cursor beyond the end of
its source. It never gets there by itself: an operation goes past bytes that are there, or to a
position that was marked, and from a place in range both lead to a place in range. So it takes a
mark of another cursor to leave the source, and before that has happened a token can always be cut
out.

Beyond the end there is nothing ahead, as at the end, and this is all that most operations look at.
They answer what they would answer at the end, they go past nothing, and so they do not lead back
either. A token is different, for it is cut out of the source from the position on.

What an operation does to a place is said once (`FormReader.Cursor.Place.Leads`), and what is known
of a whole script follows by going along its course
(`FormReader.Cursor.Place.forall_course`). The result is
`FormReader.Cursor.Place.cursor_keeps_range`.
-/

namespace FormReader

namespace Cursor

/-! ### Beyond the end -/

section Beyond

variable {c : Cursor}

theorem rest_eq_nil_of_beyond (hbeyond : c.source.size < c.pos) : c.rest = [] :=
  rest_eq_nil_iff.mpr (Nat.le_of_lt hbeyond)

theorem rest_seek_size (c : Cursor) : (c.seek c.source.size).rest = [] :=
  rest_eq_nil_iff.mpr (Nat.le_refl _)

/-- Where there is nothing ahead only the empty literal is passed, and this is no move. -/
theorem literal?_of_rest_eq_nil (hrest : c.rest = []) (bytes : List Byte) :
    c.literal? bytes = if bytes = [] then some c else none := by
  rw [literal?, hrest]
  cases bytes with
  | nil => exact congrArg some (ext_of_pos rfl rfl)
  | cons b bytes => rfl

/-- Where there is nothing ahead nothing is found. -/
theorem skipUntil?_of_rest_eq_nil (hrest : c.rest = []) (set : Byte → Bool) :
    c.skipUntil? set = none := by
  rw [skipUntil?_eq_none_iff, hrest]
  exact fun _ hb => nomatch hb

end Beyond

namespace Place

variable {p q : Place} {op : Op} {ops : List Op} {reply : Reply}

/-! ### One operation -/

/-- **Where an operation leads.** It goes past some of the bytes ahead, sets a mark, goes back to
a mark, or goes to any position. -/
inductive Leads (p : Place) : Op → Place → Prop where
  | forward {op : Op} {n : Nat} : n ≤ p.cursor.left →
      Leads p op { p with cursor := p.cursor.advance n }
  | mark : Leads p .mark { p with marks := p.marks.push p.cursor.pos }
  | restore {turn pos : Nat} : pos ∈ p.marks →
      Leads p (.restore turn) { p with cursor := p.cursor.seek pos }
  | jump {pos : Nat} : Leads p (.jump pos) { p with cursor := p.cursor.seek pos }

theorem leads_self (p : Place) (op : Op) : Leads p op p :=
  Leads.forward (Nat.zero_le p.cursor.left)

/-- A move goes past bytes that are there, or stays. -/
theorem leads_move {target : Option Cursor}
    (htarget : ∀ d, target = some d → ∃ n ≤ p.cursor.left, d = p.cursor.advance n)
    (h : some (p.move target) = some (reply, q)) : Leads p op q := by
  rcases target with _ | d
  · cases h
    exact leads_self p op
  · cases h
    obtain ⟨n, hn, rfl⟩ := htarget d rfl
    exact .forward hn

/-- **An operation that is answered** leads to the place behind it. -/
theorem leads_of_step? (h : p.step? op = some (reply, q)) : Leads p op q := by
  cases op with
  | literal bytes =>
    rw [step?] at h
    exact leads_move (Reader.exists_advance_of_literal p.cursor) h
  | skipWhile set =>
    rw [step?] at h
    exact leads_move (Reader.exists_advance_of_skipWhile p.cursor) h
  | skipUntil set =>
    rw [step?] at h
    exact leads_move (Reader.exists_advance_of_skipUntil p.cursor) h
  | token =>
    rw [step?, Option.map_eq_some_iff] at h
    obtain ⟨⟨token, d⟩, htoken, hq⟩ := h
    cases hq
    obtain ⟨-, rfl, rfl⟩ := token?_eq_some_iff.mp htoken
    exact .forward p.cursor.length_tokenAhead_le
  | slice start stop =>
    rw [step?, bytesAt, Option.map_eq_some_iff] at h
    obtain ⟨bytes, -, hq⟩ := h
    cases hq
    exact leads_self _ _
  | mark =>
    rw [step?] at h
    cases h
    exact .mark
  | restore turn =>
    rw [step?] at h
    split at h
    · next pos hpos =>
      cases h
      exact .restore (Array.mem_of_getElem? hpos)
    · cases h
      exact leads_self _ _
  | jump pos =>
    rw [step?] at h
    cases h
    exact .jump
  | _ =>
    rw [step?] at h
    cases h
    exact leads_self _ _

/-- No operation changes the source. -/
theorem Leads.source (h : Leads p op q) : q.cursor.source = p.cursor.source := by
  cases h with
  | forward _ => rfl
  | mark => rfl
  | restore _ => rfl
  | jump => rfl

/-- **A place in range is left for another one**, unless the cursor goes to a foreign mark. -/
theorem Leads.inRange (h : Leads p op q) (hp : p.InRange) (hkeeps : Step.KeepsToMarks ⟨p, op⟩) :
    q.InRange := by
  cases h with
  | @forward _ n hn =>
    refine ⟨?_, hp.mark_le⟩
    have hpos := hp.pos_le
    rw [left] at hn
    change p.cursor.pos + n ≤ p.cursor.source.size
    omega
  | mark =>
    refine ⟨hp.pos_le, fun pos hpos => ?_⟩
    rcases Array.mem_push.mp hpos with hpos | rfl
    · exact hp.mark_le pos hpos
    · exact hp.pos_le
  | restore hpos => exact ⟨hp.mark_le _ hpos, hp.mark_le⟩
  | jump => exact ⟨hp.mark_le _ (hkeeps _ rfl), hp.mark_le⟩

/-- **Beyond the end** the cursor stays where it is, unless it is put to a position. -/
theorem Leads.cursor_of_beyond (h : Leads p op q)
    (hbeyond : p.cursor.source.size < p.cursor.pos) (hreturn : op.isReturn = false) :
    q.cursor = p.cursor := by
  cases h with
  | @forward _ n hn =>
    -- there is nothing to go past
    have hzero : n = 0 := by
      rw [left] at hn
      omega
    exact hzero ▸ ext_of_pos rfl rfl
  | mark => rfl
  | restore _ => cases hreturn
  | jump => cases hreturn

/-- **Two operations may have no answer**: a token beyond the end, and a slice that is not in the
source. -/
theorem step?_eq_none_iff :
    p.step? op = none ↔ (op = .token ∧ p.cursor.source.size < p.cursor.pos) ∨
      ∃ start stop, op = .slice start stop ∧ (stop < start ∨ p.cursor.source.size < stop) := by
  cases op with
  | token =>
    rw [step?, Option.map_eq_none_iff, token?_eq]
    simp
  | slice start stop =>
    have hslice : p.cursor.slice? start stop = none ↔
        stop < start ∨ p.cursor.source.size < stop := by
      rw [slice?, ite_eq_right_iff, ← Nat.not_le, ← Nat.not_le, ← Decidable.not_and_iff_or_not]
      constructor
      · intro h hle
        cases h hle
      · intro h hle
        exact absurd hle h
    rw [step?, bytesAt, Option.map_eq_none_iff, hslice]
    constructor
    · exact fun h => Or.inr ⟨start, stop, rfl, h⟩
    · rintro (⟨⟨⟩, -⟩ | ⟨_, _, ⟨⟩, h⟩)
      exact h
  | restore turn =>
    rw [step?]
    split
    · simp
    · simp
  | _ => simp [step?]

/-- A move that is not possible leaves the place as it is. -/
theorem eq_of_moved_false (h : p.step? op = some (.moved false, q)) : q = p := by
  have hmove : ∀ target : Option Cursor, some (p.move target) = some (.moved false, q) →
      q = p := by
    rintro (_ | d) h
    · cases h
      rfl
    · cases h
  cases op with
  | literal bytes => exact hmove _ (by rwa [step?] at h)
  | skipWhile set => exact hmove _ (by rwa [step?] at h)
  | skipUntil set => exact hmove _ (by rwa [step?] at h)
  | token =>
    rw [step?, Option.map_eq_some_iff] at h
    obtain ⟨_, -, hq⟩ := h
    cases hq
  | slice start stop =>
    rw [step?, bytesAt, Option.map_eq_some_iff] at h
    obtain ⟨_, -, hq⟩ := h
    cases hq
  | restore turn =>
    rw [step?] at h
    split at h
    · cases h
    · cases h
  | _ =>
    rw [step?] at h
    cases h

/-- **Where there is nothing ahead**, an operation that looks ahead has one answer, wherever the
cursor is, and leaves it there. -/
theorem exists_reply_of_rest_eq_nil (hahead : op.looksAhead = true) :
    ∃ reply, ∀ p : Place, p.cursor.rest = [] → p.step? op = some (reply, p) := by
  cases op with
  | literal bytes =>
    refine ⟨.moved (bytes = []), fun p hrest => ?_⟩
    rw [step?, literal?_of_rest_eq_nil hrest]
    by_cases hbytes : bytes = []
    · rw [if_pos hbytes, decide_eq_true hbytes]
      rfl
    · rw [if_neg hbytes, decide_eq_false hbytes]
      rfl
  | skipWhile set =>
    refine ⟨.moved false, fun p hrest => ?_⟩
    rw [step?, skipWhile?, skipUntil?_of_rest_eq_nil hrest]
    rfl
  | skipUntil set =>
    refine ⟨.moved false, fun p hrest => ?_⟩
    rw [step?, skipUntil?_of_rest_eq_nil hrest]
    rfl
  | peek =>
    refine ⟨.byte none, fun p hrest => ?_⟩
    rw [step?, peek?, hrest]
    rfl
  | rest =>
    refine ⟨.bytes [], fun p hrest => ?_⟩
    rw [step?, hrest]
  | boundary =>
    refine ⟨.flag true, fun p hrest => ?_⟩
    rw [step?, atBoundary, peek?, hrest]
    rfl
  | blanksLeft =>
    refine ⟨.flag true, fun p hrest => ?_⟩
    rw [step?, onlyBlanksLeft, hrest]
    rfl
  | token => cases hahead
  | slice start stop => cases hahead
  | mark => cases hahead
  | restore turn => cases hahead
  | jump pos => cases hahead
  | fork ops => cases hahead

end Place

/-! ### Scripts -/

/-- **What is known of every step**, wherever it is carried out. -/
structure Step.Regular (step : Step) : Prop where
  /-- There are two ways to ask for bytes that the source does not have, and no others. -/
  outOfRange_iff : step.outcome? = none ↔
    (step.op = .token ∧ step.IsBeyond) ∨
      ∃ start stop, step.op = .slice start stop ∧
        (stop < start ∨ step.place.cursor.source.size < stop)
  /-- A move that is not possible leaves the place as it is. -/
  stays_of_moved_false {behind : Place} :
    step.outcome? = some (.moved false, behind) → behind = step.place
  /-- Beyond the end, what looks ahead answers what it answers at the end, and moves in neither
  case. -/
  same_as_atEnd : step.IsBeyond → step.op.looksAhead = true →
    ∃ reply, step.outcome? = some (reply, step.place) ∧
      step.place.atEnd.step? step.op = some (reply, step.place.atEnd)
  /-- Beyond the end, the cursor stays unless it is put to a position. -/
  stays_of_beyond {reply : Reply} {behind : Place} : step.IsBeyond → step.op.isReturn = false →
    step.outcome? = some (reply, behind) → behind.cursor = step.place.cursor

theorem Step.regular (step : Step) : step.Regular where
  outOfRange_iff := Place.step?_eq_none_iff
  stays_of_moved_false := Place.eq_of_moved_false
  same_as_atEnd hbeyond hahead := by
    obtain ⟨reply, hreply⟩ := Place.exists_reply_of_rest_eq_nil hahead
    exact ⟨reply, hreply step.place (rest_eq_nil_of_beyond hbeyond),
      hreply step.place.atEnd (rest_seek_size step.place.cursor)⟩
  stays_of_beyond hbeyond hreturn h := (Place.leads_of_step? h).cursor_of_beyond hbeyond hreturn

namespace Place

variable {p : Place} {ops : List Op}

/-- **Along a course** an invariant is kept, if every step that is allowed keeps it. -/
theorem forall_course (inv : Place → Prop) (allowed : Step → Prop)
    (hstep : ∀ {p q : Place} {op : Op} {reply : Reply}, inv p → allowed ⟨p, op⟩ →
      p.step? op = some (reply, q) → inv q)
    (hp : inv p) (hallowed : ∀ step ∈ p.course ops, allowed step) :
    ∀ step ∈ p.course ops, inv step.place := by
  induction ops generalizing p with
  | nil => exact fun _ h => nomatch h
  | cons op ops ih =>
    rw [course, List.forall_mem_cons] at hallowed ⊢
    refine ⟨hp, ?_⟩
    rcases hop : p.step? op with _ | ⟨reply, q⟩
    · exact fun _ h => nomatch h
    · rw [hop] at hallowed
      exact ih (hstep hp hallowed.1 hop) hallowed.2

/-- **The record** of a script tells what the steps of its course come to. -/
theorem run_eq_map_entry (p : Place) (ops : List Op) :
    p.run ops = (p.course ops).map Step.entry := by
  induction ops generalizing p with
  | nil => rw [run, course, List.map_nil]
  | cons op ops ih =>
    rw [run, course, List.map_cons, Step.entry, Step.outcome?]
    rcases p.step? op with _ | ⟨reply, q⟩
    · rfl
    · exact congrArg _ (ih q)

/-- A course goes through the operations in order. -/
theorem isPrefix_map_op_course (p : Place) (ops : List Op) :
    (p.course ops).map Step.op <+: ops := by
  induction ops generalizing p with
  | nil => exact List.prefix_refl _
  | cons op ops ih =>
    rw [course, List.map_cons, List.cons_prefix_cons]
    refine ⟨rfl, ?_⟩
    rcases p.step? op with _ | ⟨reply, q⟩
    · exact List.nil_prefix
    · exact ih q

/-- Where every step is answered, all operations are carried out. -/
theorem map_op_course (hanswered : ∀ step ∈ p.course ops, step.outcome? ≠ none) :
    (p.course ops).map Step.op = ops := by
  induction ops generalizing p with
  | nil => rfl
  | cons op ops ih =>
    rw [course, List.forall_mem_cons] at hanswered
    rw [course, List.map_cons]
    rcases hop : p.step? op with _ | ⟨reply, q⟩
    · exact absurd hop hanswered.1
    · rw [hop] at hanswered
      exact congrArg _ (ih hanswered.2)

/-- **A cursor keeps its range by itself, and beyond it is as at the end.** The record of a script
tells what its steps come to, and these are its operations in order, all of them unless one has no
answer. Every step of a script is regular: it has no answer only if it cuts a token out beyond the
end or a slice that is not in the source, it stays where it is if it is a move that is not
possible, and beyond the end it answers what it would answer at the end and does not move, as far as
it looks ahead. Further, a script that begins in range and keeps to its own marks is in range in
front of every step and behind it, so that it can always take a token; and a script that begins
beyond the end and goes to no position stays where it is. -/
theorem cursor_keeps_range (p : Place) (ops : List Op) :
    p.run ops = (p.course ops).map Step.entry ∧
    (p.course ops).map Step.op <+: ops ∧
    ((∀ step ∈ p.course ops, step.outcome? ≠ none) → (p.course ops).map Step.op = ops) ∧
    (∀ step ∈ p.course ops,
      step.place.cursor.source = p.cursor.source ∧ step.Regular) ∧
    (p.InRange → (∀ step ∈ p.course ops, step.KeepsToMarks) →
      ∀ step ∈ p.course ops, step.place.InRange ∧
        (step.op = .token → step.outcome? ≠ none) ∧
        ∀ reply behind, step.outcome? = some (reply, behind) → behind.InRange) ∧
    (p.cursor.source.size < p.cursor.pos → (∀ op ∈ ops, op.isReturn = false) →
      ∀ step ∈ p.course ops, step.place.cursor = p.cursor) := by
  refine ⟨run_eq_map_entry p ops, isPrefix_map_op_course p ops, map_op_course,
    fun step hstep => ⟨?_, step.regular⟩, fun hp hkeeps step hstep => ?_,
    fun hbeyond hreturns => ?_⟩
  · exact forall_course (fun q => q.cursor.source = p.cursor.source) (fun _ => True)
      (fun hq _ h => (leads_of_step? h).source.trans hq) rfl (fun _ _ => trivial) step hstep
  · have hrange : step.place.InRange := forall_course InRange Step.KeepsToMarks
      (fun hq hkeeps h => (leads_of_step? h).inRange hq hkeeps) hp hkeeps step hstep
    refine ⟨hrange, fun htoken hnone => ?_, fun reply behind h => ?_⟩
    · rcases step.regular.outOfRange_iff.mp hnone with ⟨-, hbeyond⟩ | ⟨_, _, hslice, -⟩
      · exact absurd hrange.pos_le (Nat.not_le.mpr hbeyond)
      · rw [htoken] at hslice
        cases hslice
    · exact (leads_of_step? h).inRange hrange (hkeeps step hstep)
  · have hops : ∀ step ∈ p.course ops, step.op.isReturn = false := fun step hstep =>
      hreturns _ ((isPrefix_map_op_course p ops).subset (List.mem_map_of_mem hstep))
    refine forall_course (fun q => q.cursor = p.cursor) (fun step => step.op.isReturn = false)
      (fun hq hop h => ?_) rfl hops
    rw [← hq] at hbeyond ⊢
    exact (leads_of_step? h).cursor_of_beyond hbeyond hop

/-- A script that goes back to a mark in two ways, and one that begins beyond the end: it finds
nothing ahead, passes the empty literal, and is stopped where it asks for a token. -/
theorem cursor_keeps_range_beyond :
    let p : Place := { cursor := ofBytes (Text.bytes "ab c") }
    let within : List Op := [.token, .mark, .skipWhile Byte.isBlank, .restore 0, .jump 2]
    let q : Place := { cursor := p.cursor.seek 9 }
    let beyond : List Op := [.rest, .literal [], .skipWhile Byte.isBlank, .token, .peek]
    p.run within = [.answered (.bytes (Text.bytes "ab")) 2, .answered (.marked 2) 2,
        .answered (.moved true) 3, .answered .done 2, .answered .done 2] ∧
      (∀ step ∈ p.course within, step.place.InRange) ∧
      q.run beyond = [.answered (.bytes []) 9, .answered (.moved true) 9,
        .answered (.moved false) 9, .outOfRange] ∧
      ∀ step ∈ q.course beyond, step.place.cursor = q.cursor := by
  intro p within q beyond
  have hp : p.InRange := ⟨Nat.zero_le _, fun _ h => by cases Array.not_mem_empty _ h⟩
  have hkeeps : ∀ step ∈ p.course within, step.KeepsToMarks := by
    refine List.forall_mem_cons.mpr ⟨nofun, List.forall_mem_cons.mpr ⟨nofun,
      List.forall_mem_cons.mpr ⟨nofun, List.forall_mem_cons.mpr ⟨nofun,
        List.forall_mem_cons.mpr ⟨?_, nofun⟩⟩⟩⟩⟩
    rintro pos ⟨⟩
    exact Array.mem_push_self
  obtain ⟨-, -, -, -, hrange, -⟩ := cursor_keeps_range p within
  obtain ⟨-, -, -, -, -, hstays⟩ := cursor_keeps_range q beyond
  exact ⟨rfl, fun step hstep => (hrange hp hkeeps step hstep).1, rfl,
    hstays (by decide) (by decide)⟩

end Place

end Cursor

end FormReader
