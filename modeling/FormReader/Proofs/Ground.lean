import FormReader.Proofs.Bytes
import FormReader.Proofs.Rules
import FormReader.Trail
import Mathlib.Data.List.Basic

/-!
# Where a cursor finds footing

A *ground* tells at which positions of a source a cursor may stand (`FormReader.Ground`). It can
be any set of positions as long as the ends of the source are among them and so are both sides of
every byte below 128, for these are what the moves of a cursor come to: behind blanks, past a
single byte, before a quote, behind a token. What no move does is to stop within a run of other
bytes.

A ground carries a plan (`FormReader.Ground.Carries`) if a reader that has footing never loses
it: not at any moment of the trail, be it in an alternative that comes to nothing, nor in what is
recorded, nor in what is cut out of the source. This is inherited along sequences, choices and
repetitions, so it has to be looked into for single deeds only.
-/

namespace FormReader

/-- **Grounds**: where on a source a cursor finds footing, and what may be cut out of it. -/
structure Ground where
  source : List Byte
  /-- Whether a cursor may stand at a position. -/
  footing : Nat → Prop
  /-- Whether some bytes may be cut out. -/
  piece : List Byte → Prop
  footing_zero : footing 0
  footing_length : footing source.length
  le_length {p : Nat} : footing p → p ≤ source.length
  /-- A byte below 128 has footing on both sides. -/
  footing_of_ascii {p : Nat} {b : Byte} : source[p]? = some b → b < 0x80 →
    footing p ∧ footing (p + 1)
  piece_of_footing {p q : Nat} : footing p → footing q → p ≤ q →
    piece ((source.drop p).take (q - p))

namespace Ground

variable {G : Ground}

/-! ### Cursors -/

/-- **A cursor has footing** on the source of the ground. -/
structure Holds (G : Ground) (c : Cursor) : Prop where
  source : c.source.toList = G.source
  pos : G.footing c.pos

section Cursors

variable {c d : Cursor}

theorem Holds.pos_le (h : G.Holds c) : c.pos ≤ c.source.size := by
  rw [← Array.length_toList, h.source]
  exact G.le_length h.pos

/-- There is footing on both sides of a byte below 128, however far it lies ahead. -/
theorem Holds.around {passed behind : List Byte} {b : Byte} (h : G.Holds c)
    (hrest : c.rest = passed ++ b :: behind) (hb : b < 0x80) :
    G.Holds (c.advance passed.length) ∧ G.Holds (c.advance (passed.length + 1)) := by
  have hget : G.source[c.pos + passed.length]? = some b := by
    rw [← h.source, ← List.getElem?_drop, ← c.rest_eq, hrest, List.getElem?_append_right le_rfl,
      Nat.sub_self]
    rfl
  obtain ⟨hbefore, hbehind⟩ := G.footing_of_ascii hget hb
  exact ⟨⟨h.source, hbefore⟩, ⟨h.source, hbehind⟩⟩

/-- **A move** keeps its footing, and goes forward. -/
theorem Holds.make {move : Move} (h : G.Holds c) (hmove : move.make c = some d) :
    G.Holds d ∧ c.pos ≤ d.pos := by
  cases move with
  | blanks =>
    obtain ⟨passed, b, behind, hrest, hpassed, -, rfl⟩ := Cursor.skipUntil?_eq_some_iff.mp hmove
    refine ⟨?_, Nat.le_add_right _ _⟩
    -- the cursor comes to stand behind the last of the blanks, if there are any
    rcases List.eq_nil_or_concat' passed with rfl | ⟨before, last, rfl⟩
    · exact ⟨h.source, h.pos⟩
    · have hlast : Byte.isBlank last = true := by
        simpa using hpassed last (List.mem_append_right _ (List.mem_singleton.mpr rfl))
      rw [List.append_assoc, List.singleton_append] at hrest
      rw [List.length_append, List.length_singleton]
      exact (h.around hrest (Byte.lt_of_isBlank hlast)).2
  | mark b hb =>
    obtain ⟨⟨behind, hrest⟩, rfl⟩ := Cursor.literal?_eq_some_iff.mp hmove
    have hrest : c.rest = [] ++ b :: behind := hrest.symm
    exact ⟨(h.around hrest hb).2, Nat.le_add_right _ _⟩
  | toQuote =>
    obtain ⟨passed, b, behind, hrest, -, hb, rfl⟩ := Cursor.skipUntil?_eq_some_iff.mp hmove
    have hquote : b = Byte.quote := of_decide_eq_true hb
    refine ⟨(h.around hrest ?_).1, Nat.le_add_right _ _⟩
    rw [hquote]
    decide

/-- **A token** ends where there is footing, and is a piece of the source. -/
theorem Holds.token {token : List Byte} (h : G.Holds c) (htoken : c.token? = some (token, d)) :
    G.Holds d ∧ G.piece token := by
  obtain ⟨-, rfl, rfl⟩ := Cursor.token?_eq_some_iff.mp htoken
  obtain ⟨behind, hrest, hend⟩ := exists_behind_tokenOf c.rest
  change c.rest = c.tokenAhead ++ behind at hrest
  have hholds : G.Holds (c.advance c.tokenAhead.length) := by
    cases behind with
    | nil =>
      -- the token reaches up to the end of the source
      have hlength : c.pos + c.tokenAhead.length = G.source.length := by
        have hleft := c.length_rest
        rw [hrest, List.append_nil, Cursor.left] at hleft
        have hpos := h.pos_le
        rw [hleft, ← h.source, Array.length_toList]
        omega
      refine ⟨h.source, ?_⟩
      rw [Cursor.pos_advance, hlength]
      exact G.footing_length
    | cons b behind => exact (h.around hrest (Byte.lt_of_isSeparator (hend b rfl))).1
  refine ⟨hholds, ?_⟩
  have hpiece := G.piece_of_footing h.pos hholds.pos (Nat.le_add_right _ _)
  rwa [Cursor.pos_advance, Nat.add_sub_cancel_left, ← h.source, ← c.rest_eq, hrest,
    List.take_left] at hpiece

/-- **A slice** between two positions with footing can be taken, and is a piece of the source. -/
theorem Holds.slice {start stop : Nat} (h : G.Holds c) (hstart : G.footing start)
    (hstop : G.footing stop) (hle : start ≤ stop) :
    ∃ bytes, c.slice? start stop = some bytes ∧ G.piece bytes := by
  have hrange : stop ≤ c.source.size := by
    rw [← Array.length_toList, h.source]
    exact G.le_length hstop
  refine ⟨_, if_pos ⟨hle, hrange⟩, ?_⟩
  rw [Array.toList_extract, h.source, List.extract_eq_take_drop]
  exact G.piece_of_footing hstart hstop hle

end Cursors

/-! ### Readers and moments -/

/-- **A reader has footing**, and has had it wherever it has recorded a position. -/
structure Bears (G : Ground) (s : Reader) : Prop where
  cursor : G.Holds s.cursor
  log : ∀ e ∈ s.log, ∀ p ∈ e.positions, G.footing p

/-- What may be asked of the source. -/
def Allows (G : Ground) : Request → Prop
  | .slice start stop => start ≤ stop ∧ G.footing start ∧ G.footing stop
  | .decode bytes => G.piece bytes
  | _ => True

/-- **A moment passes**: the reader has footing, and asks nothing that it may not. -/
structure Passes (G : Ground) (m : Moment) : Prop where
  bears : G.Bears m.reader
  allows : G.Allows m.request

theorem Bears.record {s : Reader} {e : Event} (h : G.Bears s)
    (he : ∀ p ∈ e.positions, G.footing p) : G.Bears (s.record e) := by
  refine ⟨h.cursor, fun e' he' => ?_⟩
  rcases List.mem_cons.mp he' with rfl | he'
  · exact he
  · exact h.log e' he'

/-- Going back to where there was footing is recorded with two positions that have it. -/
theorem Bears.rewind {s s' : Reader} (h : G.Bears s) (h' : G.Bears s') :
    G.Bears (s'.rewind s.cursor) := by
  refine Bears.record (s := { s' with cursor := s.cursor }) ⟨h.cursor, h'.log⟩ fun p hp => ?_
  rcases List.mem_cons.mp hp with rfl | hp
  · exact h'.cursor.pos
  · rw [List.mem_singleton.mp hp]
    exact h.cursor.pos

/-! ### Plans -/

variable {α β : Type}

/-- **A ground carries a plan** from a reader on: every moment of the trail passes, there is
footing at the end, and no question was without an answer. Something may be known of what was
found. -/
structure CarriesAt (G : Ground) (plan : Plan α) (s : Reader) (good : α → Reader → Prop) :
    Prop where
  trail : ∀ m ∈ plan.trail s, G.Passes m
  ends : Reader.Ends plan.run s (fun a s' => G.Bears s' ∧ good a s') fun f s' =>
    G.Bears s' ∧ f ≠ .outOfRange

/-- **A ground carries a plan**, from wherever there is footing. -/
def Carries (G : Ground) (plan : Plan α) : Prop :=
  ∀ s, G.Bears s → G.CarriesAt plan s fun _ _ => True

section Composition

variable {s : Reader} {good : α → Reader → Prop} {good' : β → Reader → Prop}

/-- There is footing at the end, whatever comes of a rule. -/
theorem bears_run {rule : ReadM α}
    (h : Reader.Ends rule s (fun a s' => G.Bears s' ∧ good a s') fun f s' =>
      G.Bears s' ∧ f ≠ .outOfRange) : G.Bears (s.run rule).reader :=
  (h.imp (fun _ _ ha => ha.1) fun _ _ hf => hf.1).run_reader

/-- What is known of what was found may be forgotten. -/
theorem CarriesAt.forget {plan : Plan α} (h : G.CarriesAt plan s good) :
    G.CarriesAt plan s fun _ _ => True :=
  ⟨h.trail, h.ends.imp (fun _ _ ha => ⟨ha.1, trivial⟩) fun _ _ hf => hf⟩

theorem carriesAt_done {a : α} (hs : G.Bears s) (ha : good a s) : G.CarriesAt (.done a) s good :=
  ⟨nofun, hs, ha⟩

/-- **In sequence**: the second plan goes on from where the first one has ended. -/
theorem CarriesAt.bind {first : Plan α} {next : α → Plan β} (h : G.CarriesAt first s good)
    (hnext : ∀ a s', G.Bears s' → good a s' → G.CarriesAt (next a) s' good') :
    G.CarriesAt (first >>= next) s good' where
  trail := by
    intro m hm
    rcases Plan.mem_trail_bind.mp hm with hm | ⟨a, s', hr, hm⟩
    · exact h.trail m hm
    · obtain ⟨hs', ha⟩ := h.ends.of_ok hr
      exact (hnext a s' hs' ha).trail m hm
  ends := Reader.ends_bind.mpr
    (h.ends.imp (fun a s' ha => (hnext a s' ha.1 ha.2).ends) fun _ _ hf => hf)

/-- **By trying**: where the plan does not match the reader goes back. -/
theorem CarriesAt.attempt {plan : Plan α} (hs : G.Bears s) (h : G.CarriesAt plan s good) :
    G.CarriesAt (.attempt plan) s fun _ _ => True := by
  have hends : Reader.Ends (Reader.attempt plan.run) s (fun _ s' => G.Bears s' ∧ True) fun f s' =>
      G.Bears s' ∧ f ≠ .outOfRange := by
    rw [Reader.ends_attempt]
    refine h.ends.imp (fun a s' ha => ⟨ha.1, trivial⟩) fun f s' hf => ?_
    split
    · exact ⟨hs.rewind hf.1, trivial⟩
    · exact hf
  refine ⟨fun m hm => ?_, hends⟩
  rcases Plan.mem_trail_attempt.mp hm with hm | rfl
  · exact h.trail m hm
  · exact ⟨bears_run hends, trivial⟩

theorem Carries.bind {first : Plan α} {next : α → Plan β} (h : G.Carries first)
    (hnext : ∀ a, G.Carries (next a)) : G.Carries (first >>= next) :=
  fun s hs => (h s hs).bind fun a s' hs' _ => hnext a s' hs'

theorem Carries.attempt {plan : Plan α} (h : G.Carries plan) : G.Carries (.attempt plan) :=
  fun s hs => (h s hs).attempt hs

/-- **By choice**: what follows depends on whether the first alternative matches. -/
theorem Carries.choice {first : Plan α} {pick : Option α → Plan β} (h : G.Carries first)
    (hsome : ∀ a, G.Carries (pick (some a))) (hnone : G.Carries (pick none)) :
    G.Carries (.attempt first >>= pick) := by
  refine h.attempt.bind fun a? => ?_
  cases a? with
  | none => exact hnone
  | some a => exact hsome a

/-- What is done in one case may also be what is done at the end of the other. -/
theorem Carries.ite {c : Prop} [Decidable c] {plan plan' : Plan α} (h : G.Carries plan)
    (h' : G.Carries plan → G.Carries plan') : G.Carries (if c then plan else plan') := by
  split
  · exact h
  · exact h' h

end Composition

/-! ### Repetitions -/

section Repetition

variable {round : α → Reader → List Moment} {step : α → ReadM (α × Bool)}

/-- The trail of a repetition passes if every round of it does and keeps its footing. -/
theorem passes_of_mem_gatherTrail
    (hround : ∀ acc s, G.Bears s → ∀ m ∈ round acc s, G.Passes m)
    (hstep : ∀ acc s, G.Bears s → Reader.Ends (step acc) s (fun _ s' => G.Bears s') fun _ _ => True)
    (acc : α) (s : Reader) (hs : G.Bears s) :
    ∀ m ∈ Plan.gatherTrail round step acc s, G.Passes m := by
  induction hn : s.cursor.left using Nat.strongRecOn generalizing acc s with
  | ind n ih =>
    subst hn
    intro m hm
    rw [Plan.gatherTrail] at hm
    rcases List.mem_append.mp hm with hm | hm
    · exact hround acc s hs m hm
    · split at hm
      · cases hm
      · next acc' more s' hone =>
        split at hm
        · next hgo => exact ih _ hgo.2 acc' s' ((hstep acc s hs).of_ok hone) rfl m hm
        · cases hm

variable {next : Plan (Option β)} {keep : α → β → Plan α}

/-- **By repetition**: every item is found and kept from where there is footing. -/
theorem Carries.gather (hnext : G.Carries next) (hkeep : ∀ acc item, G.Carries (keep acc item))
    (acc : α) : G.Carries (.gather next keep acc) := by
  have hround : Reader.Round next.run (fun acc item => (keep acc item).run)
      (fun _ s => G.Bears s) (fun _ s => G.Bears s ∧ True)
      fun f s => G.Bears s ∧ f ≠ .outOfRange := by
    intro acc s hs
    refine (hnext s hs).ends.imp (fun item? s' hs' => ?_) fun _ _ hf => hf
    cases item? with
    | none => exact hs'
    | some item =>
      exact (hkeep acc item s' hs'.1).ends.imp (fun _ _ h => ⟨h.1, Or.inr h⟩) fun _ _ hf => hf
  intro s hs
  refine ⟨?_, Reader.Ends.gather hround acc s hs⟩
  rw [Plan.trail]
  refine passes_of_mem_gatherTrail (fun acc s hs m hm => ?_) (fun acc s hs => ?_) acc s hs
  · rcases List.mem_append.mp hm with hm | hm
    · exact (hnext s hs).trail m hm
    · -- an item is kept only where one was found
      split at hm
      · next item s' hr =>
        exact (hkeep acc item s' ((hnext s hs).ends.of_ok hr).1).trail m hm
      · cases hm
  · refine (hround.gatherOne hs).imp (fun found s' h => ?_) fun _ _ _ => trivial
    split at h
    · exact h.1
    · exact h.1

end Repetition

/-! ### Deeds -/

section Deeds

variable {s : Reader} {good : α → Reader → Prop}

/-- **A deed** is carried if it asks what it may and leaves a reader with footing. -/
theorem carriesAt_deed {d : Deed α} (hs : G.Bears s) (hask : G.Allows d.request)
    (hends : Reader.Ends d.run s (fun a s' => G.Bears s' ∧ good a s') fun f s' =>
      G.Bears s' ∧ f ≠ .outOfRange) : G.CarriesAt (.deed d) s good := by
  refine ⟨fun m hm => ?_, hends⟩
  rcases Plan.mem_trail_deed.mp hm with rfl | rfl
  · exact ⟨hs, hask⟩
  · exact ⟨bears_run hends, trivial⟩

theorem carries_done (a : α) : G.Carries (.done a) := fun _ hs => carriesAt_done hs trivial

theorem carries_look : G.Carries (.deed .look) :=
  fun _ hs => carriesAt_deed hs trivial ⟨hs, trivial⟩

/-- A reader does not change by being looked at. -/
theorem carriesAt_look_bind {next : Reader → Plan α} (hs : G.Bears s)
    (hnext : G.CarriesAt (next s) s good) : G.CarriesAt (.deed .look >>= next) s good := by
  have hlook : G.CarriesAt (.deed .look) s fun a s' => a = s ∧ s' = s :=
    carriesAt_deed hs trivial ⟨hs, rfl, rfl⟩
  refine hlook.bind ?_
  rintro _ _ - ⟨rfl, rfl⟩
  exact hnext

theorem carriesAt_scan (move : Move) (hs : G.Bears s) :
    G.CarriesAt (.deed (.scan move)) s fun _ s' => s.pos ≤ s'.pos := by
  refine carriesAt_deed hs trivial (Reader.ends_scan.mpr ?_)
  cases hmove : move.make s.cursor with
  | none => exact ⟨hs, nofun⟩
  | some cursor =>
    obtain ⟨hcursor, hle⟩ := hs.cursor.make hmove
    exact ⟨⟨hcursor, hs.log⟩, hle⟩

theorem carries_scan (move : Move) : G.Carries (.deed (.scan move)) :=
  fun _ hs => (carriesAt_scan move hs).forget

theorem carries_scanned (move : Move) : G.Carries (.deed (.scanned move)) := by
  refine fun s hs => carriesAt_deed hs trivial (Reader.ends_scanned.mpr ?_)
  cases hmove : move.make s.cursor with
  | none => exact ⟨hs, trivial⟩
  | some cursor => exact ⟨⟨(hs.cursor.make hmove).1, hs.log⟩, trivial⟩

/-- A token can be taken from wherever there is footing. -/
theorem carriesAt_token (hs : G.Bears s) :
    G.CarriesAt (.deed .token) s fun bytes _ => G.piece bytes := by
  refine carriesAt_deed hs trivial (Reader.ends_token.mpr ?_)
  cases htoken : s.cursor.token? with
  | none =>
    rw [Cursor.token?_eq, if_pos hs.cursor.pos_le] at htoken
    cases htoken
  | some found =>
    obtain ⟨token, cursor⟩ := found
    obtain ⟨hcursor, hpiece⟩ := hs.cursor.token htoken
    exact ⟨⟨hcursor, hs.log⟩, hpiece⟩

theorem carriesAt_slice {start stop : Nat} (hs : G.Bears s) (hstart : G.footing start)
    (hstop : G.footing stop) (hle : start ≤ stop) :
    G.CarriesAt (.deed (.slice start stop)) s fun bytes _ => G.piece bytes := by
  refine carriesAt_deed hs ⟨hle, hstart, hstop⟩ (Reader.ends_slice.mpr ?_)
  obtain ⟨bytes, hslice, hpiece⟩ := hs.cursor.slice hstart hstop hle
  rw [hslice]
  exact ⟨hs, hpiece⟩

theorem ends_found (found? : Option α) (hs : G.Bears s) :
    Reader.Ends (Reader.found found?) s (fun _ s' => G.Bears s' ∧ True) fun f s' =>
      G.Bears s' ∧ f ≠ .outOfRange := by
  cases found? with
  | none => exact ⟨hs, nofun⟩
  | some a => exact ⟨hs, trivial⟩

theorem carriesAt_decode {bytes : List Byte} (hs : G.Bears s) (hbytes : G.piece bytes) :
    G.CarriesAt (.deed (.decode bytes)) s fun _ _ => True :=
  carriesAt_deed hs hbytes (ends_found _ hs)

theorem carries_found (found? : Option α) : G.Carries (.deed (.found found?)) :=
  fun _ hs => carriesAt_deed hs trivial (ends_found found? hs)

theorem carries_fail {f : Failure} (hf : f ≠ .outOfRange) :
    G.Carries (.deed (.fail f) : Plan α) :=
  fun _ hs => carriesAt_deed hs trivial ⟨hs, hf⟩

theorem carries_noMatch : G.Carries (.deed (.fail .noMatch) : Plan α) := carries_fail nofun

theorem carriesAt_observe {e : Event} (hs : G.Bears s) (he : ∀ p ∈ e.positions, G.footing p) :
    G.CarriesAt (.deed (.observe e)) s fun _ _ => True :=
  carriesAt_deed hs trivial ⟨hs.record he, trivial⟩

theorem carries_ask (request : ArenaM α) : G.Carries (.deed (.ask request)) := by
  refine fun s hs => carriesAt_deed hs trivial (Reader.ends_ask.mpr ?_)
  cases request s.arena with
  | ok a arena => exact ⟨⟨hs.cursor, hs.log⟩, trivial⟩
  | error e arena =>
    exact ⟨Bears.record (s := s.withArena arena) ⟨hs.cursor, hs.log⟩ nofun, nofun⟩

end Deeds

end Ground

end FormReader
