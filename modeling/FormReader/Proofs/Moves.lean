import FormReader.Cursor.Lemmas
import FormReader.Cursor.Passing
import FormReader.Proofs.Bytes
import FormReader.Text

/-!
# The moves of a cursor

A rule of the grammar is made of a few moves, and this is all that it knows about the bytes: that
the next ones are given, that a byte of a set comes next, or that a token does. The moves are exact
(`FormReader.Cursor.moves_exact`). They say which bytes they go past, and where a move is not
possible there is no place that it could have led to.

Where the bytes of a set go on to the end of the source, a search fails and a token is found. Both
are about the longest run of bytes of a set. What is needed of such a run is that it is known by
the byte behind it, if there is one (`FormReader.isLongestRun_append_iff`): a search insists on
this byte, and behind a token it is a separator or is not there.
-/

namespace FormReader

/-! ### Longest runs -/

section Runs

variable {set : Byte → Bool} {run behind : List Byte}

/-- **A run is the longest one** when it is not continued by the byte behind it. -/
theorem isLongestRun_append_iff :
    IsLongestRun set run (run ++ behind) ↔
      (∀ b ∈ run, set b = true) ∧ ∀ b ∈ behind.head?, set b = false := by
  constructor
  · intro h
    refine ⟨h.mem_set, fun b hb => ?_⟩
    obtain ⟨behind', rfl⟩ := List.head?_eq_some_iff.mp hb
    -- otherwise the run could be continued by this byte
    by_contra hset
    have hcontinued : ∀ x ∈ run ++ [b], set x = true := by
      intro x hx
      rcases List.mem_append.mp hx with hx | hx
      · exact h.mem_set x hx
      · rw [List.mem_singleton.mp hx]
        simpa using hset
    have hlength := h.longest (run ++ [b]) ⟨behind', by simp⟩ hcontinued
    rw [List.length_append, List.length_singleton] at hlength
    omega
  · rintro ⟨hrun, hbehind⟩
    refine ⟨List.prefix_append run behind, hrun, fun run' hrun' hset => ?_⟩
    rcases List.prefix_or_prefix_of_prefix hrun' (List.prefix_append run behind) with h | h
    · exact h.length_le
    · obtain ⟨more, rfl⟩ := h
      rcases more with _ | ⟨b, more⟩
      · rw [List.append_nil]
      · -- the next byte would be in the set and not in the set
        obtain ⟨behind', rfl⟩ := (List.prefix_append_right_inj run).mp hrun'
        have hin : set b = true := hset b (by simp)
        have hout : set b = false := hbehind b rfl
        rw [hin] at hout
        cases hout

theorem isLongestRun_takeWhile (set : Byte → Bool) (bytes : List Byte) :
    IsLongestRun set (bytes.takeWhile set) bytes := by
  have hlongest : IsLongestRun set (bytes.takeWhile set)
      (bytes.takeWhile set ++ bytes.dropWhile set) := by
    refine isLongestRun_append_iff.mpr ⟨fun b hb => List.mem_takeWhile_imp hb, fun b hb => ?_⟩
    have hhead := List.head?_dropWhile_not set bytes
    rw [Option.mem_def.mp hb] at hhead
    exact hhead
  rwa [List.takeWhile_append_dropWhile] at hlongest

end Runs

namespace Cursor

variable {c d : Cursor} {set : Byte → Bool} {run : List Byte}

/-! ### Going past a run -/

/-- **A run that lies ahead** is passed in one way. -/
theorem passes_iff : c.Passes run d ↔ run <+: c.rest ∧ d = c.advance run.length := by
  constructor
  · intro h
    exact ⟨⟨d.rest, h.rest.symm⟩, ext_of_pos h.source h.pos⟩
  · rintro ⟨⟨behind, hrest⟩, rfl⟩
    refine ⟨rfl, rfl, ?_⟩
    rw [rest_advance_of_append hrest.symm]
    exact hrest.symm

theorem literal?_eq_some_iff_passes : c.literal? run = some d ↔ c.Passes run d := by
  rw [literal?_eq_some_iff, passes_iff]

theorem exists_literal?_iff : (∃ d, c.literal? run = some d) ↔ run <+: c.rest := by
  simp only [literal?_eq_some_iff, exists_and_left, exists_eq, and_true]

/-- The empty literal is passed everywhere, and this is no move. -/
theorem literal?_nil (c : Cursor) : c.literal? [] = some c :=
  literal?_eq_some_iff_passes.mpr ⟨rfl, rfl, rfl⟩

/-! ### Searches -/

/-- **A search** skips the bytes that are not in its set. -/
theorem skipUntil?_eq_some_iff_skips :
    c.skipUntil? set = some d ↔ c.Skips (fun b => !set b) d := by
  rw [skipUntil?_eq_some_iff]
  constructor
  · rintro ⟨run, b, behind, hrest, hrun, hb, rfl⟩
    have hpasses : c.Passes run (c.advance run.length) := passes_iff.mpr ⟨⟨_, hrest.symm⟩, rfl⟩
    have hahead : (c.advance run.length).rest = b :: behind :=
      List.append_cancel_left (hpasses.rest.symm.trans hrest)
    refine ⟨run, hpasses, fun x hx => by simpa using hrun x hx, b, ?_, by simpa using hb⟩
    rw [peek?, hahead, List.head?_cons]
  · rintro ⟨run, hpasses, hrun, b, hpeek, hb⟩
    obtain ⟨behind, hahead⟩ := List.head?_eq_some_iff.mp hpeek
    refine ⟨run, b, behind, ?_, fun x hx => by simpa using hrun x hx, by simpa using hb,
      (passes_iff.mp hpasses).2⟩
    rw [hpasses.rest, hahead]

theorem skipWhile?_eq_some_iff_skips : c.skipWhile? set = some d ↔ c.Skips set d := by
  rw [skipWhile?, skipUntil?_eq_some_iff_skips]
  simp only [Bool.not_not]

/-- A search succeeds where there is something to be found. -/
theorem exists_skipUntil?_iff : (∃ d, c.skipUntil? set = some d) ↔ ∃ b ∈ c.rest, set b = true := by
  rw [← Option.ne_none_iff_exists', Ne, skipUntil?_eq_none_iff]
  simp only [not_forall, Bool.not_eq_false, exists_prop]

theorem exists_skipWhile?_iff :
    (∃ d, c.skipWhile? set = some d) ↔ ∃ b ∈ c.rest, set b = false := by
  rw [skipWhile?, exists_skipUntil?_iff]
  simp only [Bool.not_eq_true']

theorem onlyBlanksLeft_iff : c.onlyBlanksLeft = true ↔ c.skipWhile? Byte.isBlank = none := by
  rw [onlyBlanksLeft, List.all_eq_true, skipWhile?, skipUntil?_eq_none_iff]
  simp only [Bool.not_eq_false']

/-! ### Tokens -/

/-- **A token** is the longest run without separators, and it ends where a token may end. -/
theorem exists_token? (hc : c.pos ≤ c.source.size) :
    ∃ token d, c.token? = some (token, d) ∧ c.Passes token d ∧
      IsLongestRun (fun b => !Byte.isSeparator b) token c.rest ∧ d.atBoundary = true := by
  have hlongest := isLongestRun_takeWhile (fun b => !Byte.isSeparator b) c.rest
  have hpasses : c.Passes c.tokenAhead (c.advance c.tokenAhead.length) :=
    passes_iff.mpr ⟨hlongest.begins, rfl⟩
  refine ⟨c.tokenAhead, _, token?_eq_some_iff.mpr ⟨hc, rfl, rfl⟩, hpasses, hlongest, ?_⟩
  change IsLongestRun _ c.tokenAhead c.rest at hlongest
  rw [hpasses.rest, isLongestRun_append_iff] at hlongest
  rw [atBoundary, Option.all_eq_true]
  intro b hb
  simpa using hlongest.2 b hb

/-- Where no separator is left, the token is all there is. -/
theorem eq_rest_of_token? {token : List Byte} (hc : c.pos ≤ c.source.size)
    (h : c.token? = some (token, d)) (hfree : ∀ b ∈ c.rest, Byte.isSeparator b = false) :
    token = c.rest ∧ d.pos = c.source.size := by
  obtain ⟨-, htoken, rfl⟩ := token?_eq_some_iff.mp h
  have hall : c.tokenAhead = c.rest :=
    List.takeWhile_eq_self_iff.mpr fun b hb => by rw [hfree b hb, Bool.not_false]
  rw [htoken, hall]
  refine ⟨rfl, ?_⟩
  rw [pos_advance, length_rest, left]
  omega

/-! ### All moves -/

/-- **The moves are exact**, for every set and every literal, from every position in the source.
A search succeeds where there is something to be found, and it skips what is not. A literal is
passed where the bytes ahead begin with it, the empty one always. A token is always found. It is the
longest run without separators, it ends where a token may end, and where no separator is left it
goes to the end of the source. Nothing but blanks is left where a search for something else
fails. -/
theorem moves_exact (c : Cursor) (hc : c.pos ≤ c.source.size) (set : Byte → Bool)
    (literal : List Byte) :
    ((∃ d, c.skipWhile? set = some d) ↔ ∃ b ∈ c.rest, set b = false) ∧
    (∀ d, c.skipWhile? set = some d ↔ c.Skips set d) ∧
    ((∃ d, c.skipUntil? set = some d) ↔ ∃ b ∈ c.rest, set b = true) ∧
    (∀ d, c.skipUntil? set = some d ↔ c.Skips (fun b => !set b) d) ∧
    ((∃ d, c.literal? literal = some d) ↔ literal <+: c.rest) ∧
    (∀ d, c.literal? literal = some d ↔ c.Passes literal d) ∧
    c.literal? [] = some c ∧
    (∃ token d, c.token? = some (token, d) ∧ c.Passes token d ∧
      IsLongestRun (fun b => !Byte.isSeparator b) token c.rest ∧ d.atBoundary = true ∧
      ((∀ b ∈ c.rest, Byte.isSeparator b = false) → token = c.rest ∧ d.pos = c.source.size)) ∧
    (c.onlyBlanksLeft = true ↔ c.skipWhile? Byte.isBlank = none) := by
  refine ⟨exists_skipWhile?_iff, fun d => skipWhile?_eq_some_iff_skips, exists_skipUntil?_iff,
    fun d => skipUntil?_eq_some_iff_skips, exists_literal?_iff,
    fun d => literal?_eq_some_iff_passes, literal?_nil c, ?_, onlyBlanksLeft_iff⟩
  obtain ⟨token, d, htoken, hpasses, hlongest, hboundary⟩ := exists_token? hc
  exact ⟨token, d, htoken, hpasses, hlongest, hboundary, eq_rest_of_token? hc htoken⟩

/-- In front of the last token of a source there is no blank to be found, and the token goes to the
end. -/
theorem moves_exact_last_token :
    let c := (ofBytes (Text.bytes "(f ab")).seek 3
    c.pos ≤ c.source.size ∧ (¬∃ d, c.skipUntil? Byte.isBlank = some d) ∧
      c.onlyBlanksLeft = false ∧ (∃ d, c.skipWhile? Byte.isBlank = some d) ∧
      ∃ d, c.token? = some (Text.bytes "ab", d) ∧ d.pos = 5 ∧ d.atBoundary = true := by
  intro c
  have hc : c.pos ≤ c.source.size := by decide
  obtain ⟨hskip, -, huntil, -, -, -, -, ⟨token, d, htoken, -, -, hboundary, hlast⟩, -⟩ :=
    moves_exact c hc Byte.isBlank []
  have hall : (c.rest.all fun b => !Byte.isSeparator b) = true := by decide
  have hfree : ∀ b ∈ c.rest, Byte.isSeparator b = false := fun b hb => by
    simpa using List.all_eq_true.mp hall b hb
  obtain ⟨rfl, hpos⟩ := hlast hfree
  refine ⟨hc, huntil.not.mpr ?_, by decide, hskip.mpr ⟨'a'.toUInt8, by decide, by decide⟩, d,
    htoken, hpos, hboundary⟩
  rintro ⟨b, hb, hblank⟩
  rw [isBlank_of_isSeparator (hfree b hb)] at hblank
  cases hblank

end Cursor

end FormReader
