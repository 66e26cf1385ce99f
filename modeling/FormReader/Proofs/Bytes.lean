import FormReader.Layout
import Mathlib.Data.List.TakeWhile

/-!
# Runs of bytes

A reader takes bytes in runs: it passes over blanks until there is something else, and it
takes a token until there is a separator. `FormReader.behindBlanks` and
`FormReader.tokenOf` are what comes of the two, and the lemmas here say how they act on bytes
that are written down as a run and what follows it.
-/

namespace FormReader

/-! ### Runs of a set -/

/-- **A run is taken as a whole** where it is not continued by the byte behind it. -/
theorem takeWhile_run_append {set : Byte → Bool} {run behind : List Byte}
    (hrun : ∀ b ∈ run, set b = true) (hbehind : ∀ b ∈ behind.head?, set b = false) :
    (run ++ behind).takeWhile set = run := by
  have hnone : behind.takeWhile set = [] := by
    rcases behind with _ | ⟨b, behind⟩
    · rfl
    · rw [List.takeWhile_cons, hbehind b rfl]
      rfl
  rw [List.takeWhile_append_of_pos hrun, hnone, List.append_nil]

/-! ### Blanks -/

/-- What comes behind the blanks. -/
def behindBlanks (bytes : List Byte) : List Byte :=
  bytes.dropWhile Byte.isBlank

theorem behindBlanks_eq_nil_iff {bytes : List Byte} : behindBlanks bytes = [] ↔ allBlank bytes :=
  List.dropWhile_eq_nil_iff

/-- Bytes are blanks and what comes behind them. -/
theorem exists_blanks (bytes : List Byte) :
    ∃ blanks, allBlank blanks ∧ bytes = blanks ++ behindBlanks bytes :=
  ⟨bytes.takeWhile Byte.isBlank, fun _ hb => List.mem_takeWhile_imp hb,
    List.takeWhile_append_dropWhile.symm⟩

theorem isBlank_of_behindBlanks {bytes behind : List Byte} {b : Byte}
    (h : behindBlanks bytes = b :: behind) : Byte.isBlank b = false := by
  have hhead := List.head?_dropWhile_not Byte.isBlank bytes
  rw [← behindBlanks, h] at hhead
  simpa using hhead

theorem allBlank_nil : allBlank [] := fun _ hb => nomatch hb

theorem allBlank_append {xs ys : List Byte} : allBlank (xs ++ ys) ↔ allBlank xs ∧ allBlank ys :=
  List.forall_mem_append

theorem behindBlanks_append {blanks ahead : List Byte} (hblanks : allBlank blanks)
    (hahead : ∀ b ∈ ahead.head?, Byte.isBlank b = false) :
    behindBlanks (blanks ++ ahead) = ahead := by
  have hsplit := List.takeWhile_append_dropWhile (p := Byte.isBlank) (l := blanks ++ ahead)
  rw [takeWhile_run_append hblanks hahead] at hsplit
  exact List.append_cancel_left hsplit

/-! ### Tokens -/

/-- The token at the beginning of some bytes. -/
def tokenOf (bytes : List Byte) : List Byte :=
  bytes.takeWhile fun b => !Byte.isSeparator b

theorem isToken_tokenOf (bytes : List Byte) : isToken (tokenOf bytes) := by
  intro b hb
  simpa using List.mem_takeWhile_imp hb

/-- Bytes are the token at their beginning and something that ends a token. -/
theorem exists_behind_tokenOf (bytes : List Byte) :
    ∃ behind, bytes = tokenOf bytes ++ behind ∧ endsToken behind := by
  refine ⟨bytes.dropWhile fun b => !Byte.isSeparator b,
    List.takeWhile_append_dropWhile.symm, fun b hb => ?_⟩
  have hhead := List.head?_dropWhile_not (fun b => !Byte.isSeparator b) bytes
  rw [Option.mem_def] at hb
  rw [hb] at hhead
  simpa using hhead

/-- **Maximal munch**: a token is taken as a whole where it ends. -/
theorem tokenOf_append {token behind : List Byte} (h : isToken token) (hend : endsToken behind) :
    tokenOf (token ++ behind) = token := by
  refine takeWhile_run_append (fun b hb => ?_) fun b hb => ?_
  · rw [h b hb, Bool.not_false]
  · rw [hend b hb, Bool.not_true]

theorem endsToken_cons {b : Byte} {bytes : List Byte} (h : Byte.isSeparator b = true) :
    endsToken (b :: bytes) := by
  intro c hc
  cases hc
  exact h

/-! ### Bytes of several sorts -/

theorem isBlank_of_isSeparator {b : Byte} (h : Byte.isSeparator b = false) :
    Byte.isBlank b = false := by
  cases hb : Byte.isBlank b with
  | false => rfl
  | true => exact absurd (Byte.isSeparator_of_isBlank hb) (by simp [h])

@[simp] theorem ofOpening?_closing (p : Bracket) : Bracket.ofOpening? p.closing = none := by
  cases p <;> decide

@[simp] theorem Bracket.ofClosing?_opening (p : Bracket) : ofClosing? p.opening = none := by
  cases p <;> decide

/-- Bytes that begin with an opening bracket. -/
theorem exists_of_ofOpening? {bytes : List Byte} {p : Bracket}
    (h : bytes.head?.bind Bracket.ofOpening? = some p) : ∃ behind, bytes = p.opening :: behind := by
  obtain ⟨b, hhead, hb⟩ := Option.bind_eq_some_iff.mp h
  rw [Bracket.ofOpening?_eq_some_iff.mp hb] at hhead
  exact List.head?_eq_some_iff.mp hhead

/-- Bytes that begin with a closing bracket. -/
theorem exists_of_ofClosing? {bytes : List Byte} {p : Bracket}
    (h : bytes.head?.bind Bracket.ofClosing? = some p) : ∃ behind, bytes = p.closing :: behind := by
  obtain ⟨b, hhead, hb⟩ := Option.bind_eq_some_iff.mp h
  rw [Bracket.ofClosing?_eq_some_iff.mp hb] at hhead
  exact List.head?_eq_some_iff.mp hhead

theorem ofOpening?_of_isSeparator {b : Byte} (h : Byte.isSeparator b = false) :
    Bracket.ofOpening? b = none := by
  rcases hb : Bracket.ofOpening? b with _ | p
  · rfl
  · rw [Bracket.ofOpening?_eq_some_iff.mp hb, Byte.isSeparator_opening] at h
    cases h

theorem ofClosing?_of_isSeparator {b : Byte} (h : Byte.isSeparator b = false) :
    Bracket.ofClosing? b = none := by
  rcases hb : Bracket.ofClosing? b with _ | p
  · rfl
  · rw [Bracket.ofClosing?_eq_some_iff.mp hb, Byte.isSeparator_closing] at h
    cases h

/-! ### Bytes that are characters -/

theorem Byte.lt_of_isBlank {b : Byte} (h : isBlank b = true) : b < 0x80 := by
  simp only [isBlank, Bool.or_eq_true, decide_eq_true_eq] at h
  rcases h with (((rfl | rfl) | rfl) | rfl) | rfl <;> decide

/-- Separators are below 128, as is everything else that decides a layout. -/
theorem Byte.lt_of_isSeparator {b : Byte} (h : isSeparator b = true) : b < 0x80 := by
  simp only [isSeparator, Bool.or_eq_true, Option.isSome_iff_exists] at h
  rcases h with (hb | ⟨bracket, hb⟩) | ⟨bracket, hb⟩
  · exact lt_of_isBlank hb
  · rw [Bracket.ofOpening?_eq_some_iff.mp hb]
    cases bracket with
    | round => decide
    | square => decide
  · rw [Bracket.ofClosing?_eq_some_iff.mp hb]
    cases bracket with
    | round => decide
    | square => decide

end FormReader
