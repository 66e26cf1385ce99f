import FormReader.Form.Depth
import FormReader.Proofs.Layouts
import FormReader.Proofs.Scanning
import FormReader.Proofs.Steadiness
import FormReader.Reader.Source

/-!
# What is read was laid out

Whatever a rule reads, the bytes it went past are a layout of it, and it is no deeper than
the room that the rule was given (`FormReader.Reader.reads_form`). Nothing is said here about
when a rule succeeds, and nothing is assumed of the arena: a limited one refuses, but it does
not give wrong answers.

The forms and the items of a list are read by turns, and both are followed through by one
relation between the readers before and behind (`FormReader.Reader.Reads`,
`FormReader.Reader.ReadsItems`). The items are collected by a repetition, for which the
relation is the invariant: what was gathered so far is laid out by the bytes passed so far.
-/

namespace FormReader

namespace Reader

/-! ### What was read -/

/-- **A form was read** between two readers: the bytes passed are blanks and a layout of it,
and it is no deeper than allowed. -/
structure Reads (limit : Nat) (s : Reader) (form : Form) (s' : Reader) : Prop where
  depth_le : form.depth ≤ limit
  layout : ∃ blanks text, allBlank blanks ∧
    s.cursor.rest = blanks ++ text ++ s'.cursor.rest ∧ LaidOut text form s'.cursor.rest

/-- **Items were read** between two readers: the bytes passed are a layout of them, and a list
of them is no deeper than allowed. -/
structure ReadsItems (limit : Nat) (s : Reader) (items : List Form) (s' : Reader) : Prop where
  depth_le : (Form.list items).depth ≤ limit
  layout : ∃ bytes, s.cursor.rest = bytes ++ s'.cursor.rest ∧
    ItemsLaidOut bytes items s'.cursor.rest

section Reads

variable {limit : Nat} {s s' s'' : Reader} {form : Form} {items : List Form}

theorem Reads.isRepresentable (h : Reads limit s form s') : form.isRepresentable = true := by
  obtain ⟨_, _, _, _, htext⟩ := h.layout
  exact htext.isRepresentable

theorem ReadsItems.areRepresentable (h : ReadsItems limit s items s') :
    Form.areRepresentable items = true := by
  obtain ⟨_, _, hbytes⟩ := h.layout
  exact hbytes.areRepresentable

/-- Reading a form takes at least one byte. -/
theorem Reads.left_lt (h : Reads limit s form s') : s'.cursor.left < s.cursor.left := by
  obtain ⟨blanks, text, -, hrest, htext⟩ := h.layout
  obtain ⟨b, bytes, rfl, -⟩ := htext.exists_cons
  rw [← Cursor.length_rest, ← Cursor.length_rest, hrest]
  simp only [List.length_append, List.length_cons]
  omega

/-- Only the cursors matter. -/
theorem Reads.congr (h : Reads limit s form s') {t t' : Reader} (ht : t.cursor = s.cursor)
    (ht' : t'.cursor = s'.cursor) : Reads limit t form t' := by
  refine ⟨h.depth_le, ?_⟩
  rw [ht, ht']
  exact h.layout

theorem ReadsItems.congr (h : ReadsItems limit s items s') {t t' : Reader}
    (ht : t.cursor = s.cursor) (ht' : t'.cursor = s'.cursor) : ReadsItems limit t items t' := by
  refine ⟨h.depth_le, ?_⟩
  rw [ht, ht']
  exact h.layout

/-- Where the cursor stays no item was read. -/
theorem ReadsItems.nil (hlimit : 0 < limit) (h : s'.cursor = s.cursor) :
    ReadsItems limit s [] s' := by
  refine ⟨?_, [], ?_, .nil allBlank_nil⟩
  · rw [Form.depth_list, Form.depthOfItems]
    omega
  · rw [h, List.nil_append]

/-- **One more item** was read. -/
theorem ReadsItems.snoc (h : ReadsItems (limit + 1) s items s') (hform : Reads limit s' form s'') :
    ReadsItems (limit + 1) s (items ++ [form]) s'' := by
  obtain ⟨bytes, hrest, hbytes⟩ := h.layout
  obtain ⟨blanks, text, hblanks, hrest', htext⟩ := hform.layout
  refine ⟨?_, bytes ++ (blanks ++ text), ?_, ?_⟩
  · have hitems := (Form.depth_list_le_iff.mp h.depth_le).2
    rw [Form.depth_list_le_iff]
    refine ⟨Nat.succ_pos limit, fun item hitem => ?_⟩
    rcases List.mem_append.mp hitem with hitem | hitem
    · exact hitems item hitem
    · rw [List.mem_singleton.mp hitem]
      exact hform.depth_le
  · rw [hrest, hrest', List.append_assoc bytes]
  · rw [hrest'] at hbytes
    exact hbytes.append (.single hblanks htext)

end Reads

/-! ### Atoms and lists -/

/-- An atom that was found was read. -/
theorem reads_atom (limit : Nat) (s : Reader) :
    Ends atom s (fun a s' => Reads limit s (.atom a) s') fun _ _ => True := by
  refine (scans_atom s).imp (fun a s' ha => ⟨?_, ?_⟩) fun _ _ _ => trivial
  · rw [Form.depth_atom]
    exact Nat.zero_le limit
  obtain ⟨n, hahead, hs'⟩ := ha
  obtain ⟨text, behind, hsplit, rfl, hspelling, hend⟩ := spelling_of_atomAhead? hahead
  have hbehind : s'.cursor.rest = behind := by
    rw [hs', Cursor.rest_advance_of_append (s.rest_skipBlanks.trans hsplit)]
  obtain ⟨blanks, hblanks, hrest⟩ := exists_blanks s.cursor.rest
  refine ⟨blanks, text, hblanks, ?_, ?_⟩
  · rw [hbehind, List.append_assoc, ← hsplit]
    exact hrest
  · rw [hbehind]
    exact .atom hspelling hend

/-- A list that was closed was read, if its items were. -/
theorem reads_bracketed {limit : Nat} {nested : ReadM (List Form)}
    (hnested : ∀ s, Ends nested s (fun items s' => ReadsItems limit s items s') fun _ _ => True)
    (s : Reader) :
    Ends (bracketed nested) s (fun form s' => Reads limit s form s') fun _ _ => True := by
  obtain ⟨blanks, hblanks, hrest⟩ := exists_blanks s.cursor.rest
  rw [bracketed, ends_bind, ends_blanks]
  split
  · trivial
  rw [ends_bind, ends_openBracket, rest_skipBlanks]
  rcases hopening : (behindBlanks s.cursor.rest).head?.bind Bracket.ofOpening? with _ | bracket
  · trivial
  · obtain ⟨inside, hinside⟩ := exists_of_ofOpening? hopening
    dsimp only
    rw [ends_bind]
    refine (hnested _).imp (fun items s₁ hitems => ?_) fun _ _ _ => trivial
    rw [ends_bind]
    refine (ends_closeBracket bracket s₁).imp (fun _ s' hclosed => ?_) fun _ _ _ => trivial
    obtain ⟨hclosing, hs'⟩ := hclosed
    obtain ⟨bytes, hbytes, hlaidOut⟩ := hitems.layout
    obtain ⟨blanks₁, hblanks₁, hrest₁⟩ := exists_blanks s₁.cursor.rest
    obtain ⟨behind, hbehind⟩ := List.head?_eq_some_iff.mp hclosing
    have hs'rest : s'.cursor.rest = behind := by
      rw [hs', rest_past_first hbehind]
    have hinside₁ : inside = bytes ++ s₁.cursor.rest := by
      rw [← hbytes, rest_past_first hinside]
    rw [hbehind] at hrest₁
    -- the blanks before the closing bracket belong to the items
    have hitems' : ItemsLaidOut (bytes ++ blanks₁) items (bracket.closing :: behind) := by
      have happend := ItemsLaidOut.append (hrest₁ ▸ hlaidOut) (.nil hblanks₁)
      rwa [List.append_nil] at happend
    refine ⟨hitems.depth_le, blanks, bracket.opening :: (bytes ++ blanks₁) ++ [bracket.closing],
      hblanks, ?_, ?_⟩
    · rw [hs'rest, hrest, hinside, hinside₁, hrest₁]
      simp
    · exact .list (hs'rest ▸ hitems')

/-! ### Items -/

/-- **Gathering** goes on reading items behind those that were read before, if what finds
them reads forms and puts the cursor back where there is none. -/
theorem reads_gather {room : Nat} {find : ReadM (Option Form)} (hsteady : Steady find) {s : Reader}
    (hfind : ∀ s₁, Follows s s₁ → Ends find s₁
      (fun form? s₂ => match form? with
        | some form => Reads room s₁ form s₂
        | none => s₂.cursor = s₁.cursor)
      fun _ _ => True)
    {forms : Scratch Form} {s₁ : Reader} (hs₁ : Follows s s₁)
    (hforms : ReadsItems (room + 1) s forms.items.toList s₁) :
    Ends (gather find push forms) s₁
      (fun forms' s' => ReadsItems (room + 1) s forms'.items.toList s') fun _ _ => True := by
  have hround : Round find push
      (fun forms s₁ => Follows s s₁ ∧ ReadsItems (room + 1) s forms.items.toList s₁)
      (fun forms s₁ => ReadsItems (room + 1) s forms.items.toList s₁) fun _ _ => True := by
    -- that the readers follow the first one is needed to know their settings
    intro forms s₁ hinv
    refine ((hfind s₁ hinv.1).and (hsteady s₁)).imp (fun form? s₂ h => ?_) fun _ _ _ => trivial
    rcases form? with _ | form
    · exact hinv.2.congr rfl h.1
    · refine (ends_push forms form s₂).imp (fun forms' s₃ hs₃ => ?_) fun _ _ _ => trivial
      obtain ⟨rfl, hcursor, hfollows⟩ := hs₃
      have hitems :
          ReadsItems (room + 1) s (forms.pushed s₂.arena.allocator form).items.toList s₃ := by
        rw [Scratch.toList_pushed]
        exact (hinv.2.snoc h.1).congr rfl hcursor
      exact ⟨⟨(hinv.1.trans h.2).trans hfollows, hitems⟩, Or.inr hitems⟩
  exact Ends.gather hround forms s₁ ⟨hs₁, hforms⟩

/-- Linking does not change what was gathered. -/
theorem reads_link {limit : Nat} {s s₁ : Reader} {forms : Scratch Form}
    (h : ReadsItems limit s forms.items.toList s₁) :
    Ends (link forms) s₁ (fun items s' => ReadsItems limit s items s') fun _ _ => True := by
  refine (ends_link forms s₁).imp (fun items s' hs' => ?_) fun _ _ _ => trivial
  rw [hs'.1]
  exact h.congr rfl hs'.2.1

/-- Trying to read a form reads it, or puts the cursor back. -/
theorem reads_attempt {room : Nat} {form : ReadM Form}
    (hform : ∀ s, Ends form s (fun t s' => Reads room s t s') fun _ _ => True) (s : Reader) :
    Ends (attempt form) s
      (fun form? s' => match form? with
        | some t => Reads room s t s'
        | none => s'.cursor = s.cursor)
      fun _ _ => True := by
  rw [ends_attempt]
  refine (hform s).imp (fun t s' h => h) fun f s' _ => ?_
  split
  · rfl
  · trivial

section Nested

variable {room : Nat} {form : ReadM Form} (hsteady : Steady form)
  (hform : ∀ s, Ends form s (fun t s' => Reads room s t s') fun _ _ => True)

include hsteady hform

theorem reads_items (s : Reader) :
    Ends (items form) s (fun items s' => ReadsItems (room + 1) s items s') fun _ _ => True := by
  rw [items_eq_linkedItems, linkedItems, ends_bind]
  refine ((hform s).and (hsteady s)).imp (fun t s₁ h => ?_) fun _ _ _ => trivial
  rw [ends_bind]
  refine (ends_push { width := Scratch.formWidth } t s₁).imp (fun forms s₂ hs₂ => ?_)
    fun _ _ _ => trivial
  obtain ⟨rfl, hcursor, hfollows⟩ := hs₂
  have hfirst : ReadsItems (room + 1) s
      (Scratch.pushed { width := Scratch.formWidth } s₁.arena.allocator t).items.toList s₂ :=
    ((ReadsItems.nil (Nat.succ_pos room) rfl).snoc h.1).congr rfl hcursor
  rw [ends_bind]
  have hgather := reads_gather hsteady.attempt (fun s₁ _ => reads_attempt hform s₁)
    (h.2.trans hfollows) hfirst
  exact hgather.imp (fun forms s₃ hforms => reads_link hforms) fun _ _ _ => trivial

/-- **The items of a list** are read, if forms are. -/
theorem reads_optionalItems (s : Reader) :
    Ends (optionalItems form) s (fun items s' => ReadsItems (room + 1) s items s')
      fun _ _ => True := by
  rw [optionalItems, ends_bind, ends_attempt]
  refine (reads_items hsteady hform s).imp (fun items s' h => h) fun f s' _ => ?_
  split
  · exact ReadsItems.nil (Nat.succ_pos room) rfl
  · trivial

end Nested

/-! ### Forms -/

/-- **A form** is read, if what stands between the brackets is read in case it is a list. -/
theorem reads_element {limit : Nat} {nested : ReadM (List Form)}
    (hnested : ∀ s, Ends nested s (fun items s' => ReadsItems limit s items s') fun _ _ => True)
    (s : Reader) :
    Ends (element nested) s (fun form s' => Reads limit s form s') fun _ _ => True := by
  rw [element, ends_bind, ends_attempt]
  refine (reads_atom limit s).imp (fun a s' h => h) fun f s' _ => ?_
  split
  · -- the cursor is back where the atom was looked for
    refine (reads_bracketed hnested (s'.rewind s.cursor)).imp (fun form s'' h => ?_)
      fun _ _ _ => trivial
    exact h.congr rfl rfl
  · trivial

/-- Without room no items are read at all. -/
theorem reads_refuseNesting (s : Reader) :
    Ends refuseNesting s (fun items s' => ReadsItems 0 s items s') fun _ _ => True := trivial

/-- **What a reader reads with some room was laid out**, and is no deeper than the room. -/
theorem reads_form (room : Nat) (s : Reader) :
    Ends (form room) s (fun t s' => Reads room s t s') fun _ _ => True := by
  induction room generalizing s with
  | zero => exact reads_element reads_refuseNesting s
  | succ room ih => exact reads_element (reads_optionalItems (steady_form room) ih) s

/-! ### What a reader is asked for -/

theorem reads_one (s : Reader) :
    Ends one s (fun t s' => Reads s.config.maxDepth s t s') fun _ _ => True := by
  rw [one, ends_bind, ends_get, ends_bind]
  refine (reads_attempt (reads_form _) s).imp (fun form? s' h => ?_) fun _ _ _ => trivial
  rcases form? with _ | t
  · trivial
  · exact h

theorem reads_oneMore (s : Reader) :
    Ends oneMore s
      (fun form? s' => ∀ form, form? = some form → Reads s.config.maxDepth s form s')
      fun _ _ => True := by
  rw [oneMore, ends_bind, ends_get]
  split
  · intro form h
    cases h
  · rw [ends_bind]
    refine (reads_one s).imp (fun form s' h => ?_) fun _ _ _ => trivial
    rintro _ ⟨⟩
    exact h

/-- A form that comes next in an iteration was read, and the settings stay. -/
theorem reads_next {s s' : Reader} {form : Form} (h : s.next = (some (.ok form), s')) :
    Reads s.config.maxDepth s form s' ∧ s'.config = s.config := by
  rw [next] at h
  split at h
  · cases h
  · split at h
    · next t s₁ hone =>
      cases h
      exact ⟨(reads_one s).of_ok hone, (steady_one.follows_of_ok hone).config⟩
    · cases h

/-- **A form and nothing else**: only blanks are left behind it. -/
theorem reads_whole (s : Reader) :
    Ends whole s
      (fun t s' => Reads s.config.maxDepth s t s' ∧ allBlank s'.cursor.rest)
      fun _ _ => True := by
  rw [whole, ends_bind]
  refine (reads_one s).imp (fun t s' h => ?_) fun _ _ _ => trivial
  rw [ends_bind, finish, ends_bind, ends_get]
  cases hblank : s'.cursor.onlyBlanksLeft with
  | false => trivial
  | true => exact ⟨h, List.all_eq_true.mp hblank⟩

/-- **All forms** that are left are read as the items of one list, which is deeper by one
than they are. -/
theorem reads_all (s : Reader) :
    Ends all s (fun items s' => ReadsItems (s.config.maxDepth + 1) s items s')
      fun _ _ => True := by
  have hfind : ∀ s₁, Follows s s₁ → Ends oneMore s₁
      (fun form? s₂ => match form? with
        | some form => Reads s.config.maxDepth s₁ form s₂
        | none => s₂.cursor = s₁.cursor)
      fun _ _ => True := by
    intro s₁ hs₁
    rw [oneMore, ends_bind, ends_get]
    split
    · rfl
    · rw [ends_bind, ← hs₁.config]
      exact (reads_one s₁).imp (fun t s₂ h => h) fun _ _ _ => trivial
  have hnothing : ReadsItems (s.config.maxDepth + 1) s [] s := .nil (Nat.succ_pos _) rfl
  rw [all, ends_bind]
  exact (reads_gather steady_oneMore hfind (Follows.refl s) hnothing).imp
    (fun forms s' hforms => reads_link hforms) fun _ _ _ => trivial

end Reader

end FormReader
