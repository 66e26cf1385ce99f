import FormReader.Plan

/-!
# Plans carry out the rules

A plan says what a rule does, and it would say nothing if the rule did something else. Here every
plan of the grammar is shown to be carried out as the rule of the same name, up to forms
(`FormReader.Plan.run_form`) and sources (`FormReader.Plan.run_all`).

A plan and its rule are put together alike, so nothing has to be known of what is read. Where a
rule makes a choice the two are compared for each of the alternatives.
-/

namespace FormReader

namespace Plan

variable {α β : Type}

/-! ### Plans that are put together alike -/

/-- **In sequence**: what comes first is carried out, and then what follows from it. -/
theorem run_bind {first : Plan α} {rule : ReadM α} {next : α → Plan β} {nextRule : α → ReadM β}
    (h : first.run = rule) (hnext : ∀ a, (next a).run = nextRule a) :
    (first >>= next).run = rule >>= nextRule := by
  subst h
  exact congrArg (first.run >>= ·) (funext hnext)

/-- **By trying**: a rule that does not match is given up alike. -/
theorem run_attempt {plan : Plan α} {rule : ReadM α} (h : plan.run = rule) :
    (attempt plan).run = Reader.attempt rule :=
  congrArg Reader.attempt h

/-- **By choice**: what follows depends on whether the first alternative matches. -/
theorem run_choice {first : Plan α} {rule : ReadM α} {pick : Option α → Plan β}
    {pickRule : Option α → ReadM β} (h : first.run = rule)
    (hsome : ∀ a, (pick (some a)).run = pickRule (some a))
    (hnone : (pick none).run = pickRule none) :
    (attempt first >>= pick).run = Reader.attempt rule >>= pickRule := by
  refine run_bind (run_attempt h) fun a? => ?_
  cases a? with
  | none => exact hnone
  | some a => exact hsome a

/-- What is done in one case may also be what is done at the end of the other. -/
theorem run_ite {c : Prop} [Decidable c] {plan plan' : Plan α} {rule rule' : ReadM α}
    (h : plan.run = rule) (h' : plan.run = rule → plan'.run = rule') :
    (if c then plan else plan').run = if c then rule else rule' := by
  rw [apply_ite run, h, h' h]

/-- **By repetition**: items are found alike, and kept. -/
theorem run_gather {next : Plan (Option β)} {rule : ReadM (Option β)} {keep : α → β → Plan α}
    (h : next.run = rule) (acc : α) :
    (gather next keep acc).run = Reader.gather rule (fun acc item => (keep acc item).run) acc := by
  rw [run, h]

/-! ### Atoms -/

theorem run_blanks : blanks.run = Reader.blanks := rfl

theorem run_text (bytes : List Byte) : (text bytes).run = Reader.text bytes := rfl

theorem run_number : number.run = Reader.number := rfl

theorem run_boolean : boolean.run = Reader.boolean := by
  refine run_bind rfl fun _ => run_bind rfl fun _ => run_bind rfl fun value => ?_
  exact run_ite (run_bind rfl fun s => run_ite rfl fun _ => rfl) fun hend =>
    run_bind rfl fun _ => hend

theorem run_string : string.run = Reader.string :=
  run_bind run_blanks fun _ => run_bind rfl fun _ => run_bind rfl fun _ => run_ite rfl fun _ => rfl

theorem run_symbol : symbol.run = Reader.symbol := by
  refine run_bind run_blanks fun _ => run_bind rfl fun s => ?_
  have hname : Plan.run (do
        let name ← deed .token
        if name.isEmpty then deed (.fail .noMatch)
        text name) =
      (do
        let name ← Reader.token
        if name.isEmpty then throw .noMatch
        Reader.text name) :=
    run_bind rfl fun name =>
      run_ite (run_bind rfl fun _ => run_text name) fun _ => run_text name
  exact run_ite (run_bind rfl fun _ => hname) fun _ => hname

theorem run_atom : atom.run = Reader.atom := by
  refine run_choice run_number (fun _ => rfl) ?_
  refine run_choice run_boolean (fun _ => rfl) ?_
  refine run_choice run_string (fun _ => rfl) ?_
  exact run_choice run_symbol (fun _ => rfl) rfl

/-! ### Forms -/

theorem run_openBracket : openBracket.run = Reader.openBracket := by
  refine run_bind rfl fun s => run_bind rfl fun bracket => ?_
  cases bracket with
  | round => rfl
  | square => rfl

theorem run_closeBracket (bracket : Bracket) :
    (closeBracket bracket).run = Reader.closeBracket bracket := by
  have hclosing : (deed (.scanned (.closing bracket))).run =
      Reader.scanned (·.literal? [bracket.closing]) := by
    cases bracket with
    | round => rfl
    | square => rfl
  refine run_bind rfl fun more => ?_
  refine run_ite (run_bind hclosing fun closed => ?_) fun hclose => ?_
  · refine run_ite rfl fun _ => run_bind rfl fun s => ?_
    dsimp only
    cases s.cursor.peek?.bind Bracket.ofClosing? with
    | none => rfl
    | some other => rfl
  · exact run_bind rfl fun _ => run_bind rfl fun _ => hclose

theorem run_bracketed {nested : Plan (List Form)} {rule : ReadM (List Form)}
    (h : nested.run = rule) : (bracketed nested).run = Reader.bracketed rule :=
  run_bind run_blanks fun _ => run_bind run_openBracket fun bracket => run_bind h fun _ =>
    run_bind (run_closeBracket bracket) fun _ => rfl

theorem run_linkedItems {form : Plan Form} {rule : ReadM Form} (h : form.run = rule) :
    (linkedItems form).run = Reader.linkedItems rule :=
  run_bind h fun _ => run_bind rfl fun forms =>
    run_bind (run_gather (run_attempt h) forms) fun _ => rfl

theorem run_items {form : Plan Form} {rule : ReadM Form} (h : form.run = rule) :
    (items form).run = Reader.items rule :=
  run_bind (run_linkedItems h) fun _ => rfl

theorem run_optionalItems {form : Plan Form} {rule : ReadM Form} (h : form.run = rule) :
    (optionalItems form).run = Reader.optionalItems rule :=
  run_bind (run_attempt (run_items h)) fun _ => rfl

theorem run_refuseNesting : refuseNesting.run = Reader.refuseNesting := rfl

theorem run_element {nested : Plan (List Form)} {rule : ReadM (List Form)}
    (h : nested.run = rule) : (element nested).run = Reader.element rule :=
  run_choice run_atom (fun _ => rfl) (run_bracketed h)

/-- **A form** is read as planned. -/
theorem run_form (room : Nat) : (form room).run = Reader.form room := by
  induction room with
  | zero => exact run_element run_refuseNesting
  | succ room ih => exact run_element (run_optionalItems ih)

/-! ### Sources -/

theorem run_one : one.run = Reader.one :=
  run_bind rfl fun s => run_bind (run_attempt (run_form s.config.maxDepth)) fun _ => rfl

theorem run_finish : finish.run = Reader.finish :=
  run_bind rfl fun _ => run_ite rfl fun _ => rfl

theorem run_whole : whole.run = Reader.whole :=
  run_bind run_one fun _ => run_bind run_finish fun _ => rfl

theorem run_oneMore : oneMore.run = Reader.oneMore :=
  run_bind rfl fun _ => run_ite rfl fun _ => run_bind run_one fun _ => rfl

/-- **All forms** are read as planned. -/
theorem run_all : all.run = Reader.all :=
  run_bind (run_gather run_oneMore _) fun _ => rfl

end Plan

end FormReader
