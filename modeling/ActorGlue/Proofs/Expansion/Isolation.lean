import ActorGlue.Proofs.Expansion.Files

/-!
# Items are expanded in isolation

What becomes of an item of a file is what becomes of it in a program of its own. Only an actor
depends on the items before it: there is one in a file, and it is the first.
-/

namespace ActorGlue

open Parse

/-- What became of an item of a file. -/
inductive Outcome where
  | kept (text : String)
  | expanded (expansion : Expansion)
  | failed (diagnostic : Diagnostic)

namespace Outcome

/-- The text that takes the place of the item. -/
def chunk (text : List Char) : Outcome → String
  | .kept own => own
  | .expanded expansion => expansion.source
  | .failed diagnostic => diagnostic.render text

/-- What is reported about the item. -/
def diagnostics : Outcome → List Diagnostic
  | .kept _ => []
  | .expanded expansion => expansion.warnings
  | .failed diagnostic => [diagnostic]

/-- What the item declares. -/
def nodes : Outcome → Program
  | .expanded expansion => expansion.program
  | _ => {}

/-- What the items of a file declare: all their structures in order, and the first actor. -/
def program (outcomes : List Outcome) : Program :=
  ⟨outcomes.flatMap (·.nodes.states), outcomes.flatMap (·.nodes.payloads),
    outcomes.findSome? (·.nodes.actor)⟩

/-- The outcome of an item behind items that declare an actor or none. All but the last case are
about the item and a fresh program alone. -/
inductive Isolated (naming : Naming) (text : List Char) (held : Option Actor) (item : Item Span) :
    Outcome → Prop
  | kept (unmarked : item.marked? = none) :
      Isolated naming text held item (.kept (String.ofList (item.place.slice text)))
  | misread {a : Attribute Span} {target : Target} {diagnostic : Diagnostic}
      (marked : item.marked? = some (a, target))
      (fails : a.itemAnnotation text target = .error (.reported diagnostic)) :
      Isolated naming text held item (.failed diagnostic)
  | rejected {a : Attribute Span} {target : Target} {marks : Annotation} {diagnostic : Diagnostic}
      (marked : item.marked? = some (a, target)) (read : a.itemAnnotation text target = .ok marks)
      (fails : (expandAnnotated naming {} marks (cutText text item.place a.place)).result =
        .error (.reported diagnostic)) :
      Isolated naming text held item
        (.failed (diagnostic.relocate (toFile item.place.start a.place)))
  | expanded {a : Attribute Span} {target : Target} {marks : Annotation} {expansion : Expansion}
      (marked : item.marked? = some (a, target)) (read : a.itemAnnotation text target = .ok marks)
      (expands : (expandAnnotated naming {} marks (cutText text item.place a.place)).result =
        .ok expansion)
      (free : expansion.program.actor = none ∨ held = none) :
      Isolated naming text held item (.expanded expansion)
  | second {a : Attribute Span} {target : Target} {marks : Annotation} {expansion : Expansion}
      {again : Item Span} {first actor : Actor}
      (marked : item.marked? = some (a, target)) (read : a.itemAnnotation text target = .ok marks)
      (expands : (expandAnnotated naming {} marks (cutText text item.place a.place)).result =
        .ok expansion)
      (parsed : parseItem (cutText text item.place a.place) = .ok again)
      (declares : expansion.program.actor = some actor) (taken : held = some first) :
      Isolated naming text held item (.failed
        ((Diagnostic.error ("program already holds actor implementation '" ++ first.name ++ "'")
          again.place.toPlace).relocate (toFile item.place.start a.place)))

/-- Outcomes of items one after another. -/
inductive InOrder (naming : Naming) (text : List Char) :
    Option Actor → List (Item Span) → List Outcome → Prop
  | nil {held : Option Actor} : InOrder naming text held [] []
  | cons {held : Option Actor} {item : Item Span} {items : List (Item Span)} {outcome : Outcome}
      {outcomes : List Outcome} (first : outcome.Isolated naming text held item)
      (rest : InOrder naming text (held <|> outcome.nodes.actor) items outcomes) :
      InOrder naming text held (item :: items) (outcome :: outcomes)

end Outcome

/-- The declarations of a program and then those of another one; the first actor stays. -/
def Program.followedBy (first second : Program) : Program :=
  ⟨first.states ++ second.states, first.payloads ++ second.payloads, first.actor <|> second.actor⟩

namespace Program

theorem followedBy_empty (program : Program) : program.followedBy {} = program := by
  simp [followedBy]

theorem empty_followedBy (program : Program) : followedBy {} program = program := by
  simp [followedBy]

theorem followedBy_followedBy (first second third : Program) :
    (first.followedBy second).followedBy third = first.followedBy (second.followedBy third) := by
  cases found : first.actor <;> simp [followedBy, found]

/-- Everything can be declared in a fresh program, and the same behind any other one, except for an
actor behind an actor. -/
theorem exists_fresh (declaration : Declaration) :
    ∃ fresh, ({} : Program).add declaration = .ok fresh ∧
      ∀ program : Program,
        (fresh.actor = none ∨ program.actor = none →
          program.add declaration = .ok (program.followedBy fresh)) ∧
        ∀ first actor, program.actor = some first → fresh.actor = some actor →
          program.add declaration = .error (.secondActor first.name) := by
  cases declaration with
  | state state | payload payload =>
    exact ⟨_, rfl, fun program => ⟨by simp [add, followedBy], by simp⟩⟩
  | actor actor =>
    refine ⟨_, rfl, fun program => ⟨?_, ?_⟩⟩
    · rintro (⟨⟨⟩⟩ | none)
      simp [add, followedBy, none]
    · rintro first _ taken -
      simp [add, taken]

end Program

section Alone

variable {naming : Naming} {marks : Annotation} {text : List Char}

/-- An item that fails on its own fails in every program, and with the same failure. -/
theorem expandAnnotated_of_error {failure : Failure}
    (fails : (expandAnnotated naming {} marks text).result = .error failure) (program : Program) :
    (expandAnnotated naming program marks text).result = .error failure := by
  cases parsed : parseItem text with
  | error fault =>
    simp only [expandAnnotated, parsed] at fails ⊢
    exact fails
  | ok item =>
    rw [expandAnnotated_result naming _ marks parsed] at fails ⊢
    revert fails
    rcases item.declaration text marks marks.target with none | failure | declaration
    · exact id
    · exact id
    · obtain ⟨fresh, added, -⟩ := Program.exists_fresh declaration
      simp only [bind, Except.bind, Declaration.expand, added]
      rintro ⟨⟩

/-- An item that is expanded on its own is expanded in every program, except for an actor in a
program that has one. -/
theorem expandAnnotated_of_ok {expansion : Expansion}
    (expands : (expandAnnotated naming {} marks text).result = .ok expansion) :
    ∃ item, parseItem text = .ok item ∧ ∀ program : Program,
      (expansion.program.actor = none ∨ program.actor = none →
        (expandAnnotated naming program marks text).result =
          .ok { expansion with program := program.followedBy expansion.program }) ∧
      ∀ first actor, program.actor = some first → expansion.program.actor = some actor →
        (expandAnnotated naming program marks text).result =
          .error ((DeclarationFault.secondActor first.name).toFailure item.place) := by
  cases parsed : parseItem text with
  | error fault =>
    simp only [expandAnnotated, parsed] at expands
    cases expands
  | ok item =>
    refine ⟨item, rfl, fun program => ?_⟩
    rw [expandAnnotated_result naming _ marks parsed] at expands ⊢
    revert expands
    rcases item.declaration text marks marks.target with none | failure | declaration
    · rintro ⟨⟩
    · rintro ⟨⟩
    · obtain ⟨fresh, added, everywhere⟩ := Program.exists_fresh declaration
      obtain ⟨free, taken⟩ := everywhere program
      simp only [bind, Except.bind, Declaration.expand, added]
      rintro ⟨⟩
      refine ⟨fun h => ?_, fun first actor held declares => ?_⟩
      · rw [free h]
      · rw [taken first actor held declares]

end Alone

namespace Outcome

variable {naming : Naming} {text : List Char} {held : Option Actor}

/-- Every item that does not stop the expansion has an outcome. -/
theorem exists_isolated {item : Item Span}
    (goes : ∀ a target, item.marked? = some (a, target) → ∀ halt,
      expandInFile naming {} text item.place a target ≠ .error (.halted halt)) :
    ∃ outcome : Outcome, outcome.Isolated naming text held item := by
  cases marked : item.marked? with
  | none => exact ⟨_, .kept marked⟩
  | some mark =>
    obtain ⟨a, target⟩ := mark
    replace goes := goes a target marked
    rw [expandInFile_eq] at goes
    cases read : a.itemAnnotation text target with
    | error failure =>
      rw [read] at goes
      cases failure with
      | halted halt => exact absurd rfl (goes halt)
      | reported diagnostic => exact ⟨_, .misread marked read⟩
    | ok marks =>
      rw [read] at goes
      cases expands : (expandAnnotated naming {} marks
          (cutText text item.place a.place)).result with
      | error failure =>
        cases failure with
        | halted halt =>
          refine absurd ?_ (goes halt)
          simp only [bind, Except.bind, expands]
          rfl
        | reported diagnostic => exact ⟨_, .rejected marked read expands⟩
      | ok expansion =>
        obtain ⟨again, parsed, -⟩ := expandAnnotated_of_ok expands
        cases declares : expansion.program.actor with
        | none => exact ⟨_, .expanded marked read expands (.inl declares)⟩
        | some actor =>
          cases held with
          | none => exact ⟨_, .expanded marked read expands (.inr rfl)⟩
          | some first => exact ⟨_, .second marked read expands parsed declares rfl⟩

/-- One item is expanded to its outcome, and the others after what it declares. -/
theorem Isolated.expandItems {program : Program} {item : Item Span} {outcome : Outcome}
    (isolated : outcome.Isolated naming text program.actor item) (rest : List (Item Span)) :
    ActorGlue.expandItems naming text program (item :: rest) = do
      let (chunks, diagnostics, program) ←
        ActorGlue.expandItems naming text (program.followedBy outcome.nodes) rest
      return (outcome.chunk text :: chunks, outcome.diagnostics ++ diagnostics, program) := by
  cases isolated with
  | kept unmarked =>
    simp only [ActorGlue.expandItems, unmarked, nodes, Program.followedBy_empty]
    rfl
  | @misread a target diagnostic marked fails =>
    have failed : expandInFile naming program text item.place a target =
        .error (.reported diagnostic) := by
      rw [expandInFile_eq, fails]
      rfl
    simp only [ActorGlue.expandItems, marked, failed, nodes, Program.followedBy_empty]
    rfl
  | @rejected a target marks diagnostic marked read fails =>
    have failed : expandInFile naming program text item.place a target =
        .error (.reported (diagnostic.relocate (toFile item.place.start a.place))) := by
      rw [expandInFile_eq, read]
      simp only [bind, Except.bind, expandAnnotated_of_error fails]
      rfl
    simp only [ActorGlue.expandItems, marked, failed, nodes, Program.followedBy_empty]
    rfl
  | @expanded a target marks expansion marked read expands free =>
    obtain ⟨again, -, everywhere⟩ := expandAnnotated_of_ok expands
    have expanded : expandInFile naming program text item.place a target =
        .ok { expansion with program := program.followedBy expansion.program } := by
      rw [expandInFile_eq, read]
      simp only [bind, Except.bind, (everywhere program).1 free]
      rfl
    simp only [ActorGlue.expandItems, marked, expanded, nodes]
    rfl
  | @second a target marks expansion again first actor marked read expands parsed declares taken =>
    obtain ⟨item', parsed', everywhere⟩ := expandAnnotated_of_ok expands
    obtain rfl := Except.ok.inj (parsed.symm.trans parsed')
    have failed : expandInFile naming program text item.place a target =
        .error (.reported ((Diagnostic.error
          ("program already holds actor implementation '" ++ first.name ++ "'")
          again.place.toPlace).relocate (toFile item.place.start a.place))) := by
      rw [expandInFile_eq, read]
      simp only [bind, Except.bind, (everywhere program).2 first actor taken declares]
      rfl
    simp only [ActorGlue.expandItems, marked, failed, nodes, Program.followedBy_empty]
    rfl

theorem program_cons (outcome : Outcome) (outcomes : List Outcome) :
    program (outcome :: outcomes) = outcome.nodes.followedBy (program outcomes) := by
  cases found : outcome.nodes.actor <;> simp [program, Program.followedBy, found]

namespace InOrder

variable {items : List (Item Span)} {outcomes : List Outcome}

theorem length_eq (inOrder : InOrder naming text held items outcomes) :
    outcomes.length = items.length := by
  induction inOrder with
  | nil => rfl
  | cons first rest ih => rw [List.length_cons, List.length_cons, ih]

theorem take (inOrder : InOrder naming text held items outcomes) (n : Nat) :
    InOrder naming text held (items.take n) (outcomes.take n) := by
  induction inOrder generalizing n with
  | nil => simpa using .nil
  | cons first rest ih =>
    cases n with
    | zero => exact .nil
    | succ n => exact .cons first (ih n)

/-- Each of the outcomes is that of its item behind the actor declared before it. -/
theorem isolated (inOrder : InOrder naming text held items outcomes) {i : Nat} {item : Item Span}
    {outcome : Outcome} (stands : items[i]? = some item) (becomes : outcomes[i]? = some outcome) :
    outcome.Isolated naming text (held <|> (program (outcomes.take i)).actor) item := by
  induction inOrder generalizing i with
  | nil => simp at stands
  | @cons held first items other outcomes here rest ih =>
    cases i with
    | zero =>
      obtain rfl : first = item := by simpa using stands
      obtain rfl : other = outcome := by simpa using becomes
      simpa [program] using here
    | succ i =>
      have later := ih (by simpa using stands) (by simpa using becomes)
      rw [List.take_succ_cons, program_cons]
      cases held <;> simpa [Program.followedBy] using later

/-- The items of a file are expanded to their outcomes. -/
theorem expandItems {program : Program} (inOrder : InOrder naming text program.actor items outcomes) :
    ActorGlue.expandItems naming text program items =
      .ok (outcomes.map (·.chunk text), outcomes.flatMap (·.diagnostics),
        program.followedBy (Outcome.program outcomes)) := by
  generalize held : program.actor = actor at inOrder
  induction inOrder generalizing program with
  | nil =>
    rw [ActorGlue.expandItems]
    simp [Outcome.program, Program.followedBy]
  | @cons _ item items outcome outcomes first rest ih =>
    subst held
    rw [first.expandItems, ih rfl, program_cons, Program.followedBy_followedBy]
    rfl

end InOrder

theorem exists_inOrder (held : Option Actor) {items : List (Item Span)}
    (goes : ∀ item ∈ items, ∀ a target, item.marked? = some (a, target) → ∀ halt,
      expandInFile naming {} text item.place a target ≠ .error (.halted halt)) :
    ∃ outcomes, InOrder naming text held items outcomes := by
  induction items generalizing held with
  | nil => exact ⟨[], .nil⟩
  | cons item items ih =>
    obtain ⟨outcome, first⟩ : ∃ outcome : Outcome, outcome.Isolated naming text held item :=
      exists_isolated (goes item (by simp))
    obtain ⟨outcomes, rest⟩ := ih (held <|> outcome.nodes.actor)
      fun item member => goes item (by simp [member])
    exact ⟨outcome :: outcomes, .cons first rest⟩

end Outcome

/-- No annotated item of a parsed file stops the expansion. -/
theorem Row.expandInFile_goes {source : Source} (read : Source.read source.text = .ok source)
    {outer ahead : List Lexeme} {values : List (Item Extent)}
    (whole : source.lexemes = outer ++ ahead) (row : Row ahead values) (naming : Naming) :
    ∀ item ∈ values.map (·.map source.span), ∀ a target, item.marked? = some (a, target) →
      ∀ halt, expandInFile naming {} source.text item.place a target ≠ .error (.halted halt) := by
  intro item member a target marked halt stops
  obtain ⟨value, among, rfl⟩ := List.mem_map.mp member
  obtain ⟨outer, ahead, left, whole, taken, ⟨frame⟩⟩ := row.exists_of_mem whole among
  obtain ⟨kept, cut, later, split, rfl⟩ := frame.exists_of_marked marked
  have agree := Twins.expandInFile (t := .refl read) naming {} whole taken split target
  simp only [Twins.refl] at agree
  rw [Item.place_map] at stops
  rw [stops] at agree
  cases agree with
  | error fails => exact fails

/-- The expansion of a file, by the outcomes of its items. -/
structure FileExpansion.Collects (expansion : FileExpansion) (naming : Naming) (text : List Char)
    (items : List (Item Span)) (outcomes : List Outcome) : Prop where
  length : outcomes.length = items.length
  /-- Each outcome is that of the item on its own, except for an actor behind an actor. -/
  isolated : ∀ (i : Nat) (item : Item Span) (outcome : Outcome), items[i]? = some item →
    outcomes[i]? = some outcome →
    outcome.Isolated naming text (Outcome.program (outcomes.take i)).actor item
  /-- After any number of items the program has what the expanded ones declare. -/
  upTo : ∀ n, (expandItems naming text {} (items.take n)).map (·.2.2) =
    .ok (Outcome.program (outcomes.take n))
  program : expansion.program = Outcome.program outcomes
  source : expansion.source = "\n\n".intercalate (outcomes.map (·.chunk text)) ++ "\n"
  diagnostics : expansion.diagnostics = outcomes.flatMap (·.diagnostics)

/-- Every parsed file is expanded item by item: each of them as on its own, except that only the
first actor is expanded. -/
theorem items_expanded_in_isolation (naming : Naming) {text : List Char}
    {items : List (Item Span)} (accepted : parseFile text = .ok items) :
    ∃ expansion outcomes, expandFile naming text = .ok expansion ∧
      expansion.Collects naming text items outcomes := by
  obtain ⟨source, prelude, ahead, values, read, rfl, whole, -, row, rfl⟩ :=
    parseFile_eq_ok accepted
  obtain ⟨outcomes, inOrder⟩ := Outcome.exists_inOrder ({} : Program).actor
    (row.expandInFile_goes read whole naming)
  refine ⟨⟨"\n\n".intercalate (outcomes.map (·.chunk source.text)) ++ "\n",
    Outcome.program outcomes, outcomes.flatMap (·.diagnostics)⟩, outcomes, ?expands,
    inOrder.length_eq, ?each, ?upTo, rfl, rfl, rfl⟩
  case expands =>
    simp only [expandFile, accepted, inOrder.expandItems, Program.empty_followedBy]
    rfl
  case each =>
    intro i item outcome stands becomes
    exact inOrder.isolated stands becomes
  case upTo =>
    intro n
    rw [(inOrder.take n).expandItems, Program.empty_followedBy]
    rfl

/-- The actor behind an actor fails, and it alone. -/
theorem items_expanded_in_isolation_two_actors :
    let text := "#[fvm_actor] impl A \x7b\x7d struct T; #[fvm_actor] impl B \x7b\x7d".toList
    ∃ items expansion outcomes, parseFile text = .ok items ∧ items.length = 3 ∧
      expandFile {} text = .ok expansion ∧ expansion.Collects {} text items outcomes ∧
      expansion.program.actor.map (·.name) = some "A" ∧
      (outcomes.flatMap (·.diagnostics)).flatMap (·.leaves.map (·.message)) =
        ["program already holds actor implementation 'A'"] := by
  intro text
  have parsed : (parseFile text).toOption.any (·.length = 3) = true := by
    decide +kernel
  have reported : (expandFile {} text).toOption.any (fun expansion =>
      expansion.program.actor.map (·.name) = some "A" &&
        expansion.diagnostics.flatMap (·.leaves.map (·.message)) =
          ["program already holds actor implementation 'A'"]) = true := by
    decide +kernel
  obtain ⟨items, accepted, count⟩ := exists_ok_of_any parsed
  obtain ⟨found, made, holds⟩ := exists_ok_of_any reported
  obtain ⟨expansion, outcomes, expanded, collects⟩ := items_expanded_in_isolation {} accepted
  cases expanded.symm.trans made
  rw [Bool.and_eq_true, decide_eq_true_eq, decide_eq_true_eq, collects.diagnostics] at holds
  exact ⟨items, found, outcomes, accepted, by simpa using count, expanded, collects, holds⟩

/-- The inner attributes before the first item of a file belong to no item, so no token of them is
left. -/
theorem inner_attributes_dropped :
    (parseFile "#![no_std]\npub struct A;\n".toList).toOption.any
        (·.all (·.marked?.isNone)) ∧
      (expandFile {} "#![no_std]\npub struct A;\n".toList).toOption.map (·.source) =
        some "pub struct A;\n" ∧
      (tokenize "pub struct A;\n".toList).toOption.map (·.map (·.toLexeme)) ≠
        (tokenize "#![no_std]\npub struct A;\n".toList).toOption.map (·.map (·.toLexeme)) := by
  decide +kernel

end ActorGlue
