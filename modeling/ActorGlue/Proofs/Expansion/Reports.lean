import ActorGlue.Proofs.Expansion.Directives
import ActorGlue.Proofs.Parse.Ending

/-!
# Every failure is reported

An expansion that fails gives a diagnostic with an error in it, unless reading stopped for good. It
stops at a digit of another script, or in a block of members where an exclamation mark follows a
closing parenthesis or bracket. Without these the text of an item is expanded, or it is replaced by
at least one directive.
-/

namespace ActorGlue

open Parse
variable {text : List Char}

/-- Whatever the result fails with has the property. -/
def FailsWith {ε α : Type} (Holds : ε → Prop) (result : Except ε α) : Prop :=
  ∀ failure, result = .error failure → Holds failure

namespace FailsWith

variable {ε δ α β : Type} {Holds : ε → Prop} {result : Except ε α} {next : α → Except ε β}

theorem ok (value : α) : FailsWith Holds (.ok value : Except ε α) := by
  rintro failure ⟨⟩

theorem error {failure : ε} (holds : Holds failure) :
    FailsWith Holds (.error failure : Except ε α) := by
  rintro failure ⟨⟩
  exact holds

theorem bind (first : FailsWith Holds result) (rest : ∀ value, FailsWith Holds (next value)) :
    FailsWith Holds (result >>= next) := by
  cases result with
  | error failure => exact .error (first failure rfl)
  | ok value => exact rest value

theorem ok_bind {value : α} (rest : FailsWith Holds (next value)) :
    FailsWith Holds (Except.ok value >>= next) :=
  rest

theorem map {f : α → β} (first : FailsWith Holds result) : FailsWith Holds (result.map f) := by
  cases result with
  | error failure => exact .error (first failure rfl)
  | ok value => exact .ok _

theorem mapError {Other : δ → Prop} {f : ε → δ} (first : FailsWith Holds result)
    (rest : ∀ failure, Holds failure → Other (f failure)) :
    FailsWith Other (result.mapError f) := by
  cases result with
  | error failure => exact .error (rest failure (first failure rfl))
  | ok value => exact .ok _

end FailsWith

/-- The failure is a diagnostic with an error in it. -/
def Failure.Reports : Failure → Prop
  | .reported diagnostic => diagnostic.errors ≠ []
  | .halted _ => False

/-- A diagnostic with an error in it. -/
abbrev Diagnostic.Errs (diagnostic : Diagnostic) : Prop :=
  diagnostic.errors ≠ []

/-- The diagnostic is one fault, with or without a place. -/
def Diagnostic.IsFault (diagnostic : Diagnostic) : Prop :=
  ∃ fault place, diagnostic = .ofFault fault place

/-- The failure is reported as one fault. -/
def Failure.IsFault : Failure → Prop
  | .reported diagnostic => diagnostic.IsFault
  | .halted _ => False

section Diagnostics

theorem Diagnostic.errs_ofFault (fault : Fault) (place : Option Place) :
    (Diagnostic.ofFault fault place).Errs := by
  simp [Diagnostic.Errs, Diagnostic.ofFault, Diagnostic.errors, Diagnostic.leaves]

theorem Diagnostic.IsFault.errs {diagnostic : Diagnostic} (isFault : diagnostic.IsFault) :
    diagnostic.Errs := by
  obtain ⟨fault, place, rfl⟩ := isFault
  exact Diagnostic.errs_ofFault fault place

theorem FailsWith.reported {α : Type} {result : Except Diagnostic α}
    (first : FailsWith Diagnostic.IsFault result) :
    FailsWith Failure.Reports (result.mapError .reported) :=
  first.mapError fun _ isFault => isFault.errs

theorem Diagnostic.errs_error (message : String) (place : Option Place) :
    (Diagnostic.error message place).Errs := by
  simp [Diagnostic.Errs, Diagnostic.error, Diagnostic.errors, Diagnostic.leaves]

/-- A diagnostic of several ones has the errors of the first. -/
theorem Diagnostic.errs_ofList {diagnostics : List Diagnostic} {diagnostic : Diagnostic}
    (all : ∀ found ∈ diagnostics, found.Errs) (one : Diagnostic.ofList diagnostics = some diagnostic) :
    diagnostic.Errs := by
  match diagnostics, one with
  | [only], one =>
    obtain rfl : only = diagnostic := Option.some.inj one
    exact all only (by simp)
  | first :: next :: rest, one =>
    obtain rfl : Diagnostic.several first (next :: rest) = diagnostic := Option.some.inj one
    have own : first.Errs := all first (by simp)
    intro none
    rw [Diagnostic.errors, Diagnostic.leaves, List.filter_append, List.append_eq_nil_iff] at none
    exact own none.1

end Diagnostics

section Declarations

/-! ## Declarations report their failures -/

theorem Generics.refuse_reports (generics : Generics Span) (fault : Fault) :
    FailsWith Diagnostic.IsFault (generics.refuse fault) := by
  unfold Generics.refuse
  split
  · exact .ok ()
  · exact .error ⟨_, _, rfl⟩

theorem ImplItem.typeName_reports (item : ImplItem Span) :
    FailsWith Diagnostic.IsFault item.typeName := by
  unfold ImplItem.typeName
  split
  · exact .ok _
  · exact .error ⟨_, _, rfl⟩

theorem MethodInput.argument_reports (input : MethodInput Span) :
    FailsWith Diagnostic.IsFault input.argument := by
  unfold MethodInput.argument
  split
  · exact .error ⟨_, _, rfl⟩
  · split
    · exact .error ⟨_, _, rfl⟩
    · split
      · exact .ok _
      · exact .error ⟨_, _, rfl⟩

theorem arguments_report (inputs : List (MethodInput Span)) :
    FailsWith Diagnostic.IsFault (inputs.mapM (·.argument)) := by
  induction inputs with
  | nil => exact .ok []
  | cons input inputs ih =>
    rw [List.mapM_cons]
    exact (input.argument_reports).bind fun value => ih.bind fun values => .ok _

theorem Method.entryPoint_reports (method : Method Span) (dispatch : Dispatch)
    (marks : Annotation) : FailsWith Diagnostic.IsFault (method.entryPoint dispatch marks) := by
  unfold Method.entryPoint
  refine (method.generics.refuse_reports _).bind fun _ => ?_
  dsimp only
  split
  · match marks.binding? with
    | none => exact .error ⟨_, _, rfl⟩
    | some (.number number) => exact (arguments_report _).bind fun arguments => .ok _
    | some (.word text) =>
      exact (arguments_report _).bind fun arguments => .error ⟨_, _, rfl⟩
  · exact .error ⟨_, _, rfl⟩

/-- The annotation of a text with tokens is read, or its failure is reported. -/
theorem Annotation.read_reports {tokens : List Token} (tokenized : tokenize text = .ok tokens)
    (target : Target) (offset : Int) :
    FailsWith Failure.IsFault <| Annotation.read text target offset := by
  unfold Annotation.read
  rw [tokenized]
  dsimp only
  split
  · exact .error ⟨_, _, rfl⟩
  · exact .ok _

/-- The arguments of the attribute have tokens. -/
def Attribute.Tokenized (text : List Char) (a : Attribute Span) : Prop :=
  ∀ group, a.input = .list group → ∃ tokens, tokenize (group.inside.slice text) = .ok tokens

theorem Attribute.exportAnnotation_reports {a : Attribute Span} (tokenized : a.Tokenized text) :
    FailsWith Failure.IsFault (a.exportAnnotation text) := by
  unfold Attribute.exportAnnotation
  split
  · rename_i group list
    obtain ⟨tokens, found⟩ := tokenized group list
    exact Annotation.read_reports found _ _
  · exact .error ⟨_, _, rfl⟩

/-- The exported methods are all read, and their failures are reported. -/
theorem Member.exports_report (dispatch : Dispatch) {members : List (Member Span)}
    (tokenized : ∀ member ∈ members, ∀ a ∈ member.attributes, a.Tokenized text) :
    ∃ entries failures, Member.exports text dispatch members = .ok (entries, failures) ∧
      ∀ failure ∈ failures, failure.IsFault := by
  induction members with
  | nil => exact ⟨[], [], rfl, by simp⟩
  | cons member members ih =>
    obtain ⟨own, others⟩ := List.forall_mem_cons.mp tokenized
    obtain ⟨entries, failures, found, faults⟩ := ih others
    cases member with
    | other item => exact ⟨entries, failures, found, faults⟩
    | method method =>
      rw [Member.exports_method, found]
      cases exported : method.exportAttribute? with
      | none => exact ⟨entries, failures, rfl, faults⟩
      | some a =>
        have reports := Attribute.exportAnnotation_reports (own a (List.mem_of_find?_eq_some exported))
        dsimp only
        unfold Method.exported
        match read : a.exportAnnotation text with
        | .error (.halted halt) => exact (reports _ read).elim
        | .error (.reported diagnostic) =>
          exact ⟨entries, diagnostic :: failures, rfl,
            List.forall_mem_cons.mpr ⟨reports _ read, faults⟩⟩
        | .ok marks =>
          have entry := method.entryPoint_reports dispatch marks
          match declared : method.entryPoint dispatch marks with
          | .ok point => exact ⟨point :: entries, failures, by simp [declared]; rfl, faults⟩
          | .error diagnostic =>
            exact ⟨entries, diagnostic :: failures, by simp [declared]; rfl,
              List.forall_mem_cons.mpr ⟨entry _ declared, faults⟩⟩

theorem ImplItem.actor_reports {item : ImplItem Span} (marks : Annotation)
    (tokenized : ∀ member ∈ item.members, ∀ a ∈ member.attributes, a.Tokenized text) :
    FailsWith Failure.Reports (item.actor text marks) := by
  obtain ⟨entries, failures, exports, faults⟩ := Member.exports_report marks.dispatch tokenized
  unfold ImplItem.actor
  refine (item.generics.refuse_reports _).reported.bind fun _ => ?_
  refine item.typeName_reports.reported.bind fun name => ?_
  rw [exports]
  refine .ok_bind ?_
  dsimp only
  cases one : Diagnostic.ofList failures with
  | none => exact .ok _
  | some diagnostic =>
    exact .error (Diagnostic.errs_ofList (fun found member => (faults found member).errs) one)

theorem Item.declaration_reports {item : Item Span} (marks : Annotation)
    (tokenized : ∀ member ∈ item.members, ∀ a ∈ member.attributes, a.Tokenized text)
    {target : Target} {declared : Except Failure Declaration}
    (h : item.declaration text marks target = some declared) :
    FailsWith Failure.Reports declared := by
  have misfit : ∀ (fault : Fault) (span : Span),
      FailsWith Failure.Reports (.error (.reported (.atSpan fault span)) :
        Except Failure Declaration) := fun _ _ => .error (Diagnostic.errs_ofFault _ _)
  cases target with
  | method => cases h
  | state =>
    obtain rfl := Option.some.inj h
    cases item with
    | struct found =>
      have state : FailsWith Diagnostic.IsFault (found.state marks) :=
        (found.generics.refuse_reports _).bind fun _ => .ok _
      exact state.map.reported
    | impl found => exact misfit _ _
    | other found => exact misfit _ _
  | payload =>
    obtain rfl := Option.some.inj h
    cases item with
    | struct found =>
      have payload : FailsWith Diagnostic.IsFault (found.payload marks) :=
        (found.generics.refuse_reports _).bind fun _ => .ok _
      exact payload.map.reported
    | impl found => exact misfit _ _
    | other found => exact misfit _ _
  | actor =>
    obtain rfl := Option.some.inj h
    cases item with
    | struct found => exact misfit _ _
    | impl found => exact (ImplItem.actor_reports marks tokenized).map
    | other found => exact misfit _ _

theorem Declaration.expand_reports (naming : Naming) (program : Program) (text : List Char)
    (item : Span) (declaration : Declaration) :
    FailsWith Failure.Reports (declaration.expand naming program text item) := by
  unfold Declaration.expand
  cases declaration with
  | state state => exact .ok _
  | payload payload => exact .ok _
  | actor actor =>
    unfold Program.add
    cases program.actor with
    | none => exact .ok _
    | some first => exact .error (Diagnostic.errs_error _ _)

end Declarations

section Reading

/-! ## Where reading stops for good -/

/-- The text has no digits but those of numerals. -/
def Text.Native (text : List Char) : Prop :=
  ∀ c ∈ text, Text.isDigitLike c → c.isDigit

namespace Scan

theorem foreign_of_cut {c : Char} {rest : List Char} (h : cut c rest = .error .foreignDigit) :
    Text.isDigitLike c ∧ c.isDigit = false := by
  obtain ⟨more, -, same⟩ | failed | ⟨-, -, found⟩ := cut_cases h
  · cases same
  · cases failed
  · cases found ▸ tokenCut_cutToken c rest with
    | plain _ _ plain =>
      unfold cutPlain at plain
      dsimp only at plain
      split_ifs at plain with digit foreign
      · exact ⟨foreign, by simpa using digit⟩
      · cases plain

/-- The scanner stops for good only at a digit of another script. -/
theorem foreign_of_piecesFrom {skip : Nat} {stopped : Stopped}
    (h : piecesFrom skip text = .error stopped) (stop : stopped.stop = .foreignDigit) :
    ∃ c ∈ text, Text.isDigitLike c ∧ c.isDigit = false := by
  fun_induction piecesFrom skip text generalizing stopped with
  | case1 => cases h
  | case2 skip c rest ih =>
    obtain ⟨d, member, foreign⟩ := ih h stop
    exact ⟨d, List.mem_cons_of_mem _ member, foreign⟩
  | case3 c rest found isCut =>
    cases h
    obtain rfl : found = .foreignDigit := stop
    exact ⟨c, List.mem_cons_self, foreign_of_cut isCut⟩
  | case4 c rest kind more isCut found failed ih =>
    cases h
    obtain ⟨d, member, foreign⟩ := ih failed stop
    exact ⟨d, List.mem_cons_of_mem _ member, foreign⟩
  | case5 => cases h

end Scan

theorem Text.Native.tokenize_ne (native : Text.Native text) (halt : Halt) :
    tokenize text ≠ .error (.halted halt) := by
  intro h
  unfold tokenize at h
  split at h
  · cases h
  · rename_i stopped found
    have stop : stopped.stop = .foreignDigit := by
      unfold Scan.Stopped.failure at h
      split at h <;> first | assumption | cases h
    obtain ⟨c, member, like, other⟩ := Scan.foreign_of_piecesFrom found stop
    rw [native c member like] at other
    cases other

/-- The tokens of the text are calm. -/
def Text.Calm (text : List Char) : Prop :=
  ∀ tokens, tokenize text = .ok tokens → Parse.Calm (tokens.map (·.toLexeme))

/-- A complaint about calm lexemes is reported at its place. -/
theorem Source.failure_reports (source : Source) {complaint : Complaint}
    (other : complaint ≠ .endless) : (source.failure complaint).toFailure.Reports := by
  unfold Source.failure
  split
  · exact Diagnostic.errs_ofFault _ _
  · exact Diagnostic.errs_ofFault _ _
  · exact Diagnostic.errs_ofFault _ _
  · exact Diagnostic.errs_ofFault _ _
  · exact Diagnostic.errs_ofFault _ _
  · exact absurd rfl other

theorem parseItem_reports (native : Text.Native text) (calm : Text.Calm text) :
    FailsWith (fun failure : ParseFailure => failure.toFailure.Reports) (parseItem text) := by
  have read : FailsWith (fun failure : ParseFailure => failure.toFailure.Reports)
      (tokenize text) := by
    rintro (error | halt) failed
    · exact Diagnostic.errs_ofFault _ _
    · exact absurd failed (native.tokenize_ne halt)
  unfold parseItem Source.read
  cases tokenized : tokenize text with
  | error failure => exact .error (read failure tokenized)
  | ok tokens =>
    let source : Source := ⟨text, tokens.toArray⟩
    have quiet : Parse.Calm source.lexemes := by
      simpa [source, Source.lexemes] using calm tokens tokenized
    have run : FailsWith (fun failure : ParseFailure => failure.toFailure.Reports)
        (source.run Parse.item) := by
      unfold Source.run
      cases found : Parse.item source.lexemes with
      | ok result => exact .ok result
      | error complaint =>
        refine .error (source.failure_reports ?_)
        rintro rfl
        exact Ends.ends quiet found
    refine run.bind fun result => ?_
    obtain ⟨item, rest⟩ := result
    cases rest with
    | nil => exact .ok _
    | cons lexeme rest => exact .error (Diagnostic.errs_ofFault _ _)

/-- The arguments of all attributes of members have tokens. -/
theorem parseItem_tokenized {item : Item Span} (h : parseItem text = .ok item) :
    ∀ member ∈ item.members, ∀ a ∈ member.attributes, a.Tokenized text := by
  obtain ⟨source, value, read, rfl, parsed, rfl⟩ := parseItem_eq_ok h
  have marked := item_marked.holds parsed
  intro _ found _ among group list
  rw [Item.members_map] at found
  obtain ⟨member, own, rfl⟩ := List.mem_map.mp found
  rw [Member.attributes_map] at among
  obtain ⟨a, marks, rfl⟩ := List.mem_map.mp among
  obtain ⟨extent, input, rfl⟩ : ∃ extent, a.input = .list extent ∧ source.span extent = group := by
    rw [Attribute.map] at list
    cases input : a.input with
    | word => rw [input] at list; cases list
    | value content => rw [input] at list; cases list
    | list extent =>
      rw [input] at list
      exact ⟨extent, rfl, AttributeInput.list.inj list⟩
  obtain ⟨_, tokenized⟩ := (marked.members member own a marks extent input).tokenized
  obtain ⟨tokens, found, -⟩ := tokenized source read rfl
  exact ⟨tokens, found⟩

end Reading

section Expansions

variable {text : List Char}

theorem expandAnnotated_reports (naming : Naming) (program : Program) (marks : Annotation)
    (native : Text.Native text) (calm : Text.Calm text) :
    FailsWith Failure.Reports (expandAnnotated naming program marks text).result := by
  cases parsed : parseItem text with
  | error failure =>
    simp only [expandAnnotated, parsed]
    exact .error (parseItem_reports native calm failure parsed)
  | ok item =>
    rw [expandAnnotated_result naming program marks parsed]
    cases declared : item.declaration text marks marks.target with
    | none => exact .error (Diagnostic.errs_error _ _)
    | some result =>
      have tokenized := parseItem_tokenized parsed
      exact (Item.declaration_reports marks tokenized declared).bind fun declaration =>
        declaration.expand_reports naming program text item.place

theorem read_reports_of_native (native : Text.Native text) (target : Target) (offset : Int) :
    FailsWith Failure.IsFault <| Annotation.read text target offset := by
  cases tokenized : tokenize text with
  | ok tokens => exact Annotation.read_reports tokenized target offset
  | error failure =>
    unfold Annotation.read
    rw [tokenized]
    cases failure with
    | rejected error => exact .error ⟨_, _, rfl⟩
    | halted halt => exact absurd tokenized (native.tokenize_ne halt)

/-- Where nothing stops reading for good, an item is replaced by its expansion or by the directives
of its failure, which has an error. -/
theorem expand_eq_ok (naming : Naming) (target : Target) {marks : Option (List Char)}
    (nativeMarks : Text.Native (marks.getD [])) (native : Text.Native text)
    (calm : Text.Calm text) :
    (∃ expansion, (expandItem naming {} target (marks.getD []) text).result = .ok expansion ∧
      expand naming target marks text = .ok expansion.source) ∨
    ∃ diagnostic source,
      (expandItem naming {} target (marks.getD []) text).result = .error (.reported diagnostic) ∧
        diagnostic.errors ≠ [] ∧ (source = marks ∨ source = some text) ∧
        expand naming target marks text = .ok (diagnostic.render source) := by
  have reads := read_reports_of_native nativeMarks target 0
  unfold expandItem expand
  match read : Annotation.read (marks.getD []) target 0 with
  | .error (.halted halt) => exact (reads _ read).elim
  | .error (.reported diagnostic) =>
    exact .inr ⟨diagnostic, marks, rfl, Diagnostic.IsFault.errs (reads _ read), .inl rfl, rfl⟩
  | .ok found =>
    have expands := expandAnnotated_reports naming {} found native calm
    match result : (expandAnnotated naming {} found text).result with
    | .error (.halted halt) => exact (expands _ result).elim
    | .error (.reported diagnostic) =>
      exact .inr ⟨diagnostic, some text, rfl, expands _ result, .inr rfl, by simp only [result]⟩
    | .ok expansion => exact .inl ⟨expansion, rfl, by simp only [result]⟩

end Expansions

theorem Text.native_of_all (h : text.all fun c => !Text.isDigitLike c || c.isDigit) :
    Text.Native text := by
  intro c member like
  simpa [like] using List.all_eq_true.mp h c member

theorem Text.calm_of_all
    (h : (tokenize text).toOption.all fun tokens => Parse.Calm (tokens.map (·.toLexeme))) :
    Text.Calm text := by
  intro tokens found
  rw [found] at h
  simpa [Except.toOption] using h

end ActorGlue
