import ActorGlue.Interface.Declaration

/-!
# Which argument types are accepted

The types whose values can be decoded are a least set, closed under arrays, parentheses, tuples and
paths. A type outside of it is refused for the first place that leads out of the set: everything to
the left of that place is inside. The check decides between the two, and finds the place.
-/

namespace ActorGlue

section Definitions

variable {σ : Type}

mutual

/-- The values of the type can be decoded. -/
inductive Ty.Decodable : Ty σ → Prop where
  | array {place : σ} {elem : Ty σ} {length : String} (inside : elem.Decodable) :
      (Ty.array place elem length).Decodable
  | paren {place : σ} {elem : Ty σ} (inside : elem.Decodable) : (Ty.paren place elem).Decodable
  | tuple {place : σ} {elems : List (Ty σ)} (inside : ∀ elem ∈ elems, elem.Decodable) :
      (Ty.tuple place elems).Decodable
  | path {place : σ} {head : PathHead σ} {segments : List (Segment σ)} (self : head.Decodable)
      (inside : ∀ segment ∈ segments, segment.Decodable) :
      (Ty.path (.mk place head segments)).Decodable

/-- The self type of a path, if it has one, can be decoded. Nothing is said about the trait it is
seen as. -/
inductive PathHead.Decodable : PathHead σ → Prop where
  | relative : PathHead.relative.Decodable
  | rooted : PathHead.rooted.Decodable
  | self {place : σ} {ty : Ty σ} (inside : ty.Decodable) : (PathHead.self place ty).Decodable
  | selfAs {place : σ} {ty : Ty σ} {trait : TyPath σ} (inside : ty.Decodable) :
      (PathHead.selfAs place ty trait).Decodable

/-- The segment has no arguments, or decodable ones in angle brackets. -/
inductive Segment.Decodable : Segment σ → Prop where
  | plain {place : σ} {ident : String} : (Segment.mk place ident .absent).Decodable
  | angle {place inner : σ} {ident : String} {args : List (GenericArg σ)}
      (inside : ∀ arg ∈ args, arg.Decodable) : (Segment.mk place ident (.angle inner args)).Decodable

/-- The argument is a decodable type, or binds a name to one. -/
inductive GenericArg.Decodable : GenericArg σ → Prop where
  | type {place : σ} {ty : Ty σ} (inside : ty.Decodable) : (GenericArg.type place ty).Decodable
  | binding {place : σ} {name : String} {ty : Ty σ} (inside : ty.Decodable) :
      (GenericArg.binding place name ty).Decodable

end

/-- No value of such a type can be decoded, whatever is inside it, and this is what it is called. -/
inductive Ty.Foreign : Ty σ → String → Prop where
  | bareFn {place : σ} {inputs : List (Ty σ)} {output : Option (Ty σ)} {text : String} :
      (Ty.bareFn place inputs output text).Foreign "a bare function type"
  | group {place : σ} {elem : Ty σ} :
      (Ty.group place elem).Foreign "a type contained within invisible delimiters"
  | implTrait {place : σ} {bounds : List (Bound σ)} :
      (Ty.implTrait place bounds).Foreign "an impl type"
  | infer {place : σ} : (Ty.infer place).Foreign "the infer type"
  | invocation {place : σ} {path : TyPath σ} {text : String} :
      (Ty.invocation place path text).Foreign "a macro"
  | never {place : σ} : (Ty.never place).Foreign "the never type"
  | pointer {place : σ} {elem : Ty σ} {mutable : Bool} :
      (Ty.pointer place elem mutable).Foreign "a pointer type"
  | reference {place : σ} {elem : Ty σ} {lifetime : Option String} {mutable : Bool} :
      (Ty.reference place elem lifetime mutable).Foreign "a referenced type"
  | slice {place : σ} {elem : Ty σ} : (Ty.slice place elem).Foreign "a slice type"
  | traitObject {place : σ} {bounds : List (Bound σ)} {dyn : Bool} :
      (Ty.traitObject place bounds dyn).Foreign "a trait object type"

/-- The argument cannot be decoded, whatever is inside it, and this is what its path is called. -/
inductive GenericArg.Foreign : GenericArg σ → String → Prop where
  | lifetime {place : σ} {name : String} :
      (GenericArg.lifetime place name).Foreign "a type with specified lifetime"
  | constraint {place : σ} {name : String} {bounds : List (Bound σ)} :
      (GenericArg.constraint place name bounds).Foreign "a constraint type"
  | const {place : σ} {expr : String} : (GenericArg.const place expr).Foreign "a const expression"

mutual

/-- The type is refused for the first place in it that leads out of the decodable types. -/
inductive Ty.Blames : Ty σ → TypeRejection σ → Prop where
  | foreign {ty : Ty σ} {label : String} (kind : ty.Foreign label) :
      ty.Blames ⟨.argumentType label ty.render, ty.place⟩
  | verbatim {place : σ} {text : String} :
      (Ty.verbatim place text).Blames ⟨.unhandledType text, place⟩
  | array {place : σ} {elem : Ty σ} {length : String} {rejection : TypeRejection σ}
      (inside : elem.Blames rejection) : (Ty.array place elem length).Blames rejection
  | paren {place : σ} {elem : Ty σ} {rejection : TypeRejection σ}
      (inside : elem.Blames rejection) : (Ty.paren place elem).Blames rejection
  | tuple {place : σ} {before after : List (Ty σ)} {elem : Ty σ} {rejection : TypeRejection σ}
      (passed : ∀ earlier ∈ before, earlier.Decodable) (inside : elem.Blames rejection) :
      (Ty.tuple place (before ++ elem :: after)).Blames rejection
  | self {place : σ} {head : PathHead σ} {segments : List (Segment σ)}
      {rejection : TypeRejection σ} (inside : head.Blames rejection) :
      (Ty.path (.mk place head segments)).Blames rejection
  | segment {place : σ} {head : PathHead σ} {before after : List (Segment σ)}
      {segment : Segment σ} {rejection : TypeRejection σ} (self : head.Decodable)
      (passed : ∀ earlier ∈ before, earlier.Decodable)
      (inside : segment.Blames (.mk place head (before ++ segment :: after)) rejection) :
      (Ty.path (.mk place head (before ++ segment :: after))).Blames rejection

/-- The self type of a path is refused. -/
inductive PathHead.Blames : PathHead σ → TypeRejection σ → Prop where
  | self {place : σ} {ty : Ty σ} {rejection : TypeRejection σ} (inside : ty.Blames rejection) :
      (PathHead.self place ty).Blames rejection
  | selfAs {place : σ} {ty : Ty σ} {trait : TyPath σ} {rejection : TypeRejection σ}
      (inside : ty.Blames rejection) : (PathHead.selfAs place ty trait).Blames rejection

/-- A segment of the path is refused. Arguments of a function are reported as the path. -/
inductive Segment.Blames : Segment σ → TyPath σ → TypeRejection σ → Prop where
  | call {path : TyPath σ} {place inner : σ} {ident : String} {inputs : List (Ty σ)}
      {output : Option (Ty σ)} : (Segment.mk place ident (.call inner inputs output)).Blames path
        ⟨.argumentType "arguments of a function path segment" path.render, path.place⟩
  | angle {path : TyPath σ} {place inner : σ} {ident : String} {before after : List (GenericArg σ)}
      {arg : GenericArg σ} {rejection : TypeRejection σ}
      (passed : ∀ earlier ∈ before, earlier.Decodable) (inside : arg.Blames path rejection) :
      (Segment.mk place ident (.angle inner (before ++ arg :: after))).Blames path rejection

/-- An argument in angle brackets is refused. One that is no type is reported as its path. -/
inductive GenericArg.Blames : GenericArg σ → TyPath σ → TypeRejection σ → Prop where
  | foreign {arg : GenericArg σ} {path : TyPath σ} {label : String} (kind : arg.Foreign label) :
      arg.Blames path ⟨.argumentType label path.render, path.place⟩
  | type {path : TyPath σ} {place : σ} {ty : Ty σ} {rejection : TypeRejection σ}
      (inside : ty.Blames rejection) : (GenericArg.type place ty).Blames path rejection
  | binding {path : TyPath σ} {place : σ} {name : String} {ty : Ty σ}
      {rejection : TypeRejection σ} (inside : ty.Blames rejection) :
      (GenericArg.binding place name ty).Blames path rejection

end

end Definitions

section Judging

/-! ## Checks that decide -/

variable {α ε : Type}

/-- The first of the values that is not good is bad in the given way. -/
def FirstBad (good : α → Prop) (bad : α → ε → Prop) (values : List α) (fault : ε) : Prop :=
  ∃ before value after, values = before ++ value :: after ∧
    (∀ earlier ∈ before, good earlier) ∧ bad value fault

/-- The outcome of a check decides: it passes exactly what is good, and finds what is bad. -/
structure Judges (outcome : Except ε Unit) (good : Prop) (bad : ε → Prop) : Prop where
  passes : outcome = .ok () ↔ good
  finds : ∀ fault, outcome = .error fault ↔ bad fault

variable {outcome following : Except ε Unit} {good other : Prop} {bad worse : ε → Prop}

theorem Judges.congr (judges : Judges outcome good bad) (same : good ↔ other)
    (faults : ∀ fault, bad fault ↔ worse fault) : Judges outcome other worse :=
  ⟨judges.passes.trans same, fun fault => (judges.finds fault).trans (faults fault)⟩

theorem judges_ok (holds : good) (none : ∀ fault, ¬bad fault) : Judges (.ok ()) good bad :=
  ⟨⟨fun _ => holds, fun _ => rfl⟩, fun fault => ⟨nofun, fun found => absurd found (none fault)⟩⟩

theorem judges_error {fault : ε} (fails : ¬good) (only : ∀ found, bad found ↔ found = fault) :
    Judges (.error fault) good bad := by
  refine ⟨⟨nofun, fun holds => absurd holds fails⟩, fun found => ?_⟩
  rw [only, Except.error.injEq, eq_comm]

/-- A second check finds something only if the first one passes. -/
theorem Judges.andThen (judges : Judges outcome good bad) (later : Judges following other worse) :
    Judges (outcome >>= fun _ => following) (good ∧ other)
      fun fault => bad fault ∨ good ∧ worse fault := by
  cases outcome with
  | ok value =>
    have holds : good := judges.passes.mp rfl
    have none (fault : ε) : ¬bad fault := fun found => nomatch (judges.finds fault).mpr found
    exact later.congr (by simp [holds]) (by simp [holds, none])
  | error found =>
    have fails : ¬good := fun holds => nomatch judges.passes.mpr holds
    exact judges.congr (by simp [fails]) (by simp [fails])

variable {fine : α → Prop} {wrong : α → ε → Prop} {value : α} {rest : List α}

theorem not_firstBad_nil (fault : ε) : ¬FirstBad fine wrong [] fault := by
  rintro ⟨before, value, after, same, -⟩
  cases before <;> cases same

theorem firstBad_cons {fault : ε} : FirstBad fine wrong (value :: rest) fault ↔
    wrong value fault ∨ fine value ∧ FirstBad fine wrong rest fault := by
  constructor
  · rintro ⟨_ | ⟨first, before⟩, found, after, same, passed, bad⟩
    · cases same
      exact .inl bad
    · cases same
      have passed := List.forall_mem_cons.mp passed
      exact .inr ⟨passed.1, before, found, after, rfl, passed.2, bad⟩
  · rintro (bad | ⟨good, before, found, after, rfl, passed, bad⟩)
    · exact ⟨[], value, rest, rfl, nofun, bad⟩
    · exact ⟨value :: before, found, after, rfl, List.forall_mem_cons.mpr ⟨good, passed⟩, bad⟩

theorem judges_nil : Judges (.ok ()) (∀ value ∈ [], fine value) (FirstBad fine wrong []) :=
  judges_ok nofun not_firstBad_nil

/-- Values that are checked one after the other fail at the first bad one. -/
theorem Judges.cons (judges : Judges outcome (fine value) (wrong value))
    (later : Judges following (∀ value ∈ rest, fine value) (FirstBad fine wrong rest)) :
    Judges (outcome >>= fun _ => following) (∀ other ∈ value :: rest, fine other)
      (FirstBad fine wrong (value :: rest)) :=
  (judges.andThen later).congr List.forall_mem_cons.symm fun _ => firstBad_cons.symm

end Judging

section Types

/-! ## The check of a type -/

variable {σ : Type} {ty : Ty σ} {label : String}

theorem Ty.refusedCategory?_eq_some : ty.refusedCategory? = some label ↔ ty.Foreign label := by
  constructor
  · intro same
    cases ty <;> cases same <;> constructor
  · intro kind
    cases kind <;> rfl

/-- A type of a foreign kind is refused as a whole. -/
theorem Ty.judges_foreign (kind : ty.Foreign label) :
    Judges (.error ty.refuse) ty.Decodable ty.Blames := by
  have refused : ty.refuse = ⟨.argumentType label ty.render, ty.place⟩ := by
    rw [Ty.refuse, Ty.refusedCategory?_eq_some.mpr kind]
  rw [refused]
  refine judges_error ?_ fun found => ⟨fun blames => ?_, fun same => same ▸ .foreign kind⟩
  · intro decodable
    cases kind <;> cases decodable
  · cases kind <;> obtain ⟨⟨⟩⟩ := blames <;> rfl

/-- An argument of a foreign kind is reported as its path. -/
theorem GenericArg.judges_foreign {arg : GenericArg σ} {path : TyPath σ} (kind : arg.Foreign label)
    (refused : arg.check path.refuse = .error (path.refuse label)) :
    Judges (arg.check path.refuse) arg.Decodable (arg.Blames path) := by
  rw [refused]
  refine judges_error ?_ fun found => ⟨fun blames => ?_, fun same => same ▸ .foreign kind⟩
  · intro decodable
    cases kind <;> cases decodable
  · cases kind <;> obtain ⟨⟨⟩⟩ := blames <;> rfl

mutual

theorem Ty.judges_check : (ty : Ty σ) → Judges ty.check ty.Decodable ty.Blames
  | .array place elem length => by
    rw [Ty.check]
    refine (Ty.judges_check elem).congr ⟨.array, fun decodable => ?_⟩
      fun rejection => ⟨.array, fun blames => ?_⟩
    · cases decodable with
      | array inside => exact inside
    · cases blames with
      | foreign kind => cases kind
      | array inside => exact inside
  | .paren place elem => by
    rw [Ty.check]
    refine (Ty.judges_check elem).congr ⟨.paren, fun decodable => ?_⟩
      fun rejection => ⟨.paren, fun blames => ?_⟩
    · cases decodable with
      | paren inside => exact inside
    · cases blames with
      | foreign kind => cases kind
      | paren inside => exact inside
  | .tuple place elems => by
    rw [Ty.check]
    refine (Ty.judges_checkAll elems).congr ⟨.tuple, fun decodable => ?_⟩
      fun rejection => ⟨?_, fun blames => ?_⟩
    · cases decodable with
      | tuple inside => exact inside
    · rintro ⟨before, elem, after, rfl, passed, inside⟩
      exact .tuple passed inside
    · cases blames with
      | foreign kind => cases kind
      | tuple passed inside => exact ⟨_, _, _, rfl, passed, inside⟩
  | .path (.mk place head segments) => by
    rw [Ty.check]
    refine (head.judges_check.andThen
      (Segment.judges_checkAll (.mk place head segments) segments)).congr
        ⟨fun both => .path both.1 both.2, fun decodable => ?_⟩
        fun rejection => ⟨?_, fun blames => ?_⟩
    · cases decodable with
      | path self inside => exact ⟨self, inside⟩
    · rintro (inside | ⟨self, before, segment, after, rfl, passed, inside⟩)
      · exact .self inside
      · exact .segment self passed inside
    · cases blames with
      | foreign kind => cases kind
      | self inside => exact .inl inside
      | segment self passed inside => exact .inr ⟨self, _, _, _, rfl, passed, inside⟩
  | .verbatim place text => by
    have refused : (Ty.verbatim place text).check = .error ⟨.unhandledType text, place⟩ := rfl
    rw [refused]
    refine judges_error nofun fun found => ⟨fun blames => ?_, ?_⟩
    · cases blames with
      | foreign kind => cases kind
      | verbatim => rfl
    · rintro rfl
      exact .verbatim
  | .slice .. => Ty.judges_foreign .slice
  | .reference .. => Ty.judges_foreign .reference
  | .pointer .. => Ty.judges_foreign .pointer
  | .never .. => Ty.judges_foreign .never
  | .infer .. => Ty.judges_foreign .infer
  | .implTrait .. => Ty.judges_foreign .implTrait
  | .traitObject .. => Ty.judges_foreign .traitObject
  | .bareFn .. => Ty.judges_foreign .bareFn
  | .invocation .. => Ty.judges_foreign .invocation
  | .group .. => Ty.judges_foreign .group

theorem Ty.judges_checkAll : (types : List (Ty σ)) → Judges (Ty.checkAll types)
    (∀ ty ∈ types, ty.Decodable) (FirstBad Ty.Decodable Ty.Blames types)
  | [] => judges_nil
  | ty :: rest => by
    rw [Ty.checkAll]
    exact (Ty.judges_check ty).cons (Ty.judges_checkAll rest)

theorem PathHead.judges_check : (head : PathHead σ) →
    Judges head.check head.Decodable head.Blames
  | .relative => judges_ok .relative nofun
  | .rooted => judges_ok .rooted nofun
  | .self place ty => by
    rw [PathHead.check]
    refine (Ty.judges_check ty).congr ⟨.self, fun decodable => ?_⟩
      fun rejection => ⟨.self, fun blames => ?_⟩
    · cases decodable with
      | self inside => exact inside
    · cases blames with
      | self inside => exact inside
  | .selfAs place ty trait => by
    rw [PathHead.check]
    refine (Ty.judges_check ty).congr ⟨.selfAs, fun decodable => ?_⟩
      fun rejection => ⟨.selfAs, fun blames => ?_⟩
    · cases decodable with
      | selfAs inside => exact inside
    · cases blames with
      | selfAs inside => exact inside

theorem Segment.judges_checkAll (path : TyPath σ) : (segments : List (Segment σ)) →
    Judges (Segment.checkAll path.refuse segments) (∀ segment ∈ segments, segment.Decodable)
      (FirstBad Segment.Decodable (fun segment => segment.Blames path) segments)
  | [] => judges_nil
  | .mk place ident args :: rest => by
    rw [Segment.checkAll]
    exact (SegmentArgs.judges_check path place ident args).cons
      (Segment.judges_checkAll path rest)

theorem SegmentArgs.judges_check (path : TyPath σ) (place : σ) (ident : String) :
    (args : SegmentArgs σ) → Judges (args.check path.refuse)
      (Segment.mk place ident args).Decodable ((Segment.mk place ident args).Blames path)
  | .absent => judges_ok .plain nofun
  | .angle inner args => by
    rw [SegmentArgs.check]
    refine (GenericArg.judges_checkAll path args).congr ⟨.angle, fun decodable => ?_⟩
      fun rejection => ⟨?_, fun blames => ?_⟩
    · cases decodable with
      | angle inside => exact inside
    · rintro ⟨before, arg, after, rfl, passed, inside⟩
      exact .angle passed inside
    · cases blames with
      | angle passed inside => exact ⟨_, _, _, rfl, passed, inside⟩
  | .call inner inputs output => by
    rw [SegmentArgs.check]
    refine judges_error nofun fun found => ⟨fun blames => ?_, ?_⟩
    · cases blames with
      | call => rfl
    · rintro rfl
      exact .call

theorem GenericArg.judges_check (path : TyPath σ) : (arg : GenericArg σ) →
    Judges (arg.check path.refuse) arg.Decodable (arg.Blames path)
  | .type place ty => by
    rw [GenericArg.check]
    refine (Ty.judges_check ty).congr ⟨.type, fun decodable => ?_⟩
      fun rejection => ⟨.type, fun blames => ?_⟩
    · cases decodable with
      | type inside => exact inside
    · cases blames with
      | foreign kind => cases kind
      | type inside => exact inside
  | .binding place name ty => by
    rw [GenericArg.check]
    refine (Ty.judges_check ty).congr ⟨.binding, fun decodable => ?_⟩
      fun rejection => ⟨.binding, fun blames => ?_⟩
    · cases decodable with
      | binding inside => exact inside
    · cases blames with
      | foreign kind => cases kind
      | binding inside => exact inside
  | .lifetime .. => GenericArg.judges_foreign .lifetime rfl
  | .constraint .. => GenericArg.judges_foreign .constraint rfl
  | .const .. => GenericArg.judges_foreign .const rfl

theorem GenericArg.judges_checkAll (path : TyPath σ) : (args : List (GenericArg σ)) →
    Judges (GenericArg.checkAll path.refuse args) (∀ arg ∈ args, arg.Decodable)
      (FirstBad GenericArg.Decodable (fun arg => arg.Blames path) args)
  | [] => judges_nil
  | arg :: rest => by
    rw [GenericArg.checkAll]
    exact (GenericArg.judges_check path arg).cons (GenericArg.judges_checkAll path rest)

end

theorem Ty.descriptor_eq_ok {text : String} :
    ty.descriptor = .ok text ↔ ty.check = .ok () ∧ text = ty.render := by
  cases checked : ty.check <;> simp [Ty.descriptor, checked, Except.map, eq_comm]

theorem Ty.descriptor_eq_error {rejection : TypeRejection σ} :
    ty.descriptor = .error rejection ↔ ty.check = .error rejection := by
  cases checked : ty.check <;> simp [Ty.descriptor, checked, Except.map]

/-- A typed input with a name is refused exactly if its type is, at the place found in the type. -/
theorem MethodInput.argument_eq_error {input : TypedInput Span} {diagnostic : Diagnostic}
    (named : ∃ place name mutable byRef inside,
      input.pattern = .ident place name mutable byRef inside) :
    (MethodInput.typed input).argument = .error diagnostic ↔ ∃ rejection,
      input.ty.descriptor = .error rejection ∧
        diagnostic = .atSpan rejection.fault rejection.place := by
  obtain ⟨place, name, mutable, byRef, inside, pattern⟩ := named
  cases described : input.ty.descriptor <;>
    simp [MethodInput.argument, pattern, described, eq_comm]

/-- An argument gets the text of its type if the type is decodable. Otherwise it is refused, with
one message, for the first place that leads out of the decodable types, and with nothing else. -/
theorem argument_types_classified (ty : Ty Span) :
    (∀ text, ty.descriptor = .ok text ↔ ty.Decodable ∧ text = ty.render) ∧
    (∀ rejection, ty.descriptor = .error rejection ↔ ty.Blames rejection) ∧
    ∀ place attributes spot name mutable byRef inside diagnostic,
      (MethodInput.typed
          ⟨place, attributes, .ident spot name mutable byRef inside, ty⟩).argument =
        .error diagnostic ↔
      ∃ rejection, ty.Blames rejection ∧ diagnostic =
        .leaf ⟨rejection.fault.message, some rejection.place.toPlace, .error,
          some rejection.fault.code⟩ := by
  have passes := ty.judges_check.passes
  have finds (rejection : TypeRejection Span) :
      ty.descriptor = .error rejection ↔ ty.Blames rejection :=
    Ty.descriptor_eq_error.trans (ty.judges_check.finds rejection)
  refine ⟨fun text => ?_, finds, ?_⟩
  · rw [Ty.descriptor_eq_ok, passes]
  · intro place attributes spot name mutable byRef inside diagnostic
    rw [MethodInput.argument_eq_error ⟨spot, name, mutable, byRef, inside, rfl⟩]
    simp only [finds]
    rfl

end Types

end ActorGlue
