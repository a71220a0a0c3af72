import ActorGlue.Proofs.Expansion.Annotations
import ActorGlue.Proofs.Interface.ArgumentTypes

/-!
# Declarations do not see the layout

Two trees that differ in their places only, over texts whose annotations have the same lexemes,
declare the same or fail with diagnostics that agree.
-/

namespace ActorGlue

open Parse

section Rejections

variable {σ : Type}

mutual

/-- A type is refused for no fault of the grammar. -/
theorem Ty.Blames.lawful {ty : Ty σ} {rejection : TypeRejection σ} :
    ty.Blames rejection → rejection.fault.code.isSyntax = false
  | .foreign _ | .verbatim => rfl
  | .array inside | .paren inside | .tuple _ inside => inside.lawful
  | .self inside => inside.lawful
  | .segment _ _ inside => inside.lawful

theorem PathHead.Blames.lawful {head : PathHead σ} {rejection : TypeRejection σ} :
    head.Blames rejection → rejection.fault.code.isSyntax = false
  | .self inside | .selfAs inside => inside.lawful

theorem Segment.Blames.lawful {segment : Segment σ} {path : TyPath σ} {rejection : TypeRejection σ} :
    segment.Blames path rejection → rejection.fault.code.isSyntax = false
  | .call => rfl
  | .angle _ inside => inside.lawful

theorem GenericArg.Blames.lawful {arg : GenericArg σ} {path : TyPath σ}
    {rejection : TypeRejection σ} :
    arg.Blames path rejection → rejection.fault.code.isSyntax = false
  | .foreign _ => rfl
  | .type inside | .binding inside => inside.lawful

end

theorem Ty.descriptor_fault {ty : Ty σ} {rejection : TypeRejection σ}
    (h : ty.descriptor = .error rejection) : rejection.fault.code.isSyntax = false :=
  ((ty.judges_check.finds rejection).mp (Ty.descriptor_eq_error.mp h)).lawful

/-- The word that a type is, if it is one. -/
def Ty.plainName? : Ty σ → Option String
  | .path (.mk _ .relative [.mk _ ident .absent]) => some ident
  | _ => none

theorem Ty.plainName?_map {τ : Type} (f : σ → τ) (ty : Ty σ) :
    (ty.map f).plainName? = ty.plainName? := by
  cases ty with
  | path path =>
    obtain ⟨place, head, segments⟩ := path
    cases head with
    | relative =>
      match segments with
      | [] => simp [Ty.map, TyPath.map, PathHead.map, Ty.plainName?]
      | [.mk _ _ args] =>
        cases args <;>
          simp [Ty.map, TyPath.map, PathHead.map, Segment.map, SegmentArgs.map,
            Ty.plainName?]
      | _ :: _ :: _ => simp [Ty.map, TyPath.map, PathHead.map, Ty.plainName?]
    | _ => simp [Ty.map, TyPath.map, PathHead.map, Ty.plainName?]
  | _ => simp [Ty.map, Ty.plainName?]

theorem ImplItem.typeName_eq (item : ImplItem Span) :
    item.typeName = match item.selfTy.plainName? with
      | some name => .ok name
      | none => .error (.atSpan .actorType item.selfTy.place) := by
  unfold ImplItem.typeName
  split
  · rename_i same
    rw [same]
    rfl
  · rename_i other
    have none : item.selfTy.plainName? = .none := by
      unfold Ty.plainName?
      split
      · rename_i same
        exact absurd same (other _ _ _)
      · rfl
    rw [none]

end Rejections

/-- The binding that a setting gives. -/
def Setting.binding? : Setting → Option Binding
  | .binding found => some found
  | _ => none

/-- The codec that a setting gives. -/
def Setting.codec? : Setting → Option Codec
  | .codec found => some found
  | _ => none

/-- The way of dispatch that a setting gives. -/
def Setting.dispatch? : Setting → Option Dispatch
  | .dispatch found => some found
  | _ => none

namespace Annotation.Same

variable {marks marks' : Annotation} (same : marks.Same marks')

include same

theorem findSome? {α : Type} (pick : Setting → Option α) :
    (marks.directives.findSome? fun directive => pick directive.setting) =
      marks'.directives.findSome? fun directive => pick directive.setting := by
  have settings := congrArg (List.findSome? pick) same.settings
  rwa [List.findSome?_map, List.findSome?_map] at settings

theorem binding? : marks.binding? = marks'.binding? :=
  same.findSome? Setting.binding?

theorem codec : marks.codec = marks'.codec :=
  congrArg (Option.getD · Codec.dagCbor) (same.findSome? Setting.codec?)

theorem dispatch : marks.dispatch = marks'.dispatch :=
  congrArg (Option.getD · Dispatch.methodNumber) (same.findSome? Setting.dispatch?)

end Annotation.Same

variable {size size' : Nat} {diagnostics diagnostics' : List Diagnostic} {fault : Fault}

theorem Diagnostic.leavesAll_agrees
    (h : List.Forall₂ (Diagnostic.Agrees size size') diagnostics diagnostics') :
    List.Forall₂ (Leaf.Agrees size size') (Diagnostic.leavesAll diagnostics)
      (Diagnostic.leavesAll diagnostics') := by
  induction h with
  | nil => simp only [Diagnostic.leavesAll, List.Forall₂.nil]
  | cons head _ ih =>
    simp only [Diagnostic.leavesAll]
    exact List.rel_append head ih

/-- Several failures that agree are reported as one in both texts, or there are none. -/
theorem Diagnostic.ofList_agrees
    (h : List.Forall₂ (Diagnostic.Agrees size size') diagnostics diagnostics') :
    Option.Rel (Diagnostic.Agrees size size') (Diagnostic.ofList diagnostics)
      (Diagnostic.ofList diagnostics') := by
  match h with
  | .nil => exact .none
  | .cons head .nil => exact .some head
  | .cons head (.cons next rest) =>
    refine .some ?_
    simp only [Diagnostic.Agrees, Diagnostic.leaves]
    exact List.rel_append head (Diagnostic.leavesAll_agrees (.cons next rest))

/-- What an exported method gives: an entry point or a failure. -/
def Method.exported (text : List Char) (dispatch : Dispatch) (method : Method Span)
    (a : Attribute Span) : Except Halt (Except Diagnostic EntryPoint) :=
  match a.exportAnnotation text with
  | .ok marks => .ok (method.entryPoint dispatch marks)
  | .error (.reported diagnostic) => .ok (.error diagnostic)
  | .error (.halted halt) => .error halt

theorem Member.exports_method (text : List Char) (dispatch : Dispatch) (method : Method Span)
    (rest : List (Member Span)) :
    Member.exports text dispatch (.method method :: rest) =
      match method.exportAttribute? with
      | none => Member.exports text dispatch rest
      | some a => do
          let result ← method.exported text dispatch a
          let found ← Member.exports text dispatch rest
          match result with
          | .ok entry => return (entry :: found.1, found.2)
          | .error failure => return (found.1, failure :: found.2) := by
  rw [Member.exports]
  cases method.exportAttribute? with
  | none => rfl
  | some a =>
    simp only [Method.exported]
    cases a.exportAnnotation text with
    | ok marks => rfl
    | error failure => cases failure <;> rfl

/-- Two ways to place the nodes of a tree in two texts. -/
structure Placement (σ : Type) where
  text : List Char
  text' : List Char
  place : σ → Span
  place' : σ → Span
  fits : ∀ s, (place s).toPlace.Fits text.length
  fits' : ∀ s, (place' s).toPlace.Fits text'.length

namespace Placement

variable {σ : Type} (p : Placement σ)
variable (method : Method σ) {marks marks' : Annotation}

/-- Diagnostics of the two texts that agree. -/
abbrev Agrees : Diagnostic → Diagnostic → Prop :=
  Diagnostic.Agrees p.text.length p.text'.length

/-- The arguments of the attribute have the same tokens in both texts, but for their places. -/
def Reads (a : Attribute σ) : Prop :=
  ∀ group, a.input = .list group → ∃ tokens tokens',
    tokenize ((p.place group).inside.slice p.text) = .ok tokens ∧
      tokenize ((p.place' group).inside.slice p.text') = .ok tokens' ∧
      tokens.map (·.toLexeme) = tokens'.map (·.toLexeme) ∧
      (p.place group).inside.start + ((p.place group).inside.slice p.text).length ≤
        p.text.length ∧
      (p.place' group).inside.start + ((p.place' group).inside.slice p.text').length ≤
        p.text'.length

variable {p}

theorem atSpan (lawful : fault.code.isSyntax = false) (s : σ) :
    p.Agrees (.atSpan fault (p.place s)) (.atSpan fault (p.place' s)) :=
  Diagnostic.agrees_ofFault lawful (p.fits s) (p.fits' s)

theorem refuse (generics : Generics σ) (lawful : fault.code.isSyntax = false) :
    Agree p.Agrees Eq ((generics.map p.place).refuse fault)
      ((generics.map p.place').refuse fault) := by
  obtain ⟨place, params, clause⟩ := generics
  cases params with
  | nil => exact .ok rfl
  | cons param params =>
    refine .error ?_
    cases place with
    | none =>
      have origin : ∀ size, (Span.toPlace ⟨0, 0⟩).Fits size := fun size =>
        ⟨le_rfl, le_rfl, Int.natCast_nonneg size⟩
      exact Diagnostic.agrees_ofFault lawful (origin _) (origin _)
    | some place => exact atSpan lawful place

theorem publicFields (item : StructItem σ) :
    (item.map p.place).publicFields = (item.map p.place').publicFields := by
  have sees : ∀ (f : σ → Span) (field : Field σ),
      (field.map f).visibility.isPublic = field.visibility.isPublic := by
    intro f field
    simp only [Field.map]
    cases field.visibility <;> rfl
  have same : ∀ f : σ → Span, (item.map f).publicFields =
      item.fields.zipIdx.filterMap fun entry =>
        if entry.1.visibility.isPublic then
          some ⟨entry.1.name.getD (toString entry.2), entry.1.ty.render⟩
        else none := by
    intro f
    simp only [StructItem.publicFields, StructItem.map, List.zipIdx_map, List.filterMap_map]
    refine List.filterMap_congr fun entry _ => ?_
    simp only [Function.comp_apply, Prod.map, id, sees]
    simp only [Field.map, Ty.render_map]
  rw [same, same]

theorem typeName (item : ImplItem σ) :
    Agree p.Agrees Eq (item.map p.place).typeName (item.map p.place').typeName := by
  rw [ImplItem.typeName_eq, ImplItem.typeName_eq]
  simp only [ImplItem.map, Ty.plainName?_map, Ty.place_map]
  cases item.selfTy.plainName? with
  | some name => exact .ok rfl
  | none => exact .error (atSpan rfl item.selfTy.place)

theorem argument (input : MethodInput σ) :
    Agree p.Agrees Eq (input.map p.place).argument (input.map p.place').argument := by
  cases input with
  | receiver self => exact .error (atSpan rfl self.place)
  | typed input =>
    obtain ⟨place, attributes, pattern, ty⟩ := input
    cases pattern with
    | other place text => exact .error (atSpan rfl place)
    | ident place name mutable byRef subpattern =>
      simp only [MethodInput.map, TypedInput.map, Pattern.map, MethodInput.argument,
        Ty.descriptor_map]
      cases found : ty.descriptor with
      | ok type => exact .ok rfl
      | error rejection => exact .error (atSpan (Ty.descriptor_fault found) rejection.place)

theorem arguments (inputs : List (MethodInput σ)) :
    Agree p.Agrees Eq ((inputs.map (·.map p.place)).mapM (·.argument))
      ((inputs.map (·.map p.place')).mapM (·.argument)) := by
  induction inputs with
  | nil => exact .ok rfl
  | cons input inputs ih =>
    simp only [List.map_cons, List.mapM_cons]
    refine (argument input).bind ?_
    rintro found _ rfl
    refine ih.bind ?_
    rintro others _ rfl
    exact .ok rfl

/-- The inputs after the receiver, in a tree with any places. -/
theorem exists_arguments : ∃ inputs : List (MethodInput σ), ∀ f : σ → Span,
    (method.map f).arguments = inputs.map (·.map f) := by
  obtain ⟨_, _, _, _, _, inputs, _, _⟩ := method
  match inputs with
  | [] => exact ⟨[], fun f => rfl⟩
  | .receiver _ :: rest => exact ⟨rest, fun f => rfl⟩
  | .typed input :: rest => exact ⟨.typed input :: rest, fun f => rfl⟩

/-- Whether a receiver is mutable, in a tree with any places. -/
theorem exists_isMutable (receiver : Receiver σ) : ∃ mutable : Bool, ∀ f : σ → Span,
    (receiver.map f).isMutable = mutable := by
  obtain ⟨_, _, _, _, mutable, ty⟩ := receiver
  cases ty with
  | none => exact ⟨_, fun f => rfl⟩
  | some ty => cases ty <;> exact ⟨_, fun f => rfl⟩

theorem mutability : (method.map p.place).mutability = (method.map p.place').mutability := by
  obtain ⟨_, _, _, _, _, inputs, _, _⟩ := method
  cases inputs with
  | nil => rfl
  | cons input rest =>
    cases input with
    | receiver receiver =>
      obtain ⟨mutable, same⟩ := exists_isMutable receiver
      simp only [Method.mutability, Method.map, List.map_cons, MethodInput.map, same]
    | typed input => rfl

theorem isPublic (visibility : Visibility σ) (f : σ → Span) :
    (visibility.map f).isPublic = visibility.isPublic := by
  cases visibility <;> rfl

theorem entryPoint (dispatch : Dispatch) (same : marks.Same marks') :
    Agree p.Agrees Eq ((method.map p.place).entryPoint dispatch marks)
      ((method.map p.place').entryPoint dispatch marks') := by
  obtain ⟨inputs, arguments⟩ := exists_arguments method
  have numbers := mutability (p := p) method
  unfold Method.entryPoint
  refine (refuse method.generics rfl).bind ?_
  rintro _ _ -
  simp only [arguments, numbers, ← same.binding?]
  simp only [Method.map, isPublic]
  cases method.visibility.isPublic with
  | false => exact .error (atSpan rfl method.place)
  | true =>
    simp only [if_true]
    cases marks.binding? with
    | none => exact .error (atSpan rfl method.place)
    | some binding =>
      refine (Placement.arguments inputs).bind ?_
      rintro found _ rfl
      cases binding with
      | number number =>
        refine .ok ?_
        simp only [Option.isSome_map]
      | word text => exact .error (atSpan rfl method.place)

/-- Failures of the two texts that agree. -/
abbrev Fails (p : Placement σ) : Failure → Failure → Prop :=
  Failure.Agrees p.text.length p.text'.length

theorem exportAttribute?_map (f : σ → Span) :
    (method.map f).exportAttribute? =
      (method.attributes.find? (·.name = Target.method.name)).map (·.map f) := by
  rw [Method.exportAttribute?, Method.map, List.find?_map]
  rfl

theorem exportAnnotation {a : Attribute σ} (reads : p.Reads a) :
    Agree p.Fails Annotation.Same ( Attribute.exportAnnotation p.text (a.map p.place))
      ( Attribute.exportAnnotation p.text' (a.map p.place')) := by
  obtain ⟨place, qualifier, name, inner, input⟩ := a
  cases input with
  | word | value content => exact .error (atSpan (p := p) rfl place)
  | list group =>
    obtain ⟨tokens, tokens', h, h', same, fits, fits'⟩ := reads group rfl
    exact Annotation.read_agree .method h h' same fits fits'

theorem exported (dispatch : Dispatch) {a : Attribute σ} (reads : p.Reads a) :
    Agree (fun _ _ => False) (Agree p.Agrees Eq)
      ((method.map p.place).exported p.text dispatch (a.map p.place))
      ((method.map p.place').exported p.text' dispatch (a.map p.place')) := by
  have read := exportAnnotation reads
  unfold Method.exported
  generalize Attribute.exportAnnotation p.text (a.map p.place) = marks at read ⊢
  generalize Attribute.exportAnnotation p.text' (a.map p.place') = marks' at read ⊢
  cases read with
  | ok same => exact .ok (entryPoint method dispatch same)
  | @error failure failure' fails =>
    match failure, failure' with
    | .reported diagnostic, .reported diagnostic' => exact .ok (.error fails)

theorem member_map_method {τ : Type} (f : σ → τ) (method : Method σ) :
    Member.map f (.method method) = .method (method.map f) :=
  rfl

/-- The entry points and failures of two texts: the same entry points, and failures that agree. -/
def SameExports (p : Placement σ) (found found' : List EntryPoint × List Diagnostic) : Prop :=
  found.1 = found'.1 ∧ List.Forall₂ p.Agrees found.2 found'.2

theorem exports (dispatch : Dispatch) {members : List (Member σ)}
    (reads : ∀ member ∈ members, ∀ a ∈ member.attributes, p.Reads a) :
    Agree (fun _ _ => False) p.SameExports
      (Member.exports p.text dispatch (members.map (·.map p.place)))
      (Member.exports p.text' dispatch (members.map (·.map p.place'))) := by
  induction members with
  | nil => exact .ok ⟨rfl, .nil⟩
  | cons member members ih =>
    obtain ⟨own, rest⟩ := List.forall_mem_cons.mp reads
    replace ih := ih rest
    cases member with
    | other member => exact ih
    | method method =>
      simp only [List.map_cons, member_map_method, Member.exports_method, exportAttribute?_map]
      cases found : method.attributes.find? (·.name = Target.method.name) with
      | none => exact ih
      | some a =>
        refine (exported method dispatch
          (own a (List.mem_of_find?_eq_some found))).bind fun result result' agree =>
            ih.bind ?_
        rintro ⟨entries, failures⟩ ⟨_, failures'⟩ ⟨rfl, others⟩
        cases agree with
        | ok same => exact .ok ⟨congrArg (· :: entries) same, others⟩
        | error fails => exact .ok ⟨rfl, .cons fails others⟩

theorem actor (item : ImplItem σ) (same : marks.Same marks')
    (reads : ∀ member ∈ item.members, ∀ a ∈ member.attributes, p.Reads a) :
    Agree p.Fails Eq ((item.map p.place).actor p.text marks)
      ((item.map p.place').actor p.text' marks') := by
  have plain : Agree p.Agrees Eq ((item.map p.place).generics.refuse .actorGenerics)
      ((item.map p.place').generics.refuse .actorGenerics) := refuse item.generics rfl
  unfold ImplItem.actor
  refine plain.reported.bind fun _ _ _ => ?_
  refine (typeName item).reported.bind ?_
  rintro name _ rfl
  rw [← same.dispatch]
  have listed : Agree p.Fails p.SameExports
      ((Member.exports p.text marks.dispatch (item.map p.place).members).mapError .halted)
      ((Member.exports p.text' marks.dispatch (item.map p.place').members).mapError .halted) :=
    (exports marks.dispatch reads).mapError fun _ _ fails => fails.elim
  refine listed.bind ?_
  rintro ⟨entries, failures⟩ ⟨_, failures'⟩ ⟨rfl, agree⟩
  have together := Diagnostic.ofList_agrees agree
  simp only
  revert together
  generalize Diagnostic.ofList failures = diagnostic
  generalize Diagnostic.ofList failures' = diagnostic'
  rintro (⟨agrees⟩ | _)
  · exact .error agrees
  · exact .ok rfl

theorem state (item : StructItem σ) (same : marks.Same marks') :
    Agree p.Agrees Eq ((item.map p.place).state marks) ((item.map p.place').state marks') := by
  unfold StructItem.state
  refine (refuse item.generics rfl).bind fun _ _ _ => .ok ?_
  rw [same.codec, publicFields]
  rfl

theorem payload (item : StructItem σ) (same : marks.Same marks') :
    Agree p.Agrees Eq ((item.map p.place).payload marks)
      ((item.map p.place').payload marks') := by
  unfold StructItem.payload
  refine (refuse item.generics rfl).bind fun _ _ _ => .ok ?_
  rw [same.codec]
  rfl

/-- What an item declares, whatever its head is. -/
theorem declaration (body : Item σ) (same : marks.Same marks')
    (reads : ∀ member ∈ body.members, ∀ a ∈ member.attributes, p.Reads a) {head head' : Span}
    (fits : head.toPlace.Fits p.text.length) (fits' : head'.toPlace.Fits p.text'.length)
    (attributes attributes' : List (Attribute Span)) (target : Target) :
    Option.Rel (Agree p.Fails Eq)
      (((body.map p.place).withHead head attributes).declaration p.text marks target)
      (((body.map p.place').withHead head' attributes').declaration p.text' marks' target) := by
  have misfit : ∀ fault : Fault, fault.code.isSyntax = false →
      p.Agrees (.atSpan fault head) (.atSpan fault head') := fun fault lawful =>
    Diagnostic.agrees_ofFault lawful fits fits'
  cases target with
  | state =>
    refine .some ?_
    cases body with
    | struct item =>
      exact ((state item same).map fun _ _ same => congrArg Declaration.state same).reported
    | impl item => exact .error (misfit _ rfl)
    | other item => exact .error (misfit _ rfl)
  | payload =>
    refine .some ?_
    cases body with
    | struct item =>
      exact ((payload item same).map fun _ _ same =>
        congrArg Declaration.payload same).reported
    | impl item => exact .error (misfit _ rfl)
    | other item => exact .error (misfit _ rfl)
  | actor =>
    refine .some ?_
    cases body with
    | struct item => exact .error (misfit _ rfl)
    | impl item => exact (actor item same reads).map fun _ _ same => congrArg Declaration.actor same
    | other item => exact .error (misfit _ rfl)
  | method => exact .none

end Placement

end ActorGlue
