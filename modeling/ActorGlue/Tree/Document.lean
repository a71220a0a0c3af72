import ActorGlue.Document.Basic
import ActorGlue.Tree.Outline

/-!
# Tree documents

Trees as documents: every node has its kind, its span in the source and one field for each of its
parts. Texts that are slices of the source are filled in from it.
-/

namespace ActorGlue

def Span.document (span : Span) : Document :=
  .list [.nat span.start, .nat span.stop]

def NodeKind.document (kind : NodeKind) (span : Span) (fields : List (String × Document)) :
    Document :=
  .object (("node", .text kind.label) :: ("span", span.document) :: fields)

/-- The span of nodes that are not written. -/
def Span.unwritten : Span := ⟨0, 0⟩

mutual

/-- The document of a type. -/
def Ty.document : Ty Span → Document
  | .path p => p.document
  | .array span elem length =>
      NodeKind.array.document span [("elem", elem.document), ("length", .text length)]
  | .slice span elem => NodeKind.slice.document span [("elem", elem.document)]
  | .paren span elem => NodeKind.paren.document span [("elem", elem.document)]
  | .tuple span elems => NodeKind.tuple.document span [("elems", .list (Ty.documents elems))]
  | .reference span elem lifetime mutable =>
      NodeKind.reference.document span
        [("elem", elem.document), ("lifetime", .option .text lifetime),
          ("mutable", .bool mutable)]
  | .pointer span elem mutable =>
      NodeKind.pointer.document span [("elem", elem.document), ("mutable", .bool mutable)]
  | .never span => NodeKind.never.document span []
  | .infer span => NodeKind.infer.document span []
  | .implTrait span bounds =>
      NodeKind.implTrait.document span [("bounds", .list (Bound.documents bounds))]
  | .traitObject span bounds dyn =>
      NodeKind.traitObject.document span
        [("bounds", .list (Bound.documents bounds)), ("dyn", .bool dyn)]
  | .bareFn span inputs output text =>
      NodeKind.bareFn.document span
        [("inputs", .list (Ty.documents inputs)), ("output", Ty.document? output),
          ("text", .text text)]
  | .invocation span p text =>
      NodeKind.invocation.document span [("path", p.document), ("text", .text text)]
  | .group span elem => NodeKind.group.document span [("elem", elem.document)]
  | .verbatim span text => NodeKind.verbatim.document span [("text", .text text)]

/-- The documents of several types. -/
def Ty.documents : List (Ty Span) → List Document
  | [] => []
  | ty :: rest => ty.document :: Ty.documents rest

/-- The document of a type that may be missing. -/
def Ty.document? : Option (Ty Span) → Document
  | none => .null
  | some ty => ty.document

def TyPath.document : TyPath Span → Document
  | .mk span head segments =>
      NodeKind.path.document span
        [("segments", .list (Segment.documents segments)),
          ("leading_colon", .bool (match head with
            | .rooted => true
            | _ => false)),
          ("qself", head.document)]

/-- The document of a qualified self type. -/
def PathHead.document : PathHead Span → Document
  | .relative | .rooted => .null
  | .self span ty =>
      NodeKind.qualifiedSelf.document span [("ty", ty.document), ("trait", .null)]
  | .selfAs span ty trait =>
      NodeKind.qualifiedSelf.document span [("ty", ty.document), ("trait", trait.document)]

def Segment.document : Segment Span → Document
  | .mk span ident args =>
      NodeKind.segment.document span [("ident", .text ident), ("arguments", args.document)]

/-- The documents of several segments. -/
def Segment.documents : List (Segment Span) → List Document
  | [] => []
  | segment :: rest => segment.document :: Segment.documents rest

/-- The document of a segment's arguments. -/
def SegmentArgs.document : SegmentArgs Span → Document
  | .absent => .null
  | .angle span args =>
      NodeKind.angleArgs.document span [("args", .list (GenericArg.documents args))]
  | .call span inputs output =>
      NodeKind.callArgs.document span
        [("inputs", .list (Ty.documents inputs)), ("output", Ty.document? output)]

/-- The document of an argument in angle brackets. -/
def GenericArg.document : GenericArg Span → Document
  | .lifetime span name => NodeKind.lifetimeArg.document span [("name", .text name)]
  | .type span ty => NodeKind.typeArg.document span [("ty", ty.document)]
  | .binding span name ty =>
      NodeKind.bindingArg.document span [("name", .text name), ("ty", ty.document)]
  | .constraint span name bounds =>
      NodeKind.constraintArg.document span
        [("name", .text name), ("bounds", .list (Bound.documents bounds))]
  | .const span expr => NodeKind.constArg.document span [("expr", .text expr)]

/-- The documents of several arguments. -/
def GenericArg.documents : List (GenericArg Span) → List Document
  | [] => []
  | arg :: rest => arg.document :: GenericArg.documents rest

def Bound.document : Bound Span → Document
  | .trait span path optional lifetimes =>
      NodeKind.traitBound.document span
        [("path", path.document), ("modifier", .text (if optional then "?" else "")),
          ("for_lifetimes", .text lifetimes)]
  | .lifetime span name => NodeKind.lifetimeBound.document span [("name", .text name)]

/-- The documents of several bounds. -/
def Bound.documents : List (Bound Span) → List Document
  | [] => []
  | bound :: rest => bound.document :: Bound.documents rest

end

def Span.textDocument (span : Span) (source : List Char) : Document :=
  .text (String.ofList (span.slice source))

/-- The word for how an attribute is written, and the span of its arguments. -/
def AttributeInput.summary : AttributeInput Span → String × Option Span
  | .word => ("word", none)
  | .list group => ("list", some ⟨group.start + 1, group.stop - 1⟩)
  | .value content => ("name_value", content)

def Visibility.document (v : Visibility Span) : Document :=
  let (kind, span) : String × Span := match v with
    | .inherited => ("inherited", .unwritten)
    | .everyone span => ("public", span)
    | .restricted span _ => ("restricted", span)
  NodeKind.visibility.document span [("kind", .text kind), ("text", .text v.text)]

/-- The word for a kind of parameters. -/
def ParamKind.name : ParamKind → String
  | .lifetime => "lifetime"
  | .const => "const"
  | .type => "type"

def Generics.document (g : Generics Span) : Document :=
  NodeKind.generics.document (g.place.getD .unwritten)
    [("params", .list (g.params.map fun param =>
        NodeKind.genericParam.document param.place
          [("kind", .text param.kind.name), ("name", .text param.name)])),
      ("where_clause", .text g.whereClause)]

/-- The word for how fields are written. -/
def FieldStyle.name : FieldStyle → String
  | .named => "named"
  | .tuple => "tuple"
  | .unit => "unit"

def Pattern.document : Pattern Span → Document
  | .ident span name mutable byRef subpattern =>
      NodeKind.identPattern.document span
        [("name", .text name), ("mutable", .bool mutable), ("by_ref", .bool byRef),
          ("subpattern", .option .text subpattern)]
  | .other span text => NodeKind.otherPattern.document span [("text", .text text)]

section Items

variable (source : List Char)

def Attribute.document (a : Attribute Span) : Document :=
  let (kind, args) := a.input.summary
  NodeKind.attribute.document a.place
    [("path", .texts (a.qualifier ++ [a.name])),
      ("style", .text (if a.inner then "inner" else "outer")), ("kind", .text kind),
      ("args_text", (args.map (·.textDocument source)).getD (.text "")),
      ("args_span", .option (·.document) args), ("text", a.place.textDocument source)]

def Attribute.documents (attributes : List (Attribute Span)) : Document :=
  .list (attributes.map (·.document source))

def Field.document (d : Field Span) : Document :=
  NodeKind.field.document d.place
    [("attrs", Attribute.documents source d.attributes), ("vis", d.visibility.document),
      ("name", .option .text d.name), ("ty", d.ty.document)]

def MethodInput.document : MethodInput Span → Document
  | .receiver r =>
      NodeKind.receiver.document r.place
        [("attrs", Attribute.documents source r.attributes), ("reference", .bool r.reference),
          ("mutable", .bool r.mutable), ("lifetime", .option .text r.lifetime),
          ("ty", Ty.document? r.ty), ("text", r.place.textDocument source)]
  | .typed i =>
      NodeKind.typedInput.document i.place
        [("attrs", Attribute.documents source i.attributes), ("pat", i.pattern.document),
          ("ty", i.ty.document)]

def Member.document : Member Span → Document
  | .method m =>
      NodeKind.method.document m.place
        [("attrs", Attribute.documents source m.attributes), ("vis", m.visibility.document),
          ("name", .text m.name), ("generics", m.generics.document),
          ("inputs", .list (m.inputs.map (·.document source))),
          ("output", Ty.document? m.output), ("qualifiers", .texts m.qualifiers),
          ("text", m.place.textDocument source)]
  | .other m =>
      NodeKind.otherMember.document m.place
        [("attrs", Attribute.documents source m.attributes), ("kind", .text m.kind),
          ("text", m.place.textDocument source)]

def Item.document : Item Span → Document
  | .struct s =>
      NodeKind.struct.document s.place
        [("attrs", Attribute.documents source s.attributes), ("vis", s.visibility.document),
          ("name", .text s.name), ("generics", s.generics.document),
          ("fields", .list (s.fields.map (·.document source))), ("style", .text s.style.name),
          ("text", s.place.textDocument source)]
  | .impl i =>
      NodeKind.impl.document i.place
        [("attrs", Attribute.documents source i.attributes), ("generics", i.generics.document),
          ("self_ty", i.selfTy.document), ("trait", .option (·.document) i.trait),
          ("negative", .bool i.negative), ("unsafe", .bool i.markedUnsafe),
          ("items", .list (i.members.map (·.document source))),
          ("text", i.place.textDocument source)]
  | .other i =>
      NodeKind.otherItem.document i.place
        [("attrs", Attribute.documents source i.attributes), ("vis", i.visibility.document),
          ("kind", .text i.kind), ("name", .option .text i.name),
          ("text", i.place.textDocument source)]

end Items

end ActorGlue
