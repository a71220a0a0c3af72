import ActorGlue.Token.Basic
import ActorGlue.Tree.Item
import ActorGlue.Tree.Render

/-!
# Outlines

The outline of a tree keeps, for every node, its kind, its place, its text and its children in
order. A node that is not written in the source has no place, and the connecting nodes have no
text of their own.
-/

namespace ActorGlue

/-- The kinds of nodes. -/
inductive NodeKind where
  | attribute
  | visibility
  | genericParam
  | generics
  | lifetimeArg
  | typeArg
  | bindingArg
  | constraintArg
  | constArg
  | angleArgs
  | callArgs
  | segment
  | qualifiedSelf
  | path
  | traitBound
  | lifetimeBound
  | array
  | slice
  | paren
  | tuple
  | reference
  | pointer
  | never
  | infer
  | implTrait
  | traitObject
  | bareFn
  | invocation
  | group
  | verbatim
  | field
  | struct
  | identPattern
  | otherPattern
  | receiver
  | typedInput
  | method
  | otherMember
  | impl
  | otherItem
  deriving DecidableEq, Repr

/-- The label under which nodes of a kind are shown. -/
def NodeKind.label : NodeKind → String
  | .attribute => "Attribute"
  | .visibility => "Visibility"
  | .genericParam => "GenericParam"
  | .generics => "Generics"
  | .lifetimeArg => "GenericLifetime"
  | .typeArg => "GenericType"
  | .bindingArg => "GenericBinding"
  | .constraintArg => "GenericConstraint"
  | .constArg => "GenericConst"
  | .angleArgs => "AngleBracketed"
  | .callArgs => "Parenthesized"
  | .segment => "PathSegment"
  | .qualifiedSelf => "QSelf"
  | .path => "TypePath"
  | .traitBound => "TraitBound"
  | .lifetimeBound => "LifetimeBound"
  | .array => "TypeArray"
  | .slice => "TypeSlice"
  | .paren => "TypeParen"
  | .tuple => "TypeTuple"
  | .reference => "TypeReference"
  | .pointer => "TypePtr"
  | .never => "TypeNever"
  | .infer => "TypeInfer"
  | .implTrait => "TypeImplTrait"
  | .traitObject => "TypeTraitObject"
  | .bareFn => "TypeBareFn"
  | .invocation => "TypeMacro"
  | .group => "TypeGroup"
  | .verbatim => "TypeVerbatim"
  | .field => "Field"
  | .struct => "ItemStruct"
  | .identPattern => "PatIdent"
  | .otherPattern => "PatOther"
  | .receiver => "Receiver"
  | .typedInput => "TypedArg"
  | .method => "ImplMethod"
  | .otherMember => "ImplOther"
  | .impl => "ItemImpl"
  | .otherItem => "ItemOther"

/-- The wording for nodes of a kind that have no text of their own. -/
def NodeKind.unrendered (kind : NodeKind) : String :=
  "cannot render " ++ kind.label

/-- The nodes of a tree without their own data. -/
inductive Outline (σ : Type) where
  | node (kind : NodeKind) (place : Option σ) (text : Option String)
      (children : List (Outline σ))

namespace Outline

/-- The kind of the top node. -/
def kind {σ : Type} : Outline σ → NodeKind
  | .node kind .. => kind

/-- The place of the top node. -/
def place {σ : Type} : Outline σ → Option σ
  | .node _ place .. => place

/-- The text of the top node. -/
def text {σ : Type} : Outline σ → Option String
  | .node _ _ text _ => text

/-- The children of the top node. -/
def children {σ : Type} : Outline σ → List (Outline σ)
  | .node _ _ _ children => children

mutual

/-- All nodes, each before its children. -/
def preorder {σ : Type} : Outline σ → List (Outline σ)
  | .node kind place text children => .node kind place text children :: preorderAll children

/-- All nodes of several trees. -/
def preorderAll {σ : Type} : List (Outline σ) → List (Outline σ)
  | [] => []
  | tree :: rest => tree.preorder ++ preorderAll rest

end

end Outline

mutual

def Ty.outline {σ : Type} : Ty σ → Outline σ
  | .path p => p.outline
  | .array place elem length =>
      .node .array place (Ty.array place elem length).render [elem.outline]
  | .slice place elem => .node .slice place (Ty.slice place elem).render [elem.outline]
  | .paren place elem => .node .paren place (Ty.paren place elem).render [elem.outline]
  | .tuple place elems => .node .tuple place (Ty.tuple place elems).render (Ty.outlineAll elems)
  | .reference place elem lifetime mutable =>
      .node .reference place (Ty.reference place elem lifetime mutable).render [elem.outline]
  | .pointer place elem mutable =>
      .node .pointer place (Ty.pointer place elem mutable).render [elem.outline]
  | .never place => .node .never place (Ty.never place).render []
  | .infer place => .node .infer place (Ty.infer place).render []
  | .implTrait place bounds =>
      .node .implTrait place (Ty.implTrait place bounds).render (Bound.outlineAll bounds)
  | .traitObject place bounds dyn =>
      .node .traitObject place (Ty.traitObject place bounds dyn).render (Bound.outlineAll bounds)
  | .bareFn place inputs output text =>
      .node .bareFn place text (Ty.outlineAll inputs ++ Ty.outline? output)
  | .invocation place p text => .node .invocation place text [p.outline]
  | .group place elem => .node .group place elem.render [elem.outline]
  | .verbatim place text => .node .verbatim place text []

/-- The outlines of several types. -/
def Ty.outlineAll {σ : Type} : List (Ty σ) → List (Outline σ)
  | [] => []
  | ty :: rest => ty.outline :: Ty.outlineAll rest

/-- The outline of a type that may be missing. -/
def Ty.outline? {σ : Type} : Option (Ty σ) → List (Outline σ)
  | none => []
  | some ty => [ty.outline]

def TyPath.outline {σ : Type} : TyPath σ → Outline σ
  | .mk place head segments =>
      .node .path place (TyPath.mk place head segments).render
        (Segment.outlineAll segments ++ head.outline)

/-- The outline of a qualified self type. -/
def PathHead.outline {σ : Type} : PathHead σ → List (Outline σ)
  | .relative | .rooted => []
  | .self place ty => [.node .qualifiedSelf place none [ty.outline]]
  | .selfAs place ty trait => [.node .qualifiedSelf place none [ty.outline, trait.outline]]

def Segment.outline {σ : Type} : Segment σ → Outline σ
  | .mk place _ args => .node .segment place none args.outline

/-- The outlines of several segments. -/
def Segment.outlineAll {σ : Type} : List (Segment σ) → List (Outline σ)
  | [] => []
  | segment :: rest => segment.outline :: Segment.outlineAll rest

/-- The outline of a segment's arguments. -/
def SegmentArgs.outline {σ : Type} : SegmentArgs σ → List (Outline σ)
  | .absent => []
  | .angle place args => [.node .angleArgs place none (GenericArg.outlineAll args)]
  | .call place inputs output =>
      [.node .callArgs place none (Ty.outlineAll inputs ++ Ty.outline? output)]

/-- The outline of an argument in angle brackets. -/
def GenericArg.outline {σ : Type} : GenericArg σ → Outline σ
  | .lifetime place name => .node .lifetimeArg place name []
  | .type place ty => .node .typeArg place ty.render [ty.outline]
  | .binding place name ty =>
      .node .bindingArg place (GenericArg.binding place name ty).render [ty.outline]
  | .constraint place name bounds =>
      .node .constraintArg place (GenericArg.constraint place name bounds).render
        (Bound.outlineAll bounds)
  | .const place expr => .node .constArg place expr []

/-- The outlines of several arguments. -/
def GenericArg.outlineAll {σ : Type} : List (GenericArg σ) → List (Outline σ)
  | [] => []
  | arg :: rest => arg.outline :: GenericArg.outlineAll rest

def Bound.outline {σ : Type} : Bound σ → Outline σ
  | .trait place path optional lifetimes =>
      .node .traitBound place (Bound.trait place path optional lifetimes).render [path.outline]
  | .lifetime place name => .node .lifetimeBound place name []

/-- The outlines of several bounds. -/
def Bound.outlineAll {σ : Type} : List (Bound σ) → List (Outline σ)
  | [] => []
  | bound :: rest => bound.outline :: Bound.outlineAll rest

end

/-- The text of a pattern. -/
def Pattern.render {σ : Type} : Pattern σ → String
  | .ident _ name mutable byRef subpattern =>
      (if byRef then "ref " else "") ++ (if mutable then "mut " else "") ++ name ++
        (match subpattern with
          | some text => if text.isEmpty then "" else " @ " ++ text
          | none => "")
  | .other _ text => text

def Visibility.text {σ : Type} : Visibility σ → String
  | .inherited => ""
  | .everyone _ => "pub"
  | .restricted _ text => text

section Items

variable {σ : Type} (slice : σ → String)

/-- The outline of an attribute, whose text is a slice of the source. -/
def Attribute.outline (a : Attribute σ) : Outline σ :=
  .node .attribute a.place (slice a.place) []

def Visibility.outline : Visibility σ → Outline σ
  | .inherited => .node .visibility none (some "") []
  | .everyone place => .node .visibility place (some "pub") []
  | .restricted place text => .node .visibility place text []

def Generics.outline (g : Generics σ) : Outline σ :=
  .node .generics g.place none
    (g.params.map fun param => .node .genericParam param.place none [])

def Field.outline (d : Field σ) : Outline σ :=
  .node .field d.place none
    (d.attributes.map (·.outline slice) ++ [d.visibility.outline, d.ty.outline])

def Pattern.outline : Pattern σ → Outline σ
  | .ident place name mutable byRef subpattern =>
      .node .identPattern place (Pattern.ident place name mutable byRef subpattern).render []
  | .other place text => .node .otherPattern place text []

def MethodInput.outline : MethodInput σ → Outline σ
  | .receiver r =>
      .node .receiver r.place (slice r.place)
        (r.attributes.map (·.outline slice) ++ Ty.outline? r.ty)
  | .typed i =>
      .node .typedInput i.place none
        (i.attributes.map (·.outline slice) ++ [i.pattern.outline, i.ty.outline])

def Member.outline : Member σ → Outline σ
  | .method m =>
      .node .method m.place (slice m.place)
        (m.attributes.map (·.outline slice) ++ [m.visibility.outline, m.generics.outline] ++
          m.inputs.map (·.outline slice) ++ Ty.outline? m.output)
  | .other m => .node .otherMember m.place (slice m.place) (m.attributes.map (·.outline slice))

def Item.outline : Item σ → Outline σ
  | .struct s =>
      .node .struct s.place (slice s.place)
        (s.attributes.map (·.outline slice) ++ [s.visibility.outline, s.generics.outline] ++
          s.fields.map (·.outline slice))
  | .impl i =>
      .node .impl i.place (slice i.place)
        (i.attributes.map (·.outline slice) ++ [i.generics.outline, i.selfTy.outline] ++
          (i.trait.map TyPath.outline).toList ++ i.members.map (·.outline slice))
  | .other i =>
      .node .otherItem i.place (slice i.place)
        (i.attributes.map (·.outline slice) ++ [i.visibility.outline])

end Items

end ActorGlue
