import ActorGlue.Tree.Type

/-!
# Types as text

The normalized text of type trees. It depends on the shape of a type only.
-/

namespace ActorGlue

mutual

/-- The normalized text of a type. -/
def Ty.render {σ : Type} : Ty σ → String
  | .path p => p.render
  | .array _ elem length => "[" ++ elem.render ++ "; " ++ length ++ "]"
  | .slice _ elem => "[" ++ elem.render ++ "]"
  | .paren _ elem => "(" ++ elem.render ++ ")"
  | .tuple _ [elem] => "(" ++ elem.render ++ ",)"
  | .tuple _ elems => "(" ++ ", ".intercalate (Ty.renderAll elems) ++ ")"
  | .reference _ elem lifetime mutable =>
      "&" ++ (match lifetime with | some name => name ++ " " | none => "") ++
        (if mutable then "mut " else "") ++ elem.render
  | .pointer _ elem mutable => (if mutable then "*mut " else "*const ") ++ elem.render
  | .never _ => "!"
  | .infer _ => "_"
  | .implTrait _ bounds => "impl " ++ " + ".intercalate (Bound.renderAll bounds)
  | .traitObject _ bounds dyn =>
      (if dyn then "dyn " else "") ++ " + ".intercalate (Bound.renderAll bounds)
  | .bareFn _ _ _ text => text
  | .invocation _ _ text => text
  | .group _ elem => elem.render
  | .verbatim _ text => text

/-- The texts of several types. -/
def Ty.renderAll {σ : Type} : List (Ty σ) → List String
  | [] => []
  | ty :: rest => ty.render :: Ty.renderAll rest

/-- The text of a result type with its arrow. -/
def Ty.renderOutput {σ : Type} : Option (Ty σ) → String
  | none => ""
  | some ty => " -> " ++ ty.render

/-- The normalized text of a path. -/
def TyPath.render {σ : Type} : TyPath σ → String
  | .mk _ head segments => head.render ++ "::".intercalate (Segment.renderAll segments)

/-- The text of a head, through the colons that end it. -/
def PathHead.render {σ : Type} : PathHead σ → String
  | .relative => ""
  | .rooted => "::"
  | .self _ ty => "<" ++ ty.render ++ ">::"
  | .selfAs _ ty trait => "<" ++ ty.render ++ " as " ++ trait.render ++ ">::"

/-- The text of a segment with its arguments. -/
def Segment.render {σ : Type} : Segment σ → String
  | .mk _ ident args => ident ++ args.render

/-- The texts of several segments. -/
def Segment.renderAll {σ : Type} : List (Segment σ) → List String
  | [] => []
  | segment :: rest => segment.render :: Segment.renderAll rest

/-- The text of a segment's arguments. -/
def SegmentArgs.render {σ : Type} : SegmentArgs σ → String
  | .absent => ""
  | .angle _ args => "<" ++ ", ".intercalate (GenericArg.renderAll args) ++ ">"
  | .call _ inputs output =>
      "(" ++ ", ".intercalate (Ty.renderAll inputs) ++ ")" ++ Ty.renderOutput output

/-- The text of an argument in angle brackets. -/
def GenericArg.render {σ : Type} : GenericArg σ → String
  | .lifetime _ name => name
  | .type _ ty => ty.render
  | .binding _ name ty => name ++ " = " ++ ty.render
  | .constraint _ name bounds => name ++ ": " ++ " + ".intercalate (Bound.renderAll bounds)
  | .const _ expr => expr

/-- The texts of several arguments. -/
def GenericArg.renderAll {σ : Type} : List (GenericArg σ) → List String
  | [] => []
  | arg :: rest => arg.render :: GenericArg.renderAll rest

/-- The text of a bound. -/
def Bound.render {σ : Type} : Bound σ → String
  | .trait _ path optional lifetimes =>
      (if optional then "?" else "") ++
        (if lifetimes.isEmpty then "" else "for" ++ lifetimes ++ " ") ++ path.render
  | .lifetime _ name => name

/-- The texts of several bounds. -/
def Bound.renderAll {σ : Type} : List (Bound σ) → List String
  | [] => []
  | bound :: rest => bound.render :: Bound.renderAll rest

end

end ActorGlue
