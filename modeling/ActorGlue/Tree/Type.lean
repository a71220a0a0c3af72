/-!
# Type trees

The trees of type expressions. Every node carries a place of type `σ`: the parser leaves the
tokens a node covers there, and later stages the characters. `Ty.map` changes the places and
nothing else, so mapping them all to one value gives the shape of a type.
-/

namespace ActorGlue

mutual

/-- A type expression. -/
inductive Ty (σ : Type) where
  | path (path : TyPath σ)
  | array (place : σ) (elem : Ty σ) (length : String)
  | slice (place : σ) (elem : Ty σ)
  | paren (place : σ) (elem : Ty σ)
  | tuple (place : σ) (elems : List (Ty σ))
  | reference (place : σ) (elem : Ty σ) (lifetime : Option String) (mutable : Bool)
  | pointer (place : σ) (elem : Ty σ) (mutable : Bool)
  | never (place : σ)
  | infer (place : σ)
  | implTrait (place : σ) (bounds : List (Bound σ))
  | traitObject (place : σ) (bounds : List (Bound σ)) (dyn : Bool)
  | bareFn (place : σ) (inputs : List (Ty σ)) (output : Option (Ty σ)) (text : String)
  | invocation (place : σ) (path : TyPath σ) (text : String)
  | group (place : σ) (elem : Ty σ)
  | verbatim (place : σ) (text : String)

/-- A path, possibly under a qualified self type. -/
inductive TyPath (σ : Type) where
  | mk (place : σ) (head : PathHead σ) (segments : List (Segment σ))

/-- How a path begins: with its first segment, with a double colon, or with a self type in angle
brackets, perhaps seen as a trait. -/
inductive PathHead (σ : Type) where
  | relative
  | rooted
  | self (place : σ) (ty : Ty σ)
  | selfAs (place : σ) (ty : Ty σ) (trait : TyPath σ)

/-- One segment of a path. -/
inductive Segment (σ : Type) where
  | mk (place : σ) (ident : String) (args : SegmentArgs σ)

/-- The arguments of a segment. -/
inductive SegmentArgs (σ : Type) where
  | absent
  | angle (place : σ) (args : List (GenericArg σ))
  | call (place : σ) (inputs : List (Ty σ)) (output : Option (Ty σ))

/-- An argument in angle brackets. -/
inductive GenericArg (σ : Type) where
  | lifetime (place : σ) (name : String)
  | type (place : σ) (ty : Ty σ)
  | binding (place : σ) (name : String) (ty : Ty σ)
  | constraint (place : σ) (name : String) (bounds : List (Bound σ))
  | const (place : σ) (expr : String)

/-- A bound: a trait, perhaps optional and with lifetimes of its own, or a lifetime. -/
inductive Bound (σ : Type) where
  | trait (place : σ) (path : TyPath σ) (optional : Bool) (lifetimes : String)
  | lifetime (place : σ) (name : String)

end

def TyPath.place {σ : Type} : TyPath σ → σ
  | .mk place _ _ => place

def Ty.place {σ : Type} : Ty σ → σ
  | .path p => p.place
  | .array place .. | .slice place .. | .paren place .. | .tuple place .. | .reference place ..
  | .pointer place .. | .never place | .infer place | .implTrait place .. | .traitObject place ..
  | .bareFn place .. | .invocation place .. | .group place .. | .verbatim place .. => place

mutual

/-- The type with every place mapped. -/
def Ty.map {σ τ : Type} (f : σ → τ) : Ty σ → Ty τ
  | .path p => .path (p.map f)
  | .array place elem length => .array (f place) (elem.map f) length
  | .slice place elem => .slice (f place) (elem.map f)
  | .paren place elem => .paren (f place) (elem.map f)
  | .tuple place elems => .tuple (f place) (Ty.mapAll f elems)
  | .reference place elem lifetime mutable =>
      .reference (f place) (elem.map f) lifetime mutable
  | .pointer place elem mutable => .pointer (f place) (elem.map f) mutable
  | .never place => .never (f place)
  | .infer place => .infer (f place)
  | .implTrait place bounds => .implTrait (f place) (Bound.mapAll f bounds)
  | .traitObject place bounds dyn => .traitObject (f place) (Bound.mapAll f bounds) dyn
  | .bareFn place inputs output text =>
      .bareFn (f place) (Ty.mapAll f inputs) (Ty.map? f output) text
  | .invocation place p text => .invocation (f place) (p.map f) text
  | .group place elem => .group (f place) (elem.map f)
  | .verbatim place text => .verbatim (f place) text

/-- Maps the places of several types. -/
def Ty.mapAll {σ τ : Type} (f : σ → τ) : List (Ty σ) → List (Ty τ)
  | [] => []
  | ty :: rest => ty.map f :: Ty.mapAll f rest

/-- Maps the places of a type that may be missing. -/
def Ty.map? {σ τ : Type} (f : σ → τ) : Option (Ty σ) → Option (Ty τ)
  | none => none
  | some ty => some (ty.map f)

/-- The path with every place mapped. -/
def TyPath.map {σ τ : Type} (f : σ → τ) : TyPath σ → TyPath τ
  | .mk place head segments => .mk (f place) (head.map f) (Segment.mapAll f segments)

/-- The head with every place mapped. -/
def PathHead.map {σ τ : Type} (f : σ → τ) : PathHead σ → PathHead τ
  | .relative => .relative
  | .rooted => .rooted
  | .self place ty => .self (f place) (ty.map f)
  | .selfAs place ty trait => .selfAs (f place) (ty.map f) (trait.map f)

/-- The segment with every place mapped. -/
def Segment.map {σ τ : Type} (f : σ → τ) : Segment σ → Segment τ
  | .mk place ident args => .mk (f place) ident (args.map f)

/-- Maps the places of several segments. -/
def Segment.mapAll {σ τ : Type} (f : σ → τ) : List (Segment σ) → List (Segment τ)
  | [] => []
  | segment :: rest => segment.map f :: Segment.mapAll f rest

/-- The arguments with every place mapped. -/
def SegmentArgs.map {σ τ : Type} (f : σ → τ) : SegmentArgs σ → SegmentArgs τ
  | .absent => .absent
  | .angle place args => .angle (f place) (GenericArg.mapAll f args)
  | .call place inputs output => .call (f place) (Ty.mapAll f inputs) (Ty.map? f output)

/-- The argument with every place mapped. -/
def GenericArg.map {σ τ : Type} (f : σ → τ) : GenericArg σ → GenericArg τ
  | .lifetime place name => .lifetime (f place) name
  | .type place ty => .type (f place) (ty.map f)
  | .binding place name ty => .binding (f place) name (ty.map f)
  | .constraint place name bounds => .constraint (f place) name (Bound.mapAll f bounds)
  | .const place expr => .const (f place) expr

/-- Maps the places of several arguments. -/
def GenericArg.mapAll {σ τ : Type} (f : σ → τ) : List (GenericArg σ) → List (GenericArg τ)
  | [] => []
  | arg :: rest => arg.map f :: GenericArg.mapAll f rest

/-- The bound with every place mapped. -/
def Bound.map {σ τ : Type} (f : σ → τ) : Bound σ → Bound τ
  | .trait place path optional lifetimes => .trait (f place) (path.map f) optional lifetimes
  | .lifetime place name => .lifetime (f place) name

/-- Maps the places of several bounds. -/
def Bound.mapAll {σ τ : Type} (f : σ → τ) : List (Bound σ) → List (Bound τ)
  | [] => []
  | bound :: rest => bound.map f :: Bound.mapAll f rest

end

/-- The type without its places. -/
def Ty.shape {σ : Type} (ty : Ty σ) : Ty Unit :=
  ty.map fun _ => ()

/-- The type wrapped in invisible delimiters the given number of times. -/
def Ty.wrap {σ : Type} (ty : Ty σ) : Nat → Ty σ
  | 0 => ty
  | n + 1 => .group ty.place (ty.wrap n)

end ActorGlue
