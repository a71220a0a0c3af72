import ActorGlue.Tree.Type

/-!
# Item trees

Structures, implementation blocks and all other items, with the parts that declarations are made
of. As in type trees, every node carries a place of type `σ`; a node that is not written, such as
an inherited visibility, has none. Texts that are slices of the source are not stored.
-/

namespace ActorGlue

/-- What an attribute has after its path: nothing, a delimited group, or a value, which may be
empty. -/
inductive AttributeInput (σ : Type) where
  | word
  | list (group : σ)
  | value (content : Option σ)
  deriving DecidableEq, Repr

/-- An attribute of a declaration. -/
structure Attribute (σ : Type) where
  place : σ
  qualifier : List String
  name : String
  inner : Bool
  input : AttributeInput σ
  deriving DecidableEq, Repr

/-- Who may use a declaration. -/
inductive Visibility (σ : Type) where
  | inherited
  | everyone (place : σ)
  | restricted (place : σ) (text : String)
  deriving DecidableEq, Repr

/-- Visible to everyone. -/
def Visibility.isPublic {σ : Type} : Visibility σ → Bool
  | .everyone _ => true
  | _ => false

/-- The kinds of generic parameters. -/
inductive ParamKind where
  | lifetime
  | const
  | type
  deriving DecidableEq, Repr

/-- A generic parameter. -/
structure GenericParam (σ : Type) where
  place : σ
  kind : ParamKind
  name : String
  deriving DecidableEq, Repr

/-- The generic parameters of a declaration and its where clause. The place is that of the angle
brackets. -/
structure Generics (σ : Type) where
  place : Option σ := none
  params : List (GenericParam σ) := []
  whereClause : String := ""
  deriving DecidableEq, Repr

/-- A field of a structure. -/
structure Field (σ : Type) where
  place : σ
  attributes : List (Attribute σ)
  visibility : Visibility σ
  name : Option String
  ty : Ty σ

/-- How the fields of a structure are written. -/
inductive FieldStyle where
  | named
  | tuple
  | unit
  deriving DecidableEq, Repr

/-- A structure declaration. -/
structure StructItem (σ : Type) where
  place : σ
  attributes : List (Attribute σ)
  visibility : Visibility σ
  name : String
  generics : Generics σ
  fields : List (Field σ)
  style : FieldStyle

/-- The pattern of a parameter. -/
inductive Pattern (σ : Type) where
  | ident (place : σ) (name : String) (mutable byRef : Bool) (subpattern : Option String)
  | other (place : σ) (text : String)
  deriving DecidableEq, Repr

/-- The receiver of a method. -/
structure Receiver (σ : Type) where
  place : σ
  attributes : List (Attribute σ)
  reference : Bool
  mutable : Bool
  lifetime : Option String
  ty : Option (Ty σ)

/-- A parameter of a method that is not a receiver. -/
structure TypedInput (σ : Type) where
  place : σ
  attributes : List (Attribute σ)
  pattern : Pattern σ
  ty : Ty σ

/-- An input of a method. -/
inductive MethodInput (σ : Type) where
  | receiver (receiver : Receiver σ)
  | typed (input : TypedInput σ)

/-- A method of an implementation block. -/
structure Method (σ : Type) where
  place : σ
  attributes : List (Attribute σ)
  visibility : Visibility σ
  name : String
  generics : Generics σ
  inputs : List (MethodInput σ)
  output : Option (Ty σ)
  qualifiers : List String

/-- A member of an implementation block that is no method. -/
structure OtherMember (σ : Type) where
  place : σ
  attributes : List (Attribute σ)
  kind : String
  deriving DecidableEq, Repr

/-- A member of an implementation block. -/
inductive Member (σ : Type) where
  | method (method : Method σ)
  | other (member : OtherMember σ)

/-- An implementation block. -/
structure ImplItem (σ : Type) where
  place : σ
  attributes : List (Attribute σ)
  generics : Generics σ
  selfTy : Ty σ
  trait : Option (TyPath σ)
  negative : Bool
  markedUnsafe : Bool
  members : List (Member σ)

/-- Any other item, of which only the kind and the name are kept. -/
structure OtherItem (σ : Type) where
  place : σ
  attributes : List (Attribute σ)
  visibility : Visibility σ
  kind : String
  name : Option String
  deriving DecidableEq, Repr

inductive Item (σ : Type) where
  | struct (item : StructItem σ)
  | impl (item : ImplItem σ)
  | other (item : OtherItem σ)

namespace Item

def place {σ : Type} : Item σ → σ
  | .struct item => item.place
  | .impl item => item.place
  | .other item => item.place

def attributes {σ : Type} : Item σ → List (Attribute σ)
  | .struct item => item.attributes
  | .impl item => item.attributes
  | .other item => item.attributes

end Item

variable {σ τ : Type} (f : σ → τ)

/-- The input with its place mapped. -/
def AttributeInput.map : AttributeInput σ → AttributeInput τ
  | .word => .word
  | .list group => .list (f group)
  | .value content => .value (content.map f)

/-- The attribute with every place mapped. -/
def Attribute.map (a : Attribute σ) : Attribute τ :=
  ⟨f a.place, a.qualifier, a.name, a.inner, a.input.map f⟩

/-- The visibility with its place mapped. -/
def Visibility.map : Visibility σ → Visibility τ
  | .inherited => .inherited
  | .everyone place => .everyone (f place)
  | .restricted place text => .restricted (f place) text

/-- The parameter with its place mapped. -/
def GenericParam.map (p : GenericParam σ) : GenericParam τ :=
  ⟨f p.place, p.kind, p.name⟩

/-- The generics with every place mapped. -/
def Generics.map (g : Generics σ) : Generics τ :=
  ⟨g.place.map f, g.params.map (·.map f), g.whereClause⟩

/-- The field with every place mapped. -/
def Field.map (d : Field σ) : Field τ :=
  ⟨f d.place, d.attributes.map (·.map f), d.visibility.map f, d.name, d.ty.map f⟩

/-- The structure with every place mapped. -/
def StructItem.map (s : StructItem σ) : StructItem τ :=
  ⟨f s.place, s.attributes.map (·.map f), s.visibility.map f, s.name, s.generics.map f,
    s.fields.map (·.map f), s.style⟩

/-- The pattern with its place mapped. -/
def Pattern.map : Pattern σ → Pattern τ
  | .ident place name mutable byRef subpattern => .ident (f place) name mutable byRef subpattern
  | .other place text => .other (f place) text

/-- The receiver with every place mapped. -/
def Receiver.map (r : Receiver σ) : Receiver τ :=
  ⟨f r.place, r.attributes.map (·.map f), r.reference, r.mutable, r.lifetime, r.ty.map (·.map f)⟩

/-- The parameter with every place mapped. -/
def TypedInput.map (i : TypedInput σ) : TypedInput τ :=
  ⟨f i.place, i.attributes.map (·.map f), i.pattern.map f, i.ty.map f⟩

/-- The input with every place mapped. -/
def MethodInput.map : MethodInput σ → MethodInput τ
  | .receiver r => .receiver (r.map f)
  | .typed i => .typed (i.map f)

/-- The method with every place mapped. -/
def Method.map (m : Method σ) : Method τ :=
  ⟨f m.place, m.attributes.map (·.map f), m.visibility.map f, m.name, m.generics.map f,
    m.inputs.map (·.map f), m.output.map (·.map f), m.qualifiers⟩

/-- The member with every place mapped. -/
def OtherMember.map (m : OtherMember σ) : OtherMember τ :=
  ⟨f m.place, m.attributes.map (·.map f), m.kind⟩

/-- The member with every place mapped. -/
def Member.map : Member σ → Member τ
  | .method m => .method (m.map f)
  | .other m => .other (m.map f)

/-- The implementation block with every place mapped. -/
def ImplItem.map (i : ImplItem σ) : ImplItem τ :=
  ⟨f i.place, i.attributes.map (·.map f), i.generics.map f, i.selfTy.map f,
    i.trait.map (·.map f), i.negative, i.markedUnsafe, i.members.map (·.map f)⟩

/-- The item with every place mapped. -/
def OtherItem.map (i : OtherItem σ) : OtherItem τ :=
  ⟨f i.place, i.attributes.map (·.map f), i.visibility.map f, i.kind, i.name⟩

/-- The item with every place mapped. -/
def Item.map : Item σ → Item τ
  | .struct item => .struct (item.map f)
  | .impl item => .impl (item.map f)
  | .other item => .other (item.map f)

end ActorGlue
