import ActorGlue.Parse.Type
import ActorGlue.Tree.Item

/-!
# Parsing items

Structures and implementation blocks are read in full; bodies and all other items are only
delimited.
-/

namespace ActorGlue.Parse

/-- The words of a path after the first. -/
def pathWords : Parser (List String) := do
  if ← eat "::" then
    many do
      let word ← expectIdent "a path segment"
      return ([word], ← eat "::")
  else pure []

/-- The qualifiers and the last word of a path. -/
def splitWords (first : String) (others : List String) : List String × String :=
  match others.getLast? with
  | none => ([], first)
  | some last => (first :: others.dropLast, last)

/-- A path of plain words: its qualifiers and its last word. -/
def wordPath : Parser (List String × String) := do
  let _ ← eat "::"
  let first ← expectIdent "an attribute path"
  let others ← pathWords
  return splitWords first others

/-- What an attribute has after its path. -/
def attributeInput : Parser (AttributeInput Extent) := do
  let before ← mark
  if (← peek).any (·.closer?.isSome) then
    let _ ← group
    return .list (← extentFrom before)
  else if ← eat "=" then
    let before ← mark
    let value ← collectUntil ["]"]
    let extent ← extentFrom before
    return .value (if value.isEmpty then none else some extent)
  else return .word

/-- An attribute after its mark, in front of the bracket that ends it. -/
def attributeFront : Parser (Bool × (List String × String) × AttributeInput Extent) := do
  let inner ← eat "!"
  expect "["
  let words ← wordPath
  return (inner, words, ← attributeInput)

/-- An attribute from behind its `#` on. -/
def attributeRest (before : Nat) : Parser (Attribute Extent) := do
  let front ← attributeFront
  expect "]"
  return ⟨← extentFrom before, front.2.1.1, front.2.1.2, front.1, front.2.2⟩

def oneAttribute : Parser (Attribute Extent) := do
  let before ← mark
  skip 1
  attributeRest before

/-- One step through attributes. -/
def attributeStep (innerOnly : Bool) : Parser (List (Attribute Extent) × Bool) := do
  if (← at? "#") && (!innerOnly || (← at? "!" 1)) then return ([← oneAttribute], true)
  else return ([], false)

/-- All attributes here, or only the inner ones. -/
def attributes (innerOnly : Bool := false) : Parser (List (Attribute Extent)) :=
  many (attributeStep innerOnly)

/-- What follows the opening parenthesis restricts a visibility. -/
def isRestriction : List Lexeme → Bool
  | inner :: rest =>
      inner.text = "in" ||
        (["crate", "self", "super"].contains inner.text && rest.head?.any (·.is ")"))
  | [] => false

/-- A visibility, perhaps the inherited one. -/
def visibility : Parser (Visibility Extent) := do
  let start ← get
  let before := start.length
  match start with
  | [] => return .inherited
  | lexeme :: _ =>
      if lexeme.isIdent "pub" then
        skip 1
        let everyone ← extentFrom before
        if (← at? "(") && isRestriction ((← get).drop 1) then
          let _ ← group
          return .restricted (← extentFrom before) (Lexeme.join (← readSince start))
        return .everyone everyone
      else if lexeme.isIdent "crate" && !(← at? "::" 1) then
        skip 1
        return .restricted (← extentFrom before) "crate"
      else return .inherited

/-- A generic parameter after its attributes, with its bounds and default. -/
def paramRest : Parser (GenericParam Extent) := do
  let before ← mark
  match ← peek with
  | none => refuse "a generic parameter"
  | some lexeme =>
      let param ←
        if lexeme.kind = .lifetime then
          skip 1
          pure ⟨← extentFrom before, .lifetime, lexeme.text⟩
        else if lexeme.isIdent "const" then
          skip 1
          let name ← expectIdent "a const parameter name"
          pure ⟨← extentFrom before, .const, name⟩
        else
          let name ← expectIdent "a generic parameter"
          pure ⟨← extentFrom before, .type, name⟩
      let _ ← collectUntil [",", ">"] true
      return param

def genericParam : Parser (GenericParam Extent) := do
  let _ ← attributes
  paramRest

/-- Generic parameters in angle brackets, if there are any. -/
def generics : Parser (Generics Extent) := do
  let before ← mark
  unless ← eat "<" do return (Generics.mk none [] "")
  let params ← separated "," (at? ">") genericParam
  expect ">" "'>' to close generic parameters"
  return ⟨some (← extentFrom before), params, ""⟩

/-- The generics with the where clause here, if there is one. -/
def whereClause (generics : Generics Extent) : Parser (Generics Extent) := do
  if ← eat "where" then
    let clause ← collectUntil ["\x7b", ";"]
    return { generics with whereClause := Lexeme.join clause }
  else return generics

/-- The name of a field, if it has one, and the colon behind it. -/
def fieldName (named : Bool) : Parser (Option String) := do
  if named then
    let name ← expectIdent "a field name"
    expect ":" "':' after field name"
    return some name
  else return none

def field (named : Bool) : Parser (Field Extent) := do
  let before ← mark
  let attributes ← attributes
  let visibility ← visibility
  let name ← fieldName named
  let ty ← ty
  return ⟨← extentFrom before, attributes, visibility, name, ty⟩

/-- The mark that ends a structure. -/
def closerOf : FieldStyle → String
  | .named => "\x7d"
  | .tuple | .unit => ";"

/-- What is said if a structure does not end. -/
def wantedOf : FieldStyle → String
  | .named => "'\x7d' to close structure fields"
  | .tuple => "';' after tuple structure"
  | .unit => "'\x7b', '(' or ';' after structure name"

/-- The fields of a structure, in front of the mark that ends it. -/
def structBody (generics : Generics Extent) :
    Parser (Generics Extent × List (Field Extent) × FieldStyle) := do
  if ← eat "\x7b" then
    let fields ← separated "," (at? "\x7d") (field true)
    return (generics, fields, .named)
  else if ← eat "(" then
    let fields ← separated "," (at? ")") (field false)
    expect ")" "')' to close tuple fields"
    let generics ← whereClause generics
    return (generics, fields, .tuple)
  else return (generics, [], .unit)

/-- A structure, in front of the mark that ends it. -/
def structFront : Parser (String × Generics Extent × List (Field Extent) × FieldStyle) := do
  expect "struct"
  let name ← expectIdent "a structure name"
  let generics ← whereClause (← generics)
  let body ← structBody generics
  return (name, body)

/-- A structure, whose attributes and visibility were read from the given mark on. -/
def structItem (before : Nat) (attributes : List (Attribute Extent))
    (visibility : Visibility Extent) : Parser (StructItem Extent) := do
  let front ← structFront
  expect (closerOf front.2.2.2) (wantedOf front.2.2.2)
  return ⟨← extentFrom before, attributes, visibility, front.1, front.2.1, front.2.2.1,
    front.2.2.2⟩

/-- A pattern that is no name, kept as text. -/
def otherPattern (before : Nat) : Parser (Pattern Extent) := do
  let found ← collectUntil [":"]
  if found.isEmpty then refuse "a parameter pattern"
  return .other (← extentFrom before) (Lexeme.join found)

/-- A pattern after its name. -/
def namedPattern (before : Nat) (name : String) (mutable byRef : Bool) :
    Parser (Pattern Extent) := do
  let subpattern ←
    if ← eat "@" then pure (some (Lexeme.join (← collectUntil [":"]))) else pure none
  return .ident (← extentFrom before) name mutable byRef subpattern

/-- The pattern of a parameter. -/
def pattern : Parser (Pattern Extent) := do
  let before ← mark
  let byRef ← at? "ref"
  let distance := if byRef then 1 else 0
  let mutable ← at? "mut" distance
  let distance := if mutable then distance + 1 else distance
  let name ← peekAt distance
  let next ← peekAt (distance + 1)
  match name with
  | none => otherPattern before
  | some lexeme =>
      if lexeme.kind = .ident && lexeme.text ≠ "_" && next.all (·.isPunctOf [":", "@"]) then
        skip (distance + 1)
        namedPattern before lexeme.text mutable byRef
      else otherPattern before

/-- The word at the given distance is a receiver rather than the start of a path. -/
def atSelf (distance : Nat) : Parser Bool := do
  return (← at? "self" distance) && !(← at? "::" (distance + 1))

/-- An input of a method that is no reference to the receiver. -/
def plainInput (start before : Nat) (attributes : List (Attribute Extent)) (first : Lexeme) :
    Parser (MethodInput Extent) := do
  let mutable := first.isIdent "mut" && (← at? "self" 1)
  let distance := if mutable then 1 else 0
  if ← atSelf distance then
    skip (distance + 1)
    let ty ← if ← eat ":" then pure (some (← ty)) else pure none
    return .receiver ⟨← extentFrom before, attributes, false, mutable, none, ty⟩
  else
    let pattern ← pattern
    expect ":" "':' after parameter pattern"
    let ty ← ty
    return .typed ⟨← extentFrom start, attributes, pattern, ty⟩

/-- An input of a method after its attributes. -/
def inputRest (start : Nat) (attributes : List (Attribute Extent)) :
    Parser (MethodInput Extent) := do
  let before ← mark
  match ← peek with
  | none => refuse "a method parameter"
  | some first =>
      if first.isPunct "&" then
        let lifetime := (← peekAt 1).filter (·.kind = .lifetime)
        let distance := if lifetime.isSome then 2 else 1
        let mutable ← at? "mut" distance
        let distance := if mutable then distance + 1 else distance
        if ← atSelf distance then
          skip (distance + 1)
          return .receiver
            ⟨← extentFrom before, attributes, true, mutable, lifetime.map (·.text), none⟩
        else plainInput start before attributes first
      else plainInput start before attributes first

def methodInput : Parser (MethodInput Extent) := do
  let start ← mark
  let attributes ← attributes
  inputRest start attributes

/-- The body of a method, or the semicolon in its place. -/
def methodBody : Parser Unit := do
  if ← at? "\x7b" then
    let _ ← group
  else expect ";" "method body or ';'"

/-- A method, whose attributes, visibility and qualifiers were read from the given mark on. -/
def method (before : Nat) (attributes : List (Attribute Extent))
    (visibility : Visibility Extent) (qualifiers : List String) : Parser (Method Extent) := do
  expect "fn"
  let name ← expectIdent "a method name"
  let generics ← generics
  expect "(" "'(' to open method parameters"
  let inputs ← separated "," (at? ")") methodInput
  expect ")" "')' to close method parameters"
  let output ← output? ty
  let generics ← whereClause generics
  methodBody
  return ⟨← extentFrom before, attributes, visibility, name, generics, inputs, output,
    qualifiers⟩

/-- How many of the lexemes qualify a method. -/
def qualifierCount : List Lexeme → Nat
  | [] => 0
  | lexeme :: rest =>
      if lexeme.kind = .ident && ["const", "async", "unsafe"].contains lexeme.text then
        1 + qualifierCount rest
      else if lexeme.isIdent "extern" then
        match rest with
        | [] => 1
        | next :: after =>
            if next.kind = .str then 2 + qualifierCount after else 1 + qualifierCount (next :: after)
      else 0

/-- The braces after a member, if there are any. -/
def memberBraces : Parser Unit := do
  if ← at? "\x7b" then
    let _ ← group

/-- A member that is no method, and its kind. -/
def otherMember : Parser String := do
  let first ← peek
  let bang ← at? "!" 1
  if first.any (·.text = "macro") || (first.isSome && bang) then
    let _ ← collectUntil [";", "\x7b"]
    memberBraces
    let _ ← eat ";"
    return "macro"
  else
    let _ ← collectUntil [";"]
    expect ";" "';' after implementation item"
    return (first.map (·.text)).getD "item"

/-- A member after its attributes, its visibility and the word for a default. -/
def memberRest (before : Nat) (attributes : List (Attribute Extent))
    (visibility : Visibility Extent) : Parser (Member Extent) := do
  let ahead ← get
  if ← at? "fn" (qualifierCount ahead) then
    skip (qualifierCount ahead)
    return .method (← method before attributes visibility
      ((ahead.take (qualifierCount ahead)).map (·.text)))
  else
    let kind ← otherMember
    return .other ⟨← extentFrom before, attributes, kind⟩

/-- A member of an implementation block. -/
def member : Parser (Member Extent) := do
  let before ← mark
  let attributes ← attributes
  let visibility ← visibility
  let _ ← eat "default"
  memberRest before attributes visibility

/-- One step through the members of an implementation block. -/
def memberStep : Parser (List (Member Extent) × Bool) := do
  if ← at? "\x7d" then return ([], false)
  if (← get).isEmpty then refuse "'\x7d' to close implementation body"
  return ([← member], true)

/-- The members of an implementation block up to its closing brace. -/
def members : Parser (List (Member Extent)) :=
  many memberStep

/-- The generic parameters of an implementation block, which are no qualified path. -/
def implGenerics : Parser (Generics Extent) := do
  if (← at? "<") && !(← peekAt 1).any (·.isPunct "<") then generics
  else pure (Generics.mk none [] "")

/-- The trait and the type of an implementation block, where the trait must be a path. -/
def traitAndType : Ty Extent → Parser (Option (TyPath Extent) × Ty Extent)
  | .path path => do return (some path, ← ty false)
  | other => throw (.notTraitPath other.place)

/-- The trait of an implementation block that begins with a type, if it has one, and its type. -/
def implTarget (negative : Bool) (first : Ty Extent) :
    Parser (Option (TyPath Extent) × Ty Extent) := do
  if ← eat "for" then traitAndType first
  else if negative then refuse "'for' after negative trait"
  else pure (none, first)

/-- The trait of an implementation block, if it has one, and its type. -/
def implTypes (negative : Bool) : Parser (Option (TyPath Extent) × Ty Extent) := do
  let first ← ty false
  implTarget negative first

/-- The body of an implementation block. -/
def implBody : Parser (List (Member Extent)) := do
  expect "\x7b" "'\x7b' to open implementation body"
  let _ ← attributes true
  members

/-- An implementation block, in front of the brace that ends it. -/
def implFront : Parser (Bool × Generics Extent × (Option (TyPath Extent) × Ty Extent) × Bool ×
    List (Member Extent)) := do
  let _ ← eat "default"
  let markedUnsafe ← eat "unsafe"
  expect "impl"
  let generics ← implGenerics
  let bang ← at? "!"
  let word ← kindAt? .ident 1
  skip (if bang && word then 1 else 0)
  let target ← implTypes (bang && word)
  let generics ← whereClause generics
  let members ← implBody
  return (markedUnsafe, generics, target, bang && word, members)

/-- An implementation block, whose attributes were read from the given mark on. -/
def implItem (before : Nat) (attributes : List (Attribute Extent)) :
    Parser (ImplItem Extent) := do
  let front ← implFront
  expect "\x7d"
  return ⟨← extentFrom before, attributes, front.2.1, front.2.2.1.2, front.2.2.1.1,
    front.2.2.2.1, front.1, front.2.2.2.2⟩

/-- Keywords of items that end with a semicolon. -/
def semicolonKinds : List String := ["const", "static", "use", "type", "crate"]

/-- Keywords of items that end with a body or a semicolon. -/
def bodyKinds : List String := ["fn", "enum", "trait", "mod", "union", "macro", "extern"]

/-- Words that may stand before an item's keyword. -/
def itemQualifiers : List String := ["async", "unsafe", "extern", "default"]

/-- Words before which `const` is a qualifier. -/
def fnQualifiers : List String := ["fn", "unsafe", "async", "extern"]

/-- The qualifiers before an item's keyword, the nearest first, and what follows them. -/
def splitQualifiers : List Lexeme → List Lexeme → List Lexeme × List Lexeme
  | passed, [] => (passed, [])
  | passed, lexeme :: rest =>
      let qualifies :=
        (lexeme.kind = .str && passed.head?.any (·.is "extern")) ||
          (lexeme.kind = .ident && itemQualifiers.contains lexeme.text) ||
          (lexeme.isIdent "const" && rest.head?.any fun next => fnQualifiers.contains next.text)
      if qualifies then splitQualifiers (lexeme :: passed) rest else (passed, lexeme :: rest)

/-- The kind and the name of an item, from its qualifiers, its keyword and what follows. -/
def itemKind (passed : List Lexeme) (keyword : Lexeme) (rest : List Lexeme) :
    String × Option String :=
  let name := (rest.head?.filter (·.kind = .ident)).map (·.text)
  if keyword.isPunct "\x7b" && (passed.take 2).any (·.is "extern") then ("extern", name)
  else if keyword.kind = .ident && rest.head?.any (·.is "!") then ("macro", some keyword.text)
  else (keyword.text, name)

/-- The braces that end an item, and the semicolon after them for an invocation. -/
def bodyBraces (kind : String) : Parser (List Unit × Bool) := do
  let _ ← group
  if kind = "macro" then
    let _ ← eat ";"
  return ([], false)

/-- One step through the body of an item, at the given lexeme. -/
def bodyStepAt (kind : String) (lexeme : Lexeme) : Parser (List Unit × Bool) := do
  if lexeme.isPunct ";" then
    skip 1
    return ([], false)
  else if lexeme.isPunct "\x7b" then bodyBraces kind
  else if lexeme.closer?.isSome then
    let _ ← group
    return ([], true)
  else if lexeme.isCloser then
    throw (.mismatched lexeme.text (← mark))
  else
    skip 1
    return ([], true)

/-- One step through the body of an item. -/
def bodyStep (kind : String) : Parser (List Unit × Bool) := do
  match ← peek with
  | none => refuse ("a body for " ++ kind ++ " item")
  | some lexeme => bodyStepAt kind lexeme

/-- Takes the body of an item, through its braces or a semicolon. -/
def itemBody (kind : String) : Parser Unit := do
  let _ ← many (bodyStep kind)

/-- An item of another kind from its keyword on. -/
def otherRest (before : Nat) (attributes : List (Attribute Extent))
    (visibility : Visibility Extent) (passed : List Lexeme) (keyword : Lexeme)
    (rest : List Lexeme) : Parser (OtherItem Extent) := do
  let (kind, name) := itemKind passed keyword rest
  if semicolonKinds.contains kind then
    let _ ← collectUntil [";"]
    expect ";" ("';' after " ++ kind ++ " item")
  else if bodyKinds.contains kind then itemBody kind
  else throw (.unexpected "an item" (some keyword.text) (rest.length + 1))
  return ⟨← extentFrom before, attributes, visibility, kind, name⟩

/-- An item of another kind, whose attributes and visibility were read from the given mark on. -/
def otherItem (before : Nat) (attributes : List (Attribute Extent))
    (visibility : Visibility Extent) : Parser (OtherItem Extent) := do
  match splitQualifiers [] (← get) with
  | (_, []) => refuse "an item"
  | (passed, keyword :: rest) => otherRest before attributes visibility passed keyword rest

/-- An implementation block begins with the lexemes. -/
def startsImpl : List Lexeme → Bool
  | lexeme :: rest =>
      lexeme.isIdent "impl" ||
        (["unsafe", "default"].contains lexeme.text && rest.head?.any (·.is "impl")) ||
        (lexeme.isIdent "default" && rest.head?.any (·.is "unsafe") &&
          rest[1]?.any (·.is "impl"))
  | [] => false

/-- An item after its attributes and its visibility. -/
def itemRest (before : Nat) (attributes : List (Attribute Extent))
    (visibility : Visibility Extent) : Parser (Item Extent) := do
  let ahead ← get
  match ahead with
  | [] => refuse "an item"
  | lexeme :: _ =>
      if lexeme.isIdent "struct" then
        return .struct (← structItem before attributes visibility)
      else if startsImpl ahead then return .impl (← implItem before attributes)
      else return .other (← otherItem before attributes visibility)

def item : Parser (Item Extent) := do
  let before ← mark
  if before = 0 then refuse "an item"
  else
    let attributes ← attributes
    let visibility ← visibility
    itemRest before attributes visibility

/-- One step through the items of a file. -/
def fileStep : Parser (List (Item Extent) × Bool) := do
  if (← get).isEmpty then return ([], false)
  return ([← item], true)

/-- The items of a file, after its inner attributes. -/
def file : Parser (List (Item Extent)) := do
  let _ ← attributes true
  many fileStep

end ActorGlue.Parse
