import ActorGlue.Diagnostic

/-!
# Annotations

An annotation is a list of directives `key = literal` for one of four targets: state and payload
structures take a codec, an actor takes a dispatch method, and an exported method takes its
binding.
-/

namespace ActorGlue

/-- Why something was not done: a diagnostic, or reading stopped for good. -/
inductive Failure where
  | reported (diagnostic : Diagnostic)
  | halted (halt : Halt)

/-- The failure of a parse as a diagnostic failure. -/
def ParseFailure.toFailure : ParseFailure → Failure
  | .rejected error => .reported (.ofParseError error)
  | .halted halt => .halted halt

/-- What an annotation is written on. -/
inductive Target where
  | state
  | payload
  | actor
  | method
  deriving DecidableEq, Repr

namespace Target

/-- The name of the annotation of a target. -/
def name : Target → String
  | .state => "fvm_state"
  | .payload => "fvm_payload"
  | .actor => "fvm_actor"
  | .method => "fvm_export"

/-- The targets that are whole items. -/
def items : List Target := [.state, .payload, .actor]

def all : List Target := items ++ [.method]

/-- The target with the given annotation name. -/
def ofName? (text : String) : Option Target :=
  all.find? (·.name = text)

/-- The target with the given annotation name that is a whole item. -/
def itemOfName? (text : String) : Option Target :=
  items.find? (·.name = text)

theorem ofName?_name (target : Target) : ofName? target.name = some target := by
  cases target <;> rfl

end Target

/-- A name of an unknown target, with the sort of name that was wanted. -/
structure UnknownName where
  text : String
  sort : String
  deriving DecidableEq, Repr

/-- The wording of an unknown name. -/
def UnknownName.message (unknown : UnknownName) : String :=
  Text.quoted unknown.text ++ " is not a valid " ++ unknown.sort

/-- The target with the given name, or the complaint about it. -/
def Target.ofName (text : String) : Except UnknownName Target :=
  match Target.ofName? text with
  | some target => .ok target
  | none => .error ⟨text, "AttrTarget"⟩

/-- The target with the given name that is a whole item, or the complaint about it. -/
def Target.itemOfName (text : String) : Except UnknownName Target :=
  match Target.itemOfName? text with
  | some target => .ok target
  | none => .error ⟨text, "MacroType"⟩

/-- The serialization format of persisted and wire structures. -/
inductive Codec where
  | dagCbor
  deriving DecidableEq, Repr

def Codec.name : Codec → String
  | .dagCbor => "dag-cbor"

def Codec.ofName? (text : String) : Option Codec :=
  if text = Codec.dagCbor.name then some .dagCbor else none

/-- How the generated entry point selects a method. -/
inductive Dispatch where
  | methodNumber
  deriving DecidableEq, Repr

def Dispatch.name : Dispatch → String
  | .methodNumber => "method-num"

def Dispatch.ofName? (text : String) : Option Dispatch :=
  if text = Dispatch.methodNumber.name then some .methodNumber else none

/-- What bindings look like under a dispatch method. -/
def Dispatch.bindingShape : Dispatch → String
  | .methodNumber => "u64"

/-- A method number of 64 bits. -/
structure MethodNumber where
  value : Nat
  bounded : value < Nat.pow 2 64
  deriving DecidableEq, Repr

/-- The method number of an integer in range. -/
def MethodNumber.ofInt? (n : Int) : Option MethodNumber :=
  if h : 0 ≤ n ∧ n.toNat < Nat.pow 2 64 then some ⟨n.toNat, h.2⟩ else none

/-- What a method is bound to. Dispatch by number accepts numbers only. -/
inductive Binding where
  | number (number : MethodNumber)
  | word (text : String)
  deriving DecidableEq, Repr

/-- What a directive sets. -/
inductive Setting where
  | codec (codec : Codec)
  | dispatch (dispatch : Dispatch)
  | binding (binding : Binding)
  deriving DecidableEq, Repr

/-- A setting and where it is written. -/
structure Directive where
  setting : Setting
  place : Option Place
  deriving DecidableEq, Repr

/-- The directives for one target, in order. Of several settings of one kind the first counts. -/
structure Annotation where
  target : Target
  directives : List Directive
  deriving DecidableEq, Repr

namespace Annotation

/-- The first codec, or the default one. -/
def codec (marks : Annotation) : Codec :=
  (marks.directives.findSome? fun directive =>
    match directive.setting with
    | .codec codec => some codec
    | _ => none).getD .dagCbor

/-- The first dispatch method, or the default one. -/
def dispatch (marks : Annotation) : Dispatch :=
  (marks.directives.findSome? fun directive =>
    match directive.setting with
    | .dispatch dispatch => some dispatch
    | _ => none).getD .methodNumber

/-- The first binding. -/
def binding? (marks : Annotation) : Option Binding :=
  marks.directives.findSome? fun directive =>
    match directive.setting with
    | .binding binding => some binding
    | _ => none

def bindingDocument : Binding → Document
  | .number number => .nat number.value
  | .word text => .text text

def directiveDocument (directive : Directive) : Document :=
  let (kind, value) : String × Document := match directive.setting with
    | .codec codec => ("CodecAttribute", .text codec.name)
    | .dispatch dispatch => ("DispatchAttribute", .text dispatch.name)
    | .binding binding => ("BindingAttribute", bindingDocument binding)
  .object [("kind", .text kind), ("value", value),
    ("span", .option (·.document) directive.place)]

def document (marks : Annotation) : Document :=
  .object [("target", .text marks.target.name), ("count", .nat marks.directives.length),
    ("attributes", .list (marks.directives.map directiveDocument)),
    ("codec", .text marks.codec.name), ("dispatch", .text marks.dispatch.name),
    ("binding", .option bindingDocument marks.binding?)]

/-- What the value of a key is read as. -/
inductive Key where
  | codec
  | dispatch
  | binding
  deriving DecidableEq, Repr

/-- The keys that a target takes. -/
def key? : Target → String → Option Key
  | .state, "codec" => some .codec
  | .payload, "codec" => some .codec
  | .actor, "dispatch" => some .dispatch
  | .method, "binding" => some .binding
  | .method, "method_num" => some .binding
  | _, _ => none

/-- The value of a string literal that is not a byte string. -/
def textValue? (literal : Lexeme) : Option String :=
  if literal.kind = .str && literal.text.toList.head? ≠ some 'b' then
    some (String.ofList (Text.literalValue literal.text.toList))
  else none

/-- The method number that an integer literal stands for. -/
def numberValue (literal : Lexeme) : Except Fault MethodNumber :=
  if literal.kind = .int then
    match Text.intLiteral literal.text.toList with
    | .ok n =>
        match MethodNumber.ofInt? n with
        | some number => .ok number
        | none => .error (.numericValue literal.text)
    | .error _ => .error (.numericValue literal.text)
  else .error .bindingValue

/-- Reads the literal of a key. -/
def readSetting (literal : Lexeme) : Key → Except Fault Setting
  | .codec =>
      match textValue? literal with
      | none => .error (.codecFormat "expected a string literal")
      | some text =>
          match Codec.ofName? text with
          | some codec => .ok (.codec codec)
          | none => .error (.unknownCodec text)
  | .dispatch =>
      match textValue? literal with
      | none => .error (.dispatchFormat "expected a string literal")
      | some text =>
          match Dispatch.ofName? text with
          | some dispatch => .ok (.dispatch dispatch)
          | none => .error (.unknownDispatch text)
  | .binding => (numberValue literal).map fun number => .binding (.number number)

/-- A fault and its place in the annotation text. -/
structure Misplaced where
  fault : Fault
  span : Span
  deriving DecidableEq, Repr

/-- A setting, where it is written, and the tokens after it. -/
structure Read where
  setting : Setting
  span : Span
  rest : List Token
  deriving DecidableEq, Repr

/-- Reads the value of a key. A minus sign before a binding is refused, and before anything else
it is passed over. -/
def readValue (key : Key) (start : Nat) (stop : Span) : List Token → Except Misplaced Read
  | [] => .error ⟨.expected "a literal value", stop⟩
  | value :: rest =>
      let read (literal : Token) (rest : List Token) : Except Misplaced Read :=
        let span : Span := ⟨start, literal.stop⟩
        match readSetting literal.toLexeme key with
        | .ok setting => .ok ⟨setting, span, rest⟩
        | .error fault => .error ⟨fault, span⟩
      match rest with
      | literal :: after =>
          if value.isPunct "-" then
            if key = .binding then .error ⟨.bindingValue, ⟨start, literal.stop⟩⟩
            else read literal after
          else read value rest
      | [] => read value rest

/-- Reads one directive; `stop` is the empty place at the end of the text. -/
def readDirective (target : Target) (stop : Span) : List Token → Except Misplaced Read
  | [] => .error ⟨.expected "an attribute name", stop⟩
  | name :: rest =>
      if name.kind ≠ .ident then .error ⟨.expected "an attribute name", name.span⟩
      else
        match key? target name.text with
        | none => .error ⟨.unknownAttribute name.text, name.span⟩
        | some key =>
            let wanted := Fault.expected ("'=' after '" ++ name.text ++ "'")
            match rest with
            | [] => .error ⟨wanted, stop⟩
            | equals :: rest =>
                if equals.isPunct "=" then readValue key name.start stop rest
                else .error ⟨wanted, equals.span⟩

/-- Reads directives with commas between them. Each of them takes tokens, so their number bounds
the steps. -/
def readDirectives (target : Target) (stop : Span) :
    Nat → List Token → Except Misplaced (List (Setting × Span))
  | _, [] => .ok []
  | 0, _ :: _ => .ok []
  | steps + 1, token :: tokens => do
      let read ← readDirective target stop (token :: tokens)
      match read.rest with
      | [] => return [(read.setting, read.span)]
      | comma :: rest =>
          if comma.isPunct "," then
            return (read.setting, read.span) :: (← readDirectives target stop steps rest)
          else throw ⟨.expected "',' between attributes", comma.span⟩

/-- Reads the text of an annotation. Places are moved by `offset`, so that they point into the
text around it. -/
def read (text : List Char) (target : Target) (offset : Int) : Except Failure Annotation :=
  match tokenize text with
  | .error (.rejected error) =>
      .error (.reported (.ofFault error.fault (error.span.toPlace.shift offset)))
  | .error (.halted halt) => .error (.halted halt)
  | .ok tokens =>
      match readDirectives target ⟨text.length, text.length⟩ tokens.length tokens with
      | .error misplaced =>
          .error (.reported (.ofFault misplaced.fault (misplaced.span.toPlace.shift offset)))
      | .ok settings =>
          .ok ⟨target, settings.map fun (setting, span) =>
            ⟨setting, some (span.toPlace.shift offset)⟩⟩

end Annotation

end ActorGlue
