/-!
# Faults

Everything a declaration or an annotation can be refused for. A fault says what is wrong in its
arguments, its message words it, and its code names it without the arguments.
-/

namespace ActorGlue

/-- What is wrong with a text, an annotation or a declaration. -/
inductive Fault where
  | unexpectedToken (wanted found : String)
  | unexpectedEnd (wanted : String)
  | unterminated (what : String)
  | unexpectedChar (found : String)
  | unbalanced (delimiter : String)
  | trailing (text : String)
  | unknownAttribute (name : String)
  | unknownCodec (name : String)
  | unknownDispatch (name : String)
  | codecFormat (detail : String)
  | dispatchFormat (detail : String)
  | bindingValue
  | numericValue (text : String)
  | expected (what : String)
  | stateGenerics
  | stateNotStructure
  | payloadGenerics
  | payloadNotStructure
  | actorGenerics
  | actorType
  | actorNotImplementation
  | missingBinding (method : String)
  | entryPointGenerics (method : String)
  | entryPointPrivate (method : String)
  | argumentType (label type : String)
  | unhandledType (type : String)
  | argumentReceiver
  | argumentPattern
  | bindingMismatch (method shape : String)
  | exportArguments
  deriving DecidableEq, Repr

namespace Fault

/-- The wording of a fault. -/
def message : Fault → String
  | .unexpectedToken wanted found => "expected " ++ wanted ++ ", found '" ++ found ++ "'"
  | .unexpectedEnd wanted => "unexpected end of input, expected " ++ wanted
  | .unterminated what => "unterminated " ++ what
  | .unexpectedChar found => "unexpected character '" ++ found ++ "'"
  | .unbalanced delimiter => "unbalanced delimiter '" ++ delimiter ++ "'"
  | .trailing text => "unexpected tokens after item: '" ++ text ++ "'"
  | .unknownAttribute name => "unknown attribute '" ++ name ++ "'"
  | .unknownCodec name => "unknown codec '" ++ name ++ "'"
  | .unknownDispatch name => "unknown dispatch method '" ++ name ++ "'"
  | .codecFormat detail => "invalid codec format, " ++ detail
  | .dispatchFormat detail => "invalid dispatch method format, " ++ detail
  | .bindingValue => "invalid binding value"
  | .numericValue text => "invalid numeric value, '" ++ text ++ "'"
  | .expected what => "expected " ++ what
  | .stateGenerics => "structure with #[fvm_state] cannot have lifetime or type parameters."
  | .stateNotStructure => "#[fvm_state] should be used with a structure."
  | .payloadGenerics => "structure with #[fvm_payload] cannot have lifetime or type parameters."
  | .payloadNotStructure => "#[fvm_payload] should be used with a structure."
  | .actorGenerics => "implementation with #[fvm_actor] cannot have lifetime or type parameters."
  | .actorType =>
      "expected implementation for type with no leading colon, 1 path segment, and no angle " ++
        "bracketed or parenthesized path arguments with #[fvm_actor]"
  | .actorNotImplementation => "#[fvm_actor] can only be applied to an implementation"
  | .missingBinding method => "binding should be specified on method '" ++ method ++ "'"
  | .entryPointGenerics method =>
      "'" ++ method ++ "' can not be used as an entry point. " ++
        "Methods with #[fvm_export] cannot have lifetime or type parameters."
  | .entryPointPrivate method =>
      "'" ++ method ++ "' can not be used as an entry point. " ++
        "Methods with #[fvm_export] should be public."
  | .argumentType label type =>
      label ++ ", '" ++ type ++ "', can not be used as a type for an entry point argument."
  | .unhandledType type =>
      "'" ++ type ++ "' can not be interpreted and thus can not be used as a type " ++
        "for an entry point argument."
  | .argumentReceiver =>
      "'self' should only be used as first argument for an entry point argument."
  | .argumentPattern => "expected binding to variable when parsing method arguments."
  | .bindingMismatch method shape =>
      "binding for method '" ++ method ++ "' does not match dispatch method, expected " ++ shape
  | .exportArguments => "expected attribute arguments in parentheses: #[fvm_export(...)]"

end Fault

/-- The name of a kind of fault. -/
inductive Code where
  | unexpectedToken
  | unexpectedEnd
  | unterminated
  | unexpectedChar
  | unbalanced
  | trailing
  | unknownAttribute
  | unknownCodec
  | unknownDispatch
  | codecFormat
  | dispatchFormat
  | bindingValue
  | numericValue
  | expected
  | stateGenerics
  | stateNotStructure
  | payloadGenerics
  | payloadNotStructure
  | actorGenerics
  | actorType
  | actorNotImplementation
  | missingBinding
  | entryPointGenerics
  | entryPointPrivate
  | argumentType
  | unhandledType
  | argumentReceiver
  | argumentPattern
  | bindingMismatch
  | exportArguments
  deriving DecidableEq, Repr

def Code.all : List Code :=
  [.unexpectedToken, .unexpectedEnd, .unterminated, .unexpectedChar, .unbalanced, .trailing,
    .unknownAttribute, .unknownCodec, .unknownDispatch, .codecFormat, .dispatchFormat,
    .bindingValue, .numericValue, .expected, .stateGenerics, .stateNotStructure, .payloadGenerics,
    .payloadNotStructure, .actorGenerics, .actorType, .actorNotImplementation, .missingBinding,
    .entryPointGenerics, .entryPointPrivate, .argumentType, .unhandledType, .argumentReceiver,
    .argumentPattern, .bindingMismatch, .exportArguments]

/-- The catalog that a code belongs to. -/
def Code.catalog : Code → String
  | .unexpectedToken | .unexpectedEnd | .unterminated | .unexpectedChar | .unbalanced
  | .trailing => "SyntaxErrorKind"
  | .unknownAttribute | .unknownCodec | .unknownDispatch | .codecFormat | .dispatchFormat
  | .bindingValue | .numericValue | .expected => "AttrError"
  | .stateGenerics | .stateNotStructure => "StateError"
  | .payloadGenerics | .payloadNotStructure => "PayloadError"
  | .actorGenerics | .actorType | .actorNotImplementation => "ActorError"
  | .missingBinding | .entryPointGenerics | .entryPointPrivate | .argumentType | .unhandledType
  | .argumentReceiver | .argumentPattern | .bindingMismatch | .exportArguments => "ExportError"

/-- The name of a code within its catalog. -/
def Code.member : Code → String
  | .unexpectedToken => "UNEXPECTED_TOKEN"
  | .unexpectedEnd => "UNEXPECTED_EOF"
  | .unterminated => "UNTERMINATED"
  | .unexpectedChar => "UNEXPECTED_CHAR"
  | .unbalanced => "UNBALANCED"
  | .trailing => "TRAILING"
  | .unknownAttribute => "UNKNOWN_ATTRIBUTE"
  | .unknownCodec => "UNKNOWN_CODEC"
  | .unknownDispatch => "UNKNOWN_DISPATCH"
  | .codecFormat => "INVALID_CODEC_FORMAT"
  | .dispatchFormat => "INVALID_DISPATCH_FORMAT"
  | .bindingValue => "INVALID_BINDING_VALUE"
  | .numericValue => "INVALID_NUMERIC_VALUE"
  | .expected => "EXPECTED"
  | .stateGenerics => "GENERICS_ON_STRUCTURE"
  | .stateNotStructure => "NOT_A_STRUCTURE"
  | .payloadGenerics => "GENERICS_ON_STRUCTURE"
  | .payloadNotStructure => "NOT_A_STRUCTURE"
  | .actorGenerics => "GENERICS_ON_INTERFACE"
  | .actorType => "UNEXPECTED_IMPLEMENTATION_TYPE"
  | .actorNotImplementation => "NOT_AN_IMPLEMENTATION"
  | .missingBinding => "MISSING_BINDING"
  | .entryPointGenerics => "GENERICS_ON_ENTRY_POINT"
  | .entryPointPrivate => "VISIBILITY_NOT_PUBLIC"
  | .argumentType => "UNEXPECTED_ARG_TYPE"
  | .unhandledType => "UNHANDLED_TYPE"
  | .argumentReceiver => "UNEXPECTED_ARG_RECEIVER"
  | .argumentPattern => "EXPECTED_BINDING_TO_NEW_VARIABLE"
  | .bindingMismatch => "MISMATCHED_DISPATCH_BINDING"
  | .exportArguments => "EXPECTED_ATTRIBUTE_ARGUMENTS"

/-- The full name of a code. -/
def Code.name (code : Code) : String :=
  code.catalog ++ "." ++ code.member

/-- The code of a full name. -/
def Code.ofName? (name : String) : Option Code :=
  Code.all.find? (·.name = name)

def Fault.code : Fault → Code
  | .unexpectedToken .. => .unexpectedToken
  | .unexpectedEnd .. => .unexpectedEnd
  | .unterminated .. => .unterminated
  | .unexpectedChar .. => .unexpectedChar
  | .unbalanced .. => .unbalanced
  | .trailing .. => .trailing
  | .unknownAttribute .. => .unknownAttribute
  | .unknownCodec .. => .unknownCodec
  | .unknownDispatch .. => .unknownDispatch
  | .codecFormat .. => .codecFormat
  | .dispatchFormat .. => .dispatchFormat
  | .bindingValue => .bindingValue
  | .numericValue .. => .numericValue
  | .expected .. => .expected
  | .stateGenerics => .stateGenerics
  | .stateNotStructure => .stateNotStructure
  | .payloadGenerics => .payloadGenerics
  | .payloadNotStructure => .payloadNotStructure
  | .actorGenerics => .actorGenerics
  | .actorType => .actorType
  | .actorNotImplementation => .actorNotImplementation
  | .missingBinding .. => .missingBinding
  | .entryPointGenerics .. => .entryPointGenerics
  | .entryPointPrivate .. => .entryPointPrivate
  | .argumentType .. => .argumentType
  | .unhandledType .. => .unhandledType
  | .argumentReceiver => .argumentReceiver
  | .argumentPattern => .argumentPattern
  | .bindingMismatch .. => .bindingMismatch
  | .exportArguments => .exportArguments

/-- The fault of a code with the given details. There is none when a detail is missing, and
details beyond those of the code are ignored. -/
def Code.fault? : Code → List String → Option Fault
  | .unexpectedToken, wanted :: found :: _ => some (.unexpectedToken wanted found)
  | .unexpectedEnd, wanted :: _ => some (.unexpectedEnd wanted)
  | .unterminated, what :: _ => some (.unterminated what)
  | .unexpectedChar, found :: _ => some (.unexpectedChar found)
  | .unbalanced, delimiter :: _ => some (.unbalanced delimiter)
  | .trailing, text :: _ => some (.trailing text)
  | .unknownAttribute, name :: _ => some (.unknownAttribute name)
  | .unknownCodec, name :: _ => some (.unknownCodec name)
  | .unknownDispatch, name :: _ => some (.unknownDispatch name)
  | .codecFormat, detail :: _ => some (.codecFormat detail)
  | .dispatchFormat, detail :: _ => some (.dispatchFormat detail)
  | .bindingValue, _ => some .bindingValue
  | .numericValue, text :: _ => some (.numericValue text)
  | .expected, what :: _ => some (.expected what)
  | .stateGenerics, _ => some .stateGenerics
  | .stateNotStructure, _ => some .stateNotStructure
  | .payloadGenerics, _ => some .payloadGenerics
  | .payloadNotStructure, _ => some .payloadNotStructure
  | .actorGenerics, _ => some .actorGenerics
  | .actorType, _ => some .actorType
  | .actorNotImplementation, _ => some .actorNotImplementation
  | .missingBinding, method :: _ => some (.missingBinding method)
  | .entryPointGenerics, method :: _ => some (.entryPointGenerics method)
  | .entryPointPrivate, method :: _ => some (.entryPointPrivate method)
  | .argumentType, label :: type :: _ => some (.argumentType label type)
  | .unhandledType, type :: _ => some (.unhandledType type)
  | .argumentReceiver, _ => some .argumentReceiver
  | .argumentPattern, _ => some .argumentPattern
  | .bindingMismatch, method :: shape :: _ => some (.bindingMismatch method shape)
  | .exportArguments, _ => some .exportArguments
  | _, _ => none

/-- A fault built from details has the code it was built for. -/
theorem Code.code_of_fault? {code : Code} {details : List String} {fault : Fault}
    (h : code.fault? details = some fault) : fault.code = code := by
  unfold Code.fault? at h
  split at h <;> simp at h <;> subst h <;> rfl

end ActorGlue
