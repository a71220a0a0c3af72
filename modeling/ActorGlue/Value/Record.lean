import ActorGlue.Text.Normal
import ActorGlue.Text.Word
import ActorGlue.Value.Basic

/-!
# Records

A state structure as a class of records: one attribute for each field, named like the field or,
for a field that has only an index, after it. Fields without a value are null.
-/

namespace ActorGlue

/-- A class of records. -/
structure RecordClass where
  name : String
  fields : List String
  deriving DecidableEq, Repr

/-- The attribute of a field. -/
def attributeName (field : String) : String :=
  if !field.isEmpty && field.toList.all Text.isDigitLike then "field_" ++ field else field

/-- The words that no attribute can be named. -/
def reservedWords : List String :=
  ["False", "None", "True", "and", "as", "assert", "async", "await", "break", "class", "continue",
    "def", "del", "elif", "else", "except", "finally", "for", "from", "global", "if", "import",
    "in", "is", "lambda", "nonlocal", "not", "or", "pass", "raise", "return", "try", "while",
    "with", "yield"]

/-- Why there is no class or no record. -/
inductive RecordFault where
  | notAWord (name : String)
  | reserved (name : String)
  | repeated (name : String)
  | nullInName
  | notNormal (name : String)
  | tooMany (name : String) (fields values : Nat)
  | notAList (name found : String)
  | classless
  deriving DecidableEq, Repr

def RecordFault.message : RecordFault → String
  | .notAWord name => "Field names must be valid identifiers: " ++ Text.quoted name
  | .reserved name => "Field names must not be keywords: " ++ Text.quoted name
  | .repeated name => "Field name duplicated: " ++ Text.quoted name
  | .nullInName => "type name must not contain null characters"
  | .notNormal name =>
      "__create_fn__() got an unexpected keyword argument " ++ Text.quoted ("_type_" ++ name)
  | .tooMany name fields values =>
      name ++ ".__init__() takes " ++
        (if fields = 0 then "1 positional argument"
          else "from 1 to " ++ toString (fields + 1) ++ " positional arguments") ++
        " but " ++ toString (values + 1) ++ " were given"
  | .notAList name found => "expected a tuple for " ++ name ++ ", found " ++ found
  | .classless => "'NoneType' object is not callable"

/-- The name of the class is a text, but not itself right. -/
def RecordFault.isValueFault : RecordFault → Bool
  | .nullInName => true
  | _ => false

namespace RecordClass

/-- Checks attributes in order against those before them. -/
def check (seen : List String) : List String → Except RecordFault Unit
  | [] => .ok ()
  | name :: rest =>
      if !Text.isWord name.toList then .error (.notAWord name)
      else if reservedWords.contains name then .error (.reserved name)
      else if seen.contains name then .error (.repeated name)
      else check (name :: seen) rest

/-- Attributes are read in their normal form, so one that has another form is never found. -/
def checkNormal (attributes : List String) : Except RecordFault Unit :=
  match attributes.find? fun name => !Text.isNormal name.toList with
  | some name => .error (.notNormal name)
  | none => .ok ()

/-- The class with attributes for the given fields. -/
def ofFields (name : String) (fields : List String) : Except RecordFault RecordClass := do
  let attributes := fields.map attributeName
  check [] attributes
  if name.toList.contains '\x00' then throw .nullInName
  checkNormal attributes
  return ⟨name, attributes⟩

/-- The class of a state structure. -/
def ofState (state : StateStruct) : Except RecordFault RecordClass :=
  ofFields state.name (state.fields.map (·.name))

/-- Attributes paired with values; those left over are null. -/
def pair : List String → List Value → List (String × Value)
  | [], _ => []
  | name :: names, [] => (name, .null) :: pair names []
  | name :: names, value :: values => (name, value) :: pair names values

/-- The record with the given values. -/
def make (cls : RecordClass) (values : List Value) : Except RecordFault Value :=
  if cls.fields.length < values.length then
    .error (.tooMany cls.name cls.fields.length values.length)
  else .ok (.record cls.name (pair cls.fields values))

end RecordClass

end ActorGlue
