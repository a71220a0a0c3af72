import ActorGlue.Value.Shown

/-!
# Values as method numbers

A number of any kind that is in range can be a method number. Values that cannot be compared with
numbers are refused for that.
-/

namespace ActorGlue

/-- Why a value is no method number. -/
inductive NumberFault where
  | outOfRange (shown : String)
  | unwritable (fault : Text.NumeralFault)
  | unordered (typeName : String)
  deriving DecidableEq, Repr

namespace NumberFault

/-- The wording of a fault. -/
def message : NumberFault → String
  | .outOfRange shown => "numeric binding out of range: " ++ shown
  | .unwritable fault => fault.message
  | .unordered typeName =>
      "'<=' not supported between instances of 'int' and '" ++ typeName ++ "'"

/-- The value is a number, but not in range. -/
def isRange : NumberFault → Bool
  | .outOfRange _ | .unwritable _ => true
  | .unordered _ => false

end NumberFault

/-- A number or a truth value as a numerator and a denominator. -/
def Value.ratio? : Value → Option (Int × Nat)
  | .bool value => some (if value then 1 else 0, 1)
  | .int value => some (value, 1)
  | .float value => value.ratio?
  | _ => none

/-- The method number of a value; what is behind a point does not count. -/
def MethodNumber.ofValue (value : Value) : Except NumberFault MethodNumber :=
  match value with
  | .bool _ | .int _ | .float _ =>
      match value.ratio?.bind fun (m, d) => MethodNumber.ofInt? (m / d) with
      | some number => .ok number
      | none => (value.shown.mapError .unwritable).bind fun shown => .error (.outOfRange shown)
  | _ => .error (.unordered value.typeName)

end ActorGlue
