import UrlRouter.Text.Basic
import UrlRouter.Value

namespace UrlRouter.Extract

/-- What was there instead of what was expected. -/
inductive Offered where
  | integer (n : Int64)
  | text (s : String)
  | unitVariant
  deriving DecidableEq

namespace Offered

def ofValue : Value → Offered
  | .int n => .integer n
  | .text s => .text s

def describe : Offered → String
  | .integer n => "integer " ++ Text.ticked n.toInt.repr
  | .text s => "string " ++ Text.quoted s
  | .unitVariant => "unit variant"

end Offered

inductive Fault where
  /-- Only records and maps can be made of a whole mapping. -/
  | wrongTarget (target : String)
  | unparsable (text target : String)
  | unsupported (target : String)
  | invalidType (offered : Offered) (expected : String)
  | invalidValue (offered : Offered) (expected : String)
  | entriesLeft (total taken : Nat)
  | unknownVariant (key : String) (known : List String)
  | unknownField (key : String) (known : List String)
  | missingField (key : String)
  | duplicateField (key : String)
  | noVariantFits (name : String)
  | nulByte (position : Nat)
  deriving DecidableEq

/-- The kinds of faults which are told apart. All but two are only known by their messages. -/
inductive Fault.Kind where
  | wrongTarget | unparsable | custom
  deriving DecidableEq

namespace Fault

def kind : Fault → Kind
  | .wrongTarget _ => .wrongTarget
  | .unparsable _ _ => .unparsable
  | .unsupported _ | .invalidType _ _ | .invalidValue _ _ | .entriesLeft _ _ | .unknownVariant _ _
  | .unknownField _ _ | .missingField _ | .duplicateField _ | .noVariantFits _ | .nulByte _ => .custom

/-- The keys which would have been known; `kind` says of what, if there are none. -/
def alternatives (kind : String) : List String → String
  | [] => "there are no " ++ kind
  | [a] => "expected " ++ Text.ticked a
  | [a, b] => "expected " ++ Text.ticked a ++ " or " ++ Text.ticked b
  | keys => "expected one of " ++ ", ".intercalate (keys.map Text.ticked)

def message : Fault → String
  | .wrongTarget target =>
    "values cannot be extracted into " ++ target ++ "; a struct or map is required"
  | .unparsable text target => Text.ticked text ++ " is not a valid " ++ target
  | .unsupported target => target ++ " is not supported"
  | .invalidType offered expected =>
    "invalid type: " ++ offered.describe ++ ", expected " ++ expected
  | .invalidValue offered expected =>
    "invalid value: " ++ offered.describe ++ ", expected " ++ expected
  | .entriesLeft total taken =>
    "invalid length " ++ total.repr ++ ", expected " ++ taken.repr ++
      (if taken = 1 then " element in map" else " elements in map")
  | .unknownVariant key known =>
    "unknown variant " ++ Text.ticked key ++ ", " ++ alternatives "variants" known
  | .unknownField key known =>
    "unknown field " ++ Text.ticked key ++ ", " ++ alternatives "fields" known
  | .missingField key => "missing field " ++ Text.ticked key
  | .duplicateField key => "duplicate field " ++ Text.ticked key
  | .noVariantFits name => "data did not match any variant of untagged enum " ++ name
  | .nulByte position => "nul byte found in provided data at position: " ++ position.repr

end Fault

end UrlRouter.Extract
