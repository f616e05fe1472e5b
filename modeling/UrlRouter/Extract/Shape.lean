import UrlRouter.Number.Binary
import UrlRouter.Value

namespace UrlRouter.Extract

inductive Datum where
  | integer (n : Int)
  | bool (b : Bool)
  | text (s : String)
  deriving DecidableEq

/-- What a variant of an enumeration has with it. -/
inductive Payload where
  | none
  | single (d : Datum)
  | fields (fs : List (String × Datum))
  deriving DecidableEq

inductive Extracted where
  | datum (d : Datum)
  | float (t : FloatType) (x : Binary)
  | char (c : Char)
  | bytes (bs : List UInt8)
  | variant (name : String) (payload : Payload)
  | value (v : Value)
  | unit
  | ignored
  | marker (name : String)
  | none
  | some (x : Extracted)
  | newtype (name : String) (x : Extracted)
  | taken (n : Nat)
  | map (entries : List (String × Extracted))
  | record (fields : List (String × Extracted))

namespace Datum

def inspect : Datum → String
  | .integer n => n.repr
  | .bool b => if b then "true" else "false"
  | .text s => Text.quoted s

end Datum

/-- A variant as it is written in a program. -/
def Payload.inspect (name : String) : Payload → String
  | .none => name
  | .single d => name ++ "(" ++ d.inspect ++ ")"
  | .fields fs =>
    let written := fs.map fun (field, d) => field ++ ": " ++ d.inspect
    name ++ " \x7b " ++ ", ".intercalate written ++ " \x7d"

/-- The shapes a value can have without being converted. -/
inductive Plain where
  | integer (t : IntegerType)
  | bool
  | text
  deriving DecidableEq

/-- What a variant of an enumeration asks for beside its name. -/
inductive VariantForm where
  | unit | newtype | tuple | record
  deriving DecidableEq

structure Variant where
  name : String
  keys : List String
  form : VariantForm := .unit
  deriving DecidableEq

/-- An enumeration whose variants are chosen by a text. `other` stands for all texts which are the
key of no variant. -/
structure Choice where
  variants : List Variant
  other : Option String := none
  deriving DecidableEq

/-- The shapes a single value is converted into. -/
inductive Scalar where
  | plain (p : Plain)
  | nonzero (t : IntegerType)
  | float (t : FloatType)
  | char
  | choice (c : Choice)
  deriving DecidableEq

/-- A field of shape `σ` whose readings are in `ρ`. Its reading is called `name`; it comes from the
entry under `key` or under one of the aliases, and is `default` if there is no such entry. -/
structure Field (σ ρ : Type) where
  name : String
  key : String
  shape : σ
  aliases : List String := []
  default : Option ρ := none

/-- A strict record refuses the entries of which no field is made. -/
structure Record (σ ρ : Type) where
  name : String
  fields : List (Field σ ρ)
  strict : Bool := false

/-- What becomes of the entries which a flattened record has no field for. -/
inductive Remainder where
  | map (p : Plain)
  | record (r : Record Plain Datum)

/-- A variant chosen by the entry of a tag. It is made of the other entries, or of none. -/
structure TaggedVariant where
  name : String
  key : String
  fields : Option (Record Plain Datum)

/-- What a program can ask for. Neither a value nor a mapping is a sequence or a tuple, so of these
nothing but the name for messages is kept. -/
inductive Shape where
  | scalar (s : Scalar)
  | unsupported (name : String)
  /-- A text which names something. -/
  | identifier
  /-- Whatever is there. -/
  | anything
  | ignored
  | unit
  | marker (name : String)
  | bytes
  | sequence
  | tuple (size : Nat)
  | namedTuple (name : String)
  | option (inner : Shape)
  | newtype (name : String) (inner : Shape)
  | map (inner : Shape)
  /-- At most `n` entries of a map. -/
  | take (n : Nat)
  | record (r : Record Shape Extracted)
  | flattened (own : Record Shape Extracted) (restName : String) (rest : Remainder)
  /-- The first variant, by name and shape, which a value fits without being converted. -/
  | untagged (name : String) (variants : List (String × Plain))
  | tagged (name : String) (tag : String) (variants : List TaggedVariant)

end UrlRouter.Extract
