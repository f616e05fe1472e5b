import UrlRouter.Extract.Fault
import UrlRouter.Extract.Shape

namespace UrlRouter.Extract

def readInteger (t : IntegerType) (n : Int64) : Except Fault Datum :=
  if t.Holds n.toInt then .ok (.integer n.toInt)
  else .error (.invalidValue (.integer n) t.name)

namespace Plain

def expected : Plain → String
  | .integer t => t.name
  | .bool => "a boolean"
  | .text => "a string"

/-- Texts are parsed into numbers and truth values, and numbers written out as texts. -/
def read : Plain → Value → Except Fault Datum
  | .integer t, .int n => readInteger t n
  | .integer t, .text s =>
    match t.parse? s with
    | some n => .ok (.integer n)
    | none => .error (.unparsable s t.bitsName)
  | .bool, .int n => .error (.invalidType (.integer n) Plain.bool.expected)
  | .bool, .text s =>
    if s = "true" then .ok (.bool true)
    else if s = "false" then .ok (.bool false)
    else .error (.unparsable s "bool")
  | .text, v => .ok (.text v.display)

/-- A number is nothing but a number here, and a text nothing but a text. -/
def readAsIs : Plain → Value → Except Fault Datum
  | .integer t, .int n => readInteger t n
  | .text, .text s => .ok (.text s)
  | p, v => .error (.invalidType (.ofValue v) p.expected)

end Plain

namespace Choice

def keys (c : Choice) : List String :=
  c.variants.flatMap Variant.keys

/-- A text chooses a variant but brings nothing for it to hold. -/
def read (c : Choice) (key : String) : Except Fault Extracted :=
  match c.variants.find? fun v => key ∈ v.keys with
  | some v =>
    match v.form with
    | .unit => .ok (.variant v.name .none)
    | .newtype => .error (.invalidType .unitVariant "newtype variant")
    | .tuple => .error (.invalidType .unitVariant "tuple variant")
    | .record => .error (.invalidType .unitVariant "struct variant")
  | none =>
    match c.other with
    | some name => .ok (.variant name .none)
    | none => .error (.unknownVariant key c.keys)

end Choice

def readNonzero (t : IntegerType) (v : Value) : Except Fault Extracted :=
  let expected := "a nonzero " ++ t.name
  match v with
  | .int n =>
    if t.Holds n.toInt ∧ n ≠ 0 then .ok (.datum (.integer n.toInt))
    else .error (.invalidValue (.integer n) expected)
  | .text s =>
    match t.parse? s with
    | some n =>
      if n ≠ 0 then .ok (.datum (.integer n)) else .error (.invalidValue (.integer 0) expected)
    | none => .error (.unparsable s t.bitsName)

def readFloat (t : FloatType) : Value → Except Fault Extracted
  | .int n => .ok (.float t (t.ofInt n.toInt))
  | .text s =>
    match t.parse? s with
    | some x => .ok (.float t x)
    | none => .error (.unparsable s t.name)

def readChar (s : String) : Except Fault Extracted :=
  match s.toList with
  | [c] => .ok (.char c)
  | _ => .error (.invalidValue (.text s) "a character")

namespace Scalar

/-- What a whole mapping cannot be, in the words of the error. -/
def target : Scalar → String
  | .plain (.integer t) | .nonzero t => t.bitsName
  | .plain .bool => "bool"
  | .plain .text => "String"
  | .float t => t.name
  | .char => "char"
  | .choice _ => "enum"

def read : Scalar → Value → Except Fault Extracted
  | .plain p, v => (p.read v).map .datum
  | .nonzero t, v => readNonzero t v
  | .float t, v => readFloat t v
  | .char, v => readChar v.display
  | .choice c, v => c.read v.display

end Scalar

end UrlRouter.Extract
