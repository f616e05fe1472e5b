import UrlRouter.Mapping
import UrlRouter.Text.Basic

namespace UrlRouter

/-- What a match knows under one name: a number its pattern asked for, or a piece of the url. -/
inductive Value where
  | int (n : Int64)
  | text (s : String)
  deriving DecidableEq

inductive Value.Kind where
  | int | text
  deriving DecidableEq

namespace Value

def int? : Value → Option Int64
  | .int n => some n
  | .text _ => none

def text? : Value → Option String
  | .int _ => none
  | .text s => some s

def display : Value → String
  | .int n => n.toInt.repr
  | .text s => s

def inspect : Value → String
  | .int n => "Int(" ++ n.toInt.repr ++ ")"
  | .text s => "Str(" ++ Text.quoted s ++ ")"

end Value

abbrev Values := Mapping Value

namespace Values

def int? (vs : Values) (k : String) : Option Int64 :=
  (vs.get? k).bind Value.int?

def text? (vs : Values) (k : String) : Option String :=
  (vs.get? k).bind Value.text?

/-- A capture hides a parameter of the same name. -/
def ofMatch (query : Mapping String) (captures : Values) : Values :=
  (query.map Value.text).overlay captures

def inspect (vs : Values) : String :=
  let entries := vs.entries.map fun (k, v) => Text.quoted k ++ ": " ++ v.inspect
  "Values \x7b data: \x7b" ++ ", ".intercalate entries ++ "\x7d \x7d"

end Values

end UrlRouter
