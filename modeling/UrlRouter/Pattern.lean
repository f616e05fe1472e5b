import UrlRouter.Number.Integer
import UrlRouter.Url
import UrlRouter.Value

namespace UrlRouter

/-- What a capture makes of a segment. None takes an empty one. -/
def Value.Kind.read? (kind : Value.Kind) (segment : String) : Option Value :=
  if segment.isEmpty then none
  else match kind with
    | .text => some (.text segment)
    | .int => (IntegerType.i64.parse? segment).map fun n => .int (.ofInt n)

inductive Segment where
  | literal (text : String)
  | capture (name : String) (kind : Value.Kind)
  /-- Takes all segments which are left. -/
  | path (name : String)
  deriving DecidableEq

namespace Segment

def isName (cs : List Char) : Bool :=
  !cs.isEmpty && cs.all fun c => c != '<' && c != '>' && c != ':'

def bracketed? : List Char → Option (List Char)
  | '<' :: rest => if rest.getLast? = some '>' then some rest.dropLast else none
  | _ => none

/-- The capture written between the brackets of a token. -/
def placeholder? (inside : List Char) : Option Segment :=
  if isName inside then some (.capture (.ofList inside) .text)
  else match Text.cut? [':'] inside with
    | some (kind, name) =>
      if !isName name then none
      else if kind = ['i', 'n', 't'] then some (.capture (.ofList name) .int)
      else if kind = ['p', 'a', 't', 'h'] then some (.path (.ofList name))
      else none
    | none => none

/-- A token which is no well-formed placeholder stands for itself. -/
def ofToken (token : String) : Segment :=
  ((bracketed? token.toList).bind placeholder?).getD (.literal token)

def display : Segment → String
  | .literal text => text
  | .capture name .text => "<" ++ name ++ ">"
  | .capture name .int => "<int:" ++ name ++ ">"
  | .path name => "<path:" ++ name ++ ">"

def name? : Segment → Option String
  | .literal _ => none
  | .capture name _ | .path name => some name

def isPath : Segment → Bool
  | .path _ => true
  | _ => false

end Segment

inductive Pattern.Fault where
  | repeatedName (name : String)
  | pathNotLast (name : String)
  deriving DecidableEq

namespace Pattern.Fault

def message : Pattern.Fault → String
  | .repeatedName name =>
    "capture name " ++ Text.ticked name ++ " is used more than once in the pattern"
  | .pathNotLast name =>
    "path capture " ++ Text.ticked name ++ " must be the last segment of the pattern"

end Pattern.Fault

structure Pattern where
  source : String
  scheme : Option String
  segments : List Segment
  deriving DecidableEq

namespace Pattern

/-- The first fault from the left. A path capture in the wrong place is reported as such even if its
name is taken as well. -/
def fault? (taken : List String) : List Segment → Option Fault
  | [] => none
  | s :: rest =>
    match s.name? with
    | none => fault? taken rest
    | some name =>
      if s.isPath && !rest.isEmpty then some (.pathNotLast name)
      else if name ∈ taken then some (.repeatedName name)
      else fault? (name :: taken) rest

def ofSource (source : String) : Except Fault Pattern :=
  let (scheme, path) := Url.Scheme.cut source
  let segments := (Url.Path.segments path).map Segment.ofToken
  match fault? [] segments with
  | some fault => .error fault
  | none => .ok { source, scheme, segments }

/-- A pattern which names no scheme takes the one offered. An empty scheme is no offer. -/
def withDefault (p : Pattern) (scheme : String) : Pattern :=
  if p.scheme.isNone && !scheme.isEmpty then { p with scheme := some scheme } else p

def admits (p : Pattern) (scheme : String) : Bool :=
  p.scheme.all (· == scheme)

/-- What each capture takes, in the order of the pattern. -/
def taken? : List Segment → List String → Option (List (String × Value))
  | [], [] => some []
  | .path name :: _, xs => some [(name, .text (Url.Path.join xs))]
  | .literal text :: ss, x :: xs => if x = text then taken? ss xs else none
  | .capture name kind :: ss, x :: xs => do
    let value ← kind.read? x
    return (name, value) :: (← taken? ss xs)
  | _, _ => none

def captures? (p : Pattern) (xs : List String) : Option Values :=
  (taken? p.segments xs).map .ofList

end Pattern

end UrlRouter
