import UrlRouter.Mapping
import UrlRouter.Text.Basic

namespace UrlRouter.Url

namespace Path

/-- The segments of a path. Slashes at its two ends separate nothing, so a path of slashes has no
segment at all; two slashes inside it have an empty segment between them. -/
def segments (path : String) : List String :=
  match Text.trim '/' path.toList with
  | [] => []
  | c :: cs => ((c :: cs).splitOn '/').map .ofList

def join (segments : List String) : String :=
  "/".intercalate segments

end Path

namespace Scheme

def mark : List Char := [':', '/', '/']

/-- The scheme in front of the first mark, if there is one, and what follows. -/
def cut (s : String) : Option String × String :=
  match Text.cut? mark s.toList with
  | some (scheme, rest) => (some (.ofList scheme), .ofList rest)
  | none => (none, s)

/-- A scheme without what users write after it: `app`, `app:` and `app://host` all name `app`. -/
def bare (raw : String) : String :=
  .ofList (Text.trimEnd ':' ((cut raw).1.getD raw).toList)

end Scheme

namespace Percent

def hexDigit? (c : Char) : Option Nat :=
  if '0' ≤ c ∧ c ≤ '9' then some (c.toNat - '0'.toNat)
  else if 'a' ≤ c ∧ c ≤ 'f' then some (c.toNat - 'a'.toNat + 10)
  else if 'A' ≤ c ∧ c ≤ 'F' then some (c.toNat - 'A'.toNat + 10)
  else none

def escape? (high low : Char) : Option UInt8 := do
  return .ofNat (16 * (← hexDigit? high) + (← hexDigit? low))

/-- The usual percent decoder, up to the bytes. A percent sign in front of two hex digits is one byte;
one that is not stays as it is, and so does every other character. -/
def bytes : List Char → List UInt8
  | [] => []
  | '%' :: high :: low :: rest =>
    match escape? high low with
    | some byte => byte :: bytes rest
    | none => String.utf8EncodeChar '%' ++ bytes (high :: low :: rest)
  | c :: rest => String.utf8EncodeChar c ++ bytes rest

/-- What was decoded is not decoded again. Bytes which are no UTF-8 stand for no text. -/
def decode? (s : String) : Option String :=
  String.fromUTF8? (bytes s.toList).toByteArray

end Percent

namespace Query

/-- A parameter is a key, an equals sign and a value. What has no sign, or does not decode, is none. -/
def parameter? (piece : List Char) : Option (String × String) := do
  let (key, value) ← Text.cut? ['='] piece
  return (← Percent.decode? (.ofList key), ← Percent.decode? (.ofList value))

def parameters (query : String) : List (String × String) :=
  (query.toList.splitOn '&').filterMap parameter?

/-- Of parameters with one key the last one counts. -/
def mapping (query : String) : Mapping String :=
  .ofList (parameters query)

end Query

/-- Where a url points. The fragment is no part of it. -/
structure Address where
  scheme : String
  segments : List String
  query : Mapping String
  deriving DecidableEq

/-- The text in front of the first `mark`, and what follows it if it is there. -/
def splitAt (mark : Char) (cs : List Char) : List Char × Option (List Char) :=
  match Text.cut? [mark] cs with
  | some (before, after) => (before, some after)
  | none => (cs, none)

/-- The scheme is looked for in the whole url, before its fragment and its query are cut off. -/
def Address.ofUrl (url defaultScheme : String) : Address :=
  let (scheme, rest) := Scheme.cut url
  let (body, _) := splitAt '#' rest.toList
  let (path, query) := splitAt '?' body
  { scheme := scheme.getD defaultScheme
    segments := Path.segments (.ofList path)
    query := (query.map fun q => Query.mapping (.ofList q)).getD .empty }

/-- The parameters do not depend on the scheme, so none is asked for. -/
def parametersOf (url : String) : Mapping String :=
  (Address.ofUrl url "").query

end UrlRouter.Url
