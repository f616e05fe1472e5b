import UrlRouter.Extract.Reader
import UrlRouter.Pattern

namespace UrlRouter

structure Route (α : Type u) where
  pattern : Pattern
  action : α

/-- Routes in the order in which they were added. The default scheme is for patterns and urls which
name none. -/
structure Router (α : Type u) where
  defaultScheme : String
  routes : List (Route α)

/-- The route which a url leads to, its place among the routes, and what is known from the url. -/
structure Destination (α : Type u) where
  index : Nat
  route : Route α
  url : String
  values : Values

namespace Route

def values? (route : Route α) (address : Url.Address) : Option Values :=
  if route.pattern.admits address.scheme then
    (route.pattern.captures? address.segments).map (Values.ofMatch address.query)
  else none

end Route

namespace Router

def empty : Router α := ⟨"", []⟩

def setDefault (r : Router α) (raw : String) : Router α :=
  { r with defaultScheme := Url.Scheme.bare raw }

def ofScheme (raw : String) : Router α :=
  empty.setDefault raw

def size (r : Router α) : Nat :=
  r.routes.length

def isEmpty (r : Router α) : Bool :=
  r.routes.isEmpty

/-- Adds a route at the end, or none if its pattern is at fault. A route keeps the scheme it is added
with, whatever the default becomes later. -/
def add (r : Router α) (pattern : String) (action : α) : Except Pattern.Fault Unit × Router α :=
  match Pattern.ofSource pattern with
  | .ok p => (.ok (), { r with routes := r.routes ++ [⟨p.withDefault r.defaultScheme, action⟩] })
  | .error fault => (.error fault, r)

/-- The first route to which the url can lead. -/
def destination? (r : Router α) (url : String) : Option (Destination α) :=
  let address := Url.Address.ofUrl url r.defaultScheme
  r.routes.zipIdx.findSome? fun (route, index) =>
    (route.values? address).map fun values => { index, route, url, values }

def inspect (r : Router α) : String :=
  let patterns := r.routes.map fun route => Text.quoted route.pattern.source
  "Router \x7b scheme: " ++ Text.quoted r.defaultScheme ++
    ", routes: [" ++ ", ".intercalate patterns ++ "] \x7d"

end Router

namespace Destination

def inspect (d : Destination α) : String :=
  "RouteMatch \x7b pattern: " ++ Text.quoted d.route.pattern.source ++
    ", url: " ++ Text.quoted d.url ++ ", values: " ++ d.values.inspect ++ " \x7d"

end Destination

inductive Change (α : Type u) where
  | setDefault (raw : String)
  | add (pattern : String) (action : α)

namespace Router

def change (r : Router α) : Change α → Except Pattern.Fault Unit × Router α
  | .setDefault raw => (.ok (), r.setDefault raw)
  | .add pattern action => r.add pattern action

def changed (r : Router α) (c : Change α) : Router α :=
  (r.change c).2

/-- The router goes through all changes, those which fail among them. -/
def after (r : Router α) (changes : List (Change α)) : Router α :=
  changes.foldl changed r

/-- The first change which fails ends it all. -/
def changeAll (r : Router α) : List (Change α) → Except Pattern.Fault (Router α)
  | [] => .ok r
  | c :: changes =>
    match r.change c with
    | (.ok _, changed) => changed.changeAll changes
    | (.error fault, _) => .error fault

end Router

end UrlRouter
