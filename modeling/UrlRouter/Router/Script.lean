import UrlRouter.Router.Basic

namespace UrlRouter

/-- How a router is drawn up: default schemes, routes, and scopes of routes whose patterns begin alike.
A route may be begun and left without an action. -/
inductive Script (α : Type u) where
  | done
  | scheme (raw : String) (next : Script α)
  | map (pattern : String) (action : Option α) (next : Script α)
  | scope (start : String) (body next : Script α)
  deriving Inhabited

/-- A pattern inside a scope. One slash stands where they meet, but none after a bare scheme. -/
def nested (start pattern : String) : String :=
  let inner := String.ofList (Text.trimStart '/' pattern.toList)
  if start.isEmpty then pattern
  else if Url.Scheme.mark.isSuffixOf start.toList then start ++ inner
  else .ofList (Text.trimEnd '/' start.toList) ++ "/" ++ inner

/-- The first pattern which failed stays on record, and no route is added after it. -/
structure Draft (α : Type u) where
  router : Router α
  fault : Option Pattern.Fault

namespace Draft

def empty : Draft α := ⟨.empty, none⟩

def setDefault (d : Draft α) (raw : String) : Draft α :=
  { d with router := d.router.setDefault raw }

def add (d : Draft α) (pattern : String) (action : α) : Draft α :=
  match d.fault with
  | some _ => d
  | none =>
    match d.router.add pattern action with
    | (.ok _, router) => { d with router }
    | (.error fault, router) => { router, fault := some fault }

def result (d : Draft α) : Except Pattern.Fault (Router α) :=
  match d.fault with
  | some fault => .error fault
  | none => .ok d.router

end Draft

namespace Script

/-- A scope ends with its body; a scheme set in it does not. -/
def draw (start : String) (d : Draft α) : Script α → Draft α
  | .done => d
  | .scheme raw next => next.draw start (d.setDefault raw)
  | .map pattern action next =>
    match action with
    | some a => next.draw start (d.add (nested start pattern) a)
    | none => next.draw start d
  | .scope inner body next => next.draw start (body.draw (nested start inner) d)

def build (s : Script α) : Except Pattern.Fault (Router α) :=
  (s.draw "" .empty).result

/-- The whole patterns of all routes begun, in order. -/
def patterns (start : String) : Script α → List String
  | .done => []
  | .scheme _ next => next.patterns start
  | .map pattern _ next => nested start pattern :: next.patterns start
  | .scope inner body next => body.patterns (nested start inner) ++ next.patterns start

/-- The script without its scopes. -/
def changes (start : String) : Script α → List (Change α)
  | .done => []
  | .scheme raw next => .setDefault raw :: next.changes start
  | .map pattern action next =>
    (action.map (.add (nested start pattern))).toList ++ next.changes start
  | .scope inner body next => body.changes (nested start inner) ++ next.changes start

end Script

end UrlRouter
