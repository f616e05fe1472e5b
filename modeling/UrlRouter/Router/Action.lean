import UrlRouter.Router.Basic

namespace UrlRouter

/-- What a route does with a url that leads to it. A factory makes something of it, an opener takes
it or not; both may have effects in `m`, and a factory sees what the caller knows of the user. -/
inductive Action (m : Type → Type) (ι τ : Type) where
  | factory (build : String → Values → Option ι → m (Option τ))
  | opener (accept : String → Values → m Bool)

namespace Action

def isFactory : Action m ι τ → Bool
  | .factory _ => true
  | .opener _ => false

def isOpener (a : Action m ι τ) : Bool :=
  !a.isFactory

def inspect : Action m ι τ → String
  | .factory _ => "Action::Factory(..)"
  | .opener _ => "Action::Open(..)"

end Action

/-- Why nothing came of a url. -/
inductive Refusal where
  | noRoute
  | otherAction
  | declined
  deriving DecidableEq

def Refusal.message : Refusal → String
  | .noRoute => "no route matches the url"
  | .otherAction => "the matching route has a different kind of action"
  | .declined => "the matching route declined the url"

variable {m : Type → Type} [Monad m]

namespace Destination

def accept (d : Destination (Action m ι τ)) : m (Except Refusal Unit) :=
  match d.route.action with
  | .opener accept => do
    if ← accept d.url d.values then return .ok () else return .error .declined
  | .factory _ => return .error .otherAction

def build (d : Destination (Action m ι τ)) (info : Option ι) : m (Except Refusal τ) :=
  match d.route.action with
  | .factory build => do
    match ← build d.url d.values info with
    | some x => return .ok x
    | none => return .error .declined
  | .opener _ => return .error .otherAction

end Destination

namespace Router

/-- The destination alone decides. No later route gets what it declines. -/
def tryAccept (r : Router (Action m ι τ)) (url : String) : m (Except Refusal Unit) :=
  match r.destination? url with
  | some d => d.accept
  | none => return .error .noRoute

def accepts (r : Router (Action m ι τ)) (url : String) : m Bool :=
  return (← r.tryAccept url).toBool

def tryBuild (r : Router (Action m ι τ)) (url : String) (info : Option ι) : m (Except Refusal τ) :=
  match r.destination? url with
  | some d => d.build info
  | none => return .error .noRoute

def build? (r : Router (Action m ι τ)) (url : String) (info : Option ι) : m (Option τ) :=
  return (← r.tryBuild url info).toOption

end Router

end UrlRouter
