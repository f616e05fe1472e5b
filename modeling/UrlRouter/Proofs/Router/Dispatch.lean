import UrlRouter.Proofs.Router.FirstMatch
import UrlRouter.Router.Action
import UrlRouter.Router.Basic

namespace UrlRouter

/-- One use of an action: the place of its route, and all that the action was given. -/
inductive Call (ι : Type) where
  | accept (index : Nat) (url : String) (values : Values)
  | build (index : Nat) (url : String) (values : Values) (info : Option ι)
  deriving DecidableEq

variable {m : Type → Type} [Monad m] {ι τ : Type}

/-- The action which does the same and puts each of its uses on record first. -/
def Action.recorded (index : Nat) : Action m ι τ → Action (StateT (List (Call ι)) m) ι τ
  | .factory build => .factory fun url values info => do
    modify (· ++ [.build index url values info])
    build url values info
  | .opener accept => .opener fun url values => do
    modify (· ++ [.accept index url values])
    accept url values

namespace Destination

def recorded (d : Destination (Action m ι τ)) :
    Destination (Action (StateT (List (Call ι)) m) ι τ) :=
  { d with route := ⟨d.route.pattern, d.route.action.recorded d.index⟩ }

variable {d : Destination (Action m ι τ)}

theorem recorded_action {action : Action m ι τ} (h : d.route.action = action) :
    d.recorded.route.action = action.recorded d.index := by
  rw [recorded, h]

theorem accept_of_factory {build : String → Values → Option ι → m (Option τ)}
    (h : d.route.action = .factory build) : d.accept = pure (.error .otherAction) := by
  simp only [accept, h]

theorem build_of_opener {accept : String → Values → m Bool} (h : d.route.action = .opener accept)
    (info : Option ι) : d.build info = pure (.error .otherAction) := by
  simp only [build, h]

theorem accept_of_opener {accept : String → Values → m Bool}
    (h : d.route.action = .opener accept) :
    d.accept = do
      let taken ← accept d.url d.values
      return if taken then .ok () else .error .declined := by
  simp only [Destination.accept, h]
  refine bind_congr fun taken => ?_
  cases taken <;> rfl

theorem build_of_factory {build : String → Values → Option ι → m (Option τ)}
    (h : d.route.action = .factory build) (info : Option ι) :
    d.build info = do
      let made ← build d.url d.values info
      return made.elim (.error .declined) .ok := by
  simp only [Destination.build, h]
  refine bind_congr fun made => ?_
  cases made <;> rfl

theorem run_recorded_accept_of_factory {build : String → Values → Option ι → m (Option τ)}
    (h : d.route.action = .factory build) (calls : List (Call ι)) :
    d.recorded.accept.run calls = pure (.error .otherAction, calls) := by
  rw [accept_of_factory (recorded_action h), StateT.run_pure]

theorem run_recorded_build_of_opener {accept : String → Values → m Bool}
    (h : d.route.action = .opener accept) (info : Option ι) (calls : List (Call ι)) :
    (d.recorded.build info).run calls = pure (.error .otherAction, calls) := by
  rw [build_of_opener (recorded_action h), StateT.run_pure]

variable [LawfulMonad m]

/-- An opener is used once, whatever it answers. -/
theorem run_recorded_accept {accept : String → Values → m Bool}
    (h : d.route.action = .opener accept) (calls : List (Call ι)) :
    d.recorded.accept.run calls = do
      let taken ← accept d.url d.values
      return (if taken then .ok () else .error .declined, calls ++ [.accept d.index d.url d.values]) := by
  rw [accept_of_opener (recorded_action h)]
  simp [recorded]

theorem run_recorded_build {build : String → Values → Option ι → m (Option τ)}
    (h : d.route.action = .factory build) (info : Option ι) (calls : List (Call ι)) :
    (d.recorded.build info).run calls = do
      let made ← build d.url d.values info
      return (made.elim (.error .declined) .ok, calls ++ [.build d.index d.url d.values info]) := by
  rw [build_of_factory (recorded_action h)]
  simp [recorded]

/-- The record is kept beside what is done and changes nothing of it. -/
theorem map_fst_run_recorded_accept (d : Destination (Action m ι τ)) (calls : List (Call ι)) :
    Prod.fst <$> d.recorded.accept.run calls = d.accept := by
  cases h : d.route.action with
  | opener accept =>
    rw [run_recorded_accept h, accept_of_opener h]
    simp
  | factory build => rw [run_recorded_accept_of_factory h, accept_of_factory h, map_pure]

theorem map_fst_run_recorded_build (d : Destination (Action m ι τ)) (info : Option ι)
    (calls : List (Call ι)) : Prod.fst <$> (d.recorded.build info).run calls = d.build info := by
  cases h : d.route.action with
  | opener accept => rw [run_recorded_build_of_opener h, build_of_opener h, map_pure]
  | factory build =>
    rw [run_recorded_build h, build_of_factory h]
    simp

end Destination

namespace Router

/-- The router whose actions are all put on record, each under the place of its route. -/
def recorded (r : Router (Action m ι τ)) : Router (Action (StateT (List (Call ι)) m) ι τ) where
  defaultScheme := r.defaultScheme
  routes := r.routes.mapIdx fun index route => ⟨route.pattern, route.action.recorded index⟩

theorem getElem?_recorded (r : Router (Action m ι τ)) (i : Nat) :
    r.recorded.routes[i]? =
      r.routes[i]?.map fun route => ⟨route.pattern, route.action.recorded i⟩ :=
  List.getElem?_mapIdx

/-- A lookup does not look at the actions. -/
theorem destination?_recorded (r : Router (Action m ι τ)) (url : String) :
    r.recorded.destination? url = (r.destination? url).map Destination.recorded := by
  cases h : r.destination? url with
  | none =>
    rw [destination?_eq_none_iff] at h
    refine destination?_eq_none_iff.mpr fun route hroute => ?_
    obtain ⟨i, hi⟩ := List.getElem?_of_mem hroute
    rw [getElem?_recorded] at hi
    obtain ⟨old, hold, rfl⟩ := Option.map_eq_some_iff.mp hi
    exact h old (List.mem_of_getElem? hold)
  | some d =>
    -- A pattern stays in its place, so the routes in front of the first are the same ones.
    obtain ⟨hu, hplace, hv, hfirst⟩ := destination?_eq_some_iff.mp h
    refine destination?_eq_some_iff.mpr ⟨hu, ?_, hv, ?_⟩
    · rw [getElem?_recorded, Destination.recorded, hplace]
      rfl
    · intro i hi route hroute
      rw [getElem?_recorded] at hroute
      obtain ⟨old, hold, rfl⟩ := Option.map_eq_some_iff.mp hroute
      exact hfirst i hi old hold

/-- What comes of a url, told by where it leads. `calls` are the uses of actions on record before, and
what the actions do in `m` is done as often as they are used and in no other case. -/
structure Dispatches (r : Router (Action m ι τ)) (url : String) (info : Option ι) : Prop where
  nowhere : r.destination? url = none → ∀ calls,
    (r.recorded.tryAccept url).run calls = pure (.error .noRoute, calls) ∧
    (r.recorded.tryBuild url info).run calls = pure (.error .noRoute, calls)
  opener : ∀ d accept, r.destination? url = some d → d.route.action = .opener accept → ∀ calls,
    (r.recorded.tryAccept url).run calls = (do
      let taken ← accept url d.values
      return (if taken then .ok () else .error .declined, calls ++ [.accept d.index url d.values])) ∧
    (r.recorded.tryBuild url info).run calls = pure (.error .otherAction, calls)
  factory : ∀ d build, r.destination? url = some d → d.route.action = .factory build → ∀ calls,
    (r.recorded.tryBuild url info).run calls = (do
      let made ← build url d.values info
      return (made.elim (.error .declined) .ok, calls ++ [.build d.index url d.values info])) ∧
    (r.recorded.tryAccept url).run calls = pure (.error .otherAction, calls)
  faithful : ∀ calls,
    Prod.fst <$> (r.recorded.tryAccept url).run calls = r.tryAccept url ∧
    Prod.fst <$> (r.recorded.tryBuild url info).run calls = r.tryBuild url info
  brief : r.accepts url = Except.isOk <$> r.tryAccept url ∧
    r.build? url info = Except.toOption <$> r.tryBuild url info

section

variable {r : Router (Action m ι τ)} {url : String}

theorem tryAccept_of_none (h : r.destination? url = none) :
    r.tryAccept url = pure (.error .noRoute) := by
  simp only [tryAccept, h]

theorem tryBuild_of_none (h : r.destination? url = none) (info : Option ι) :
    r.tryBuild url info = pure (.error .noRoute) := by
  simp only [tryBuild, h]

theorem tryAccept_of_some {d : Destination (Action m ι τ)} (h : r.destination? url = some d) :
    r.tryAccept url = d.accept := by
  simp only [tryAccept, h]

theorem tryBuild_of_some {d : Destination (Action m ι τ)} (h : r.destination? url = some d)
    (info : Option ι) : r.tryBuild url info = d.build info := by
  simp only [tryBuild, h]

theorem destination?_recorded_of_none (h : r.destination? url = none) :
    r.recorded.destination? url = none := by
  rw [destination?_recorded, h, Option.map_none]

theorem destination?_recorded_of_some {d : Destination (Action m ι τ)}
    (h : r.destination? url = some d) : r.recorded.destination? url = some d.recorded := by
  rw [destination?_recorded, h, Option.map_some]

end

variable [LawfulMonad m]

/-- The first route which takes a url decides alone. If its action is of the other kind none is used,
and if it is of the right kind no other is, whether it declines or not. -/
theorem dispatches (r : Router (Action m ι τ)) (url : String) (info : Option ι) :
    r.Dispatches url info where
  nowhere := by
    intro h calls
    have hr := destination?_recorded_of_none h
    rw [tryAccept_of_none hr, tryBuild_of_none hr, StateT.run_pure, StateT.run_pure]
    exact ⟨rfl, rfl⟩
  opener := by
    intro d accept h ha calls
    have hr := destination?_recorded_of_some h
    have hu : d.url = url := (destination?_eq_some_iff.mp h).1
    rw [tryAccept_of_some hr, tryBuild_of_some hr, Destination.run_recorded_accept ha, hu]
    exact ⟨rfl, Destination.run_recorded_build_of_opener ha info calls⟩
  factory := by
    intro d build h ha calls
    have hr := destination?_recorded_of_some h
    have hu : d.url = url := (destination?_eq_some_iff.mp h).1
    rw [tryAccept_of_some hr, tryBuild_of_some hr, Destination.run_recorded_build ha, hu]
    exact ⟨rfl, Destination.run_recorded_accept_of_factory ha calls⟩
  faithful := by
    intro calls
    cases h : r.destination? url with
    | none =>
      have hr := destination?_recorded_of_none h
      rw [tryAccept_of_none hr, tryBuild_of_none hr, tryAccept_of_none h, tryBuild_of_none h]
      simp only [StateT.run_pure, map_pure, and_self]
    | some d =>
      have hr := destination?_recorded_of_some h
      rw [tryAccept_of_some hr, tryBuild_of_some hr, tryAccept_of_some h, tryBuild_of_some h]
      exact ⟨d.map_fst_run_recorded_accept calls, d.map_fst_run_recorded_build info calls⟩
  brief := by
    simp only [accepts, build?, bind_pure_comp, and_self]

/-- Three routes take the url. The first declines it, and neither the opener nor the factory behind it
is asked. -/
theorem dispatches_declined :
    ∃ r : Router (Action Id Unit Nat),
      r = empty.after [.add "a/<x>" (.opener fun _ _ => false), .add "a/<y>" (.opener fun _ _ => true),
        .add "a/<z>" (.factory fun _ _ _ => some 7)] ∧
      (∃ values : Values, values.get? "x" = some (.text "b") ∧
        (r.recorded.tryAccept "a/b?x=c").run [] =
          (.error .declined, [.accept 0 "a/b?x=c" values])) ∧
      (r.recorded.tryBuild "a/b?x=c" none).run [] = (.error .otherAction, []) ∧
      (r.recorded.tryBuild "b" none).run [] = (.error .noRoute, []) := by
  obtain ⟨r, hr⟩ : ∃ r : Router (Action Id Unit Nat),
      r = empty.after [.add "a/<x>" (.opener fun _ _ => false), .add "a/<y>" (.opener fun _ _ => true),
        .add "a/<z>" (.factory fun _ _ _ => some 7)] := ⟨_, rfl⟩
  have hfirst : (r.destination? "a/b?x=c").map (fun d => (d.index, d.values.get? "x")) =
      some (0, some (.text "b")) := by
    rw [hr]
    decide +kernel
  have hnone : (r.destination? "b").map Destination.index = none := by
    rw [hr]
    decide +kernel
  have haction : r.routes[0]?.map Route.action = some (.opener fun _ _ => false) := by
    rw [hr]
    rfl
  obtain ⟨d, hd, he⟩ := Option.map_eq_some_iff.mp hfirst
  obtain ⟨hindex, hvalues⟩ := Prod.mk.inj he
  have hplace := (destination?_eq_some_iff.mp hd).2.1
  rw [hindex] at hplace
  rw [hplace, Option.map_some, Option.some.injEq] at haction
  have hopener := (dispatches r "a/b?x=c" none).opener d _ hd haction []
  have hnowhere := (dispatches r "b" none).nowhere (Option.map_eq_none_iff.mp hnone) []
  rw [hindex] at hopener
  exact ⟨r, hr, ⟨d.values, hvalues, hopener.1⟩, hopener.2, hnowhere.2⟩

end Router

end UrlRouter
