import Mathlib.Data.List.Forall2
import UrlRouter.Proofs.Router.Reachable
import UrlRouter.Proofs.Url.Address

namespace UrlRouter

variable {α : Type}

/-- Routes which differ in nothing but the text of their patterns. -/
structure Route.Alike (x y : Route α) : Prop where
  scheme : x.pattern.scheme = y.pattern.scheme
  segments : x.pattern.segments = y.pattern.segments
  action : x.action = y.action

theorem Route.Alike.refl (x : Route α) : x.Alike x :=
  ⟨rfl, rfl, rfl⟩

/-- No url tells the two routes apart. -/
theorem Route.Alike.values? {x y : Route α} (h : x.Alike y) (address : Url.Address) :
    x.values? address = y.values? address := by
  have ha : x.pattern.admits = y.pattern.admits := by
    funext scheme
    rw [Pattern.admits, Pattern.admits, h.scheme]
  have hc : x.pattern.captures? = y.pattern.captures? := by
    funext segments
    rw [Pattern.captures?, Pattern.captures?, h.segments]
  simp only [Route.values?, ha, hc]

/-- What a lookup finds out, the text of the pattern aside. -/
def Destination.finding (d : Destination α) : Nat × α × Values :=
  (d.index, d.route.action, d.values)

namespace Router

/-- Routers which differ in nothing but the texts of their patterns. -/
structure Alike (r s : Router α) : Prop where
  defaultScheme : r.defaultScheme = s.defaultScheme
  routes : List.Forall₂ Route.Alike r.routes s.routes

/-- The same change does the same to both. -/
theorem Alike.changed {r s : Router α} (h : r.Alike s) (c : Change α) :
    (r.changed c).Alike (s.changed c) := by
  cases c with
  | setDefault raw =>
    rw [changed_setDefault, changed_setDefault]
    refine ⟨rfl, ?_⟩
    rw [setDefault_routes, setDefault_routes]
    exact h.routes
  | add pattern action =>
    cases hp : Pattern.ofSource pattern with
    | error fault =>
      rw [changed_add_of_error action hp, changed_add_of_error action hp]
      exact h
    | ok p =>
      rw [changed_add_of_ok action hp, changed_add_of_ok action hp, h.defaultScheme]
      refine ⟨rfl, List.rel_append h.routes ?_⟩
      exact .cons (Route.Alike.refl _) .nil

theorem Alike.after {r s : Router α} (h : r.Alike s) (changes : List (Change α)) :
    (r.after changes).Alike (s.after changes) := by
  induction changes generalizing r s with
  | nil => exact h
  | cons c changes ih => exact ih (h.changed c)

/-- Routers which are alike find the same for every url. -/
theorem Alike.destination? {r s : Router α} (h : r.Alike s) (url : String) :
    (r.destination? url).map Destination.finding =
      (s.destination? url).map Destination.finding := by
  simp only [Router.destination?, h.defaultScheme]
  generalize Url.Address.ofUrl url s.defaultScheme = address
  generalize 0 = n
  have hr := h.routes
  generalize r.routes = xs at hr
  generalize s.routes = ys at hr
  -- The places are counted on from `n` in both lists.
  induction hr generalizing n with
  | nil => rfl
  | @cons x y xs ys hxy _ ih =>
    simp only [List.zipIdx_cons, List.findSome?_cons, hxy.values? address]
    cases y.values? address with
    | none => exact ih (n + 1)
    | some values => simp [Destination.finding, hxy.action]

/-- Of a url a lookup sees nothing but its address. -/
theorem destination?_of_ofUrl_eq {r : Router α} {u v : String}
    (h : Url.Address.ofUrl u r.defaultScheme = Url.Address.ofUrl v r.defaultScheme) :
    r.destination? u = (r.destination? v).map fun d => { d with url := u } := by
  simp only [Router.destination?, h, List.map_findSome?, Function.comp_def, Option.map_map]

/-- Nor does it see whether the default was written out. -/
theorem Sound.destination?_default {r : Router α} (h : r.Sound) {url : String}
    (hu : ¬ Url.Scheme.Marked url) :
    r.destination? (r.defaultScheme ++ "://" ++ url) =
      (r.destination? url).map fun d => { d with url := r.defaultScheme ++ "://" ++ url } := by
  apply destination?_of_ofUrl_eq
  simp only [Url.Address.ofUrl, Url.Scheme.cut_append url h.unmarked,
    Url.Scheme.cut_of_not_marked hu, Option.getD_some, Option.getD_none]

/-- A pattern with the default in front becomes the route which it becomes without. -/
theorem Sound.add_default {r : Router α} (h : r.Sound) (hd : r.defaultScheme ≠ "")
    {pattern : String} (hn : ¬ Url.Scheme.Marked pattern) (action : α) :
    (∃ fault, r.add pattern action = (.error fault, r) ∧
      r.add (r.defaultScheme ++ "://" ++ pattern) action = (.error fault, r)) ∨
    ∃ x y : Route α, x.Alike y ∧
      r.add pattern action = (.ok (), { r with routes := r.routes ++ [x] }) ∧
      r.add (r.defaultScheme ++ "://" ++ pattern) action =
        (.ok (), { r with routes := r.routes ++ [y] }) := by
  have hb := Pattern.ofSource_append h.unmarked hn
  cases hp : Pattern.ofSource pattern with
  | error fault =>
    rw [hp] at hb
    exact .inl ⟨fault, add_of_error action hp, add_of_error action hb⟩
  | ok p =>
    rw [hp] at hb
    refine .inr ⟨_, _, ?_, add_of_ok action hp, add_of_ok action hb⟩
    rw [Pattern.withDefault_of_none (Pattern.scheme_of_not_marked hp hn) hd,
      Pattern.withDefault_of_some _ rfl]
    exact ⟨rfl, rfl, rfl⟩

theorem Alike.append {r : Router α} {x y : Route α} (h : x.Alike y) :
    Alike { r with routes := r.routes ++ [x] } { r with routes := r.routes ++ [y] } := by
  refine ⟨rfl, List.rel_append ?_ (.cons h .nil)⟩
  exact List.forall₂_same.mpr fun x _ => Route.Alike.refl x

/-- The default scheme may be written out or left out, in urls and, if it is not empty, in patterns.
The two routers which a pattern leads to have one more route each, with the same scheme and the same
segments, and whatever is done to both later, they find the same for every url. -/
structure Transparent (r : Router α) : Prop where
  lookup : ∀ url, ¬ Url.Scheme.Marked url →
    r.destination? (r.defaultScheme ++ "://" ++ url) =
      (r.destination? url).map fun d => { d with url := r.defaultScheme ++ "://" ++ url }
  add : r.defaultScheme ≠ "" → ∀ pattern action, ¬ Url.Scheme.Marked pattern →
    (∃ fault, r.add pattern action = (.error fault, r) ∧
      r.add (r.defaultScheme ++ "://" ++ pattern) action = (.error fault, r)) ∨
    ∃ s t x y, r.add pattern action = (.ok (), s) ∧
      r.add (r.defaultScheme ++ "://" ++ pattern) action = (.ok (), t) ∧
      s.routes = r.routes ++ [x] ∧ t.routes = r.routes ++ [y] ∧ x.Alike y ∧
      ∀ later url, ((s.after later).destination? url).map Destination.finding =
        ((t.after later).destination? url).map Destination.finding

theorem Sound.transparent {r : Router α} (h : r.Sound) : r.Transparent where
  lookup := fun _ hu => h.destination?_default hu
  add := by
    intro hd pattern action hn
    rcases h.add_default hd hn action with hf | ⟨x, y, hxy, hx, hy⟩
    · exact .inl hf
    · refine .inr ⟨_, _, x, y, hx, hy, rfl, rfl, hxy, ?_⟩
      intro later url
      exact ((Alike.append hxy).after later).destination? url

/-- However a router came about, its default scheme is transparent. -/
theorem transparent_after (changes : List (Change α)) : (empty.after changes).Transparent :=
  (sound_after changes).transparent

/-- A default which ends like the begin of a mark, and a url and a pattern which begin like the end
of one. -/
theorem transparent_after_slashes :
    ∃ r : Router Unit, r = empty.after [.add "user/<int:id>" (), .setDefault "app:/:"] ∧
      r.defaultScheme = "app:/" ∧ ¬ Url.Scheme.Marked "//user/1" ∧
      ¬ Url.Scheme.Marked "//<page>" ∧
      r.destination? ("app:/" ++ "://" ++ "//user/1") =
        (r.destination? "//user/1").map (fun d =>
          { d with url := "app:/" ++ "://" ++ "//user/1" }) ∧
      ((∃ fault, r.add "//<page>" () = (.error fault, r) ∧
        r.add ("app:/" ++ "://" ++ "//<page>") () = (.error fault, r)) ∨
      ∃ s t x y, r.add "//<page>" () = (.ok (), s) ∧
        r.add ("app:/" ++ "://" ++ "//<page>") () = (.ok (), t) ∧
        s.routes = r.routes ++ [x] ∧ t.routes = r.routes ++ [y] ∧ x.Alike y ∧
        ∀ later url, ((s.after later).destination? url).map Destination.finding =
          ((t.after later).destination? url).map Destination.finding) := by
  have h := transparent_after [.add "user/<int:id>" (), .setDefault "app:/:"]
  obtain ⟨r, hr⟩ : ∃ r : Router Unit,
      r = empty.after [.add "user/<int:id>" (), .setDefault "app:/:"] := ⟨_, rfl⟩
  rw [← hr] at h
  have hd : r.defaultScheme = "app:/" := by
    have hb : Url.Scheme.bare "app:/:" = "app:/" := by decide
    rw [← hb, hr, after, List.foldl_cons, List.foldl_cons, List.foldl_nil, changed_setDefault,
      setDefault]
  have hu : ¬ Url.Scheme.Marked "//user/1" := by decide
  have hp : ¬ Url.Scheme.Marked "//<page>" := by decide
  have hl := h.lookup "//user/1" hu
  have ha := h.add (by rw [hd]; decide) "//<page>" () hp
  rw [hd] at hl ha
  exact ⟨r, hr, hd, hu, hp, hl, ha⟩

end Router

end UrlRouter
