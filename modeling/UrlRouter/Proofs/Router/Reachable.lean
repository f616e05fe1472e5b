import UrlRouter.Proofs.Pattern.Compiled
import UrlRouter.Proofs.Url.Scheme
import UrlRouter.Router.Basic

namespace UrlRouter

variable {α : Type}

/-- Why a change fails. The pattern alone decides, whatever was done to the router before. -/
def Change.fault? : Change α → Option Pattern.Fault
  | .setDefault _ => none
  | .add pattern _ =>
    match Pattern.ofSource pattern with
    | .ok _ => none
    | .error fault => some fault

theorem Change.fault?_add_eq_some_iff {pattern : String} {action : α} {fault : Pattern.Fault} :
    (Change.add pattern action).fault? = some fault ↔
      Pattern.ofSource pattern = .error fault := by
  cases hp : Pattern.ofSource pattern <;> simp [fault?, hp]

theorem Change.fault?_add_eq_none_iff {pattern : String} {action : α} :
    (Change.add pattern action).fault? = none ↔ ∃ p, Pattern.ofSource pattern = .ok p := by
  cases hp : Pattern.ofSource pattern <;> simp [fault?, hp]

/-- How a route came to its pattern: from a source, and with a scheme lent to it if it named none. -/
def Pattern.Registered (p : Pattern) : Prop :=
  ∃ source compiled scheme, ofSource source = .ok compiled ∧ ¬ Url.Scheme.Marked scheme ∧
    p = compiled.withDefault scheme

namespace Router

theorem add_of_error {r : Router α} {pattern : String} {fault : Pattern.Fault} (action : α)
    (h : Pattern.ofSource pattern = .error fault) : r.add pattern action = (.error fault, r) := by
  simp only [add, h]

theorem add_of_ok {r : Router α} {pattern : String} {p : Pattern} (action : α)
    (h : Pattern.ofSource pattern = .ok p) :
    r.add pattern action =
      (.ok (), { r with routes := r.routes ++ [⟨p.withDefault r.defaultScheme, action⟩] }) := by
  simp only [add, h]

@[simp] theorem setDefault_routes (r : Router α) (raw : String) :
    (r.setDefault raw).routes = r.routes := by
  simp only [setDefault]

theorem changed_setDefault (r : Router α) (raw : String) :
    r.changed (.setDefault raw) = r.setDefault raw := rfl

theorem changed_add_of_error {r : Router α} {pattern : String} {fault : Pattern.Fault} (action : α)
    (h : Pattern.ofSource pattern = .error fault) : r.changed (.add pattern action) = r := by
  simp only [changed, change, add_of_error action h]

theorem changed_add_of_ok {r : Router α} {pattern : String} {p : Pattern} (action : α)
    (h : Pattern.ofSource pattern = .ok p) :
    r.changed (.add pattern action) =
      { r with routes := r.routes ++ [⟨p.withDefault r.defaultScheme, action⟩] } := by
  simp only [changed, change, add_of_ok action h]

/-- All that a change can do: give a new default, append one route, or nothing. -/
theorem changed_cases (r : Router α) (c : Change α) :
    (∃ raw, c = .setDefault raw ∧ r.changed c = r.setDefault raw) ∨
    (∃ pattern action p, c = .add pattern action ∧ Pattern.ofSource pattern = .ok p ∧
      r.changed c = { r with routes := r.routes ++ [⟨p.withDefault r.defaultScheme, action⟩] }) ∨
    (∃ pattern action fault, c = .add pattern action ∧
      Pattern.ofSource pattern = .error fault ∧ r.changed c = r) := by
  cases c with
  | setDefault raw => exact .inl ⟨raw, rfl, changed_setDefault r raw⟩
  | add pattern action =>
    cases hp : Pattern.ofSource pattern with
    | ok p => exact .inr (.inl ⟨pattern, action, p, rfl, hp, changed_add_of_ok action hp⟩)
    | error fault =>
      exact .inr (.inr ⟨pattern, action, fault, rfl, hp, changed_add_of_error action hp⟩)

theorem change_of_fault {c : Change α} {fault : Pattern.Fault} (r : Router α)
    (h : c.fault? = some fault) : r.change c = (.error fault, r) := by
  cases c with
  | setDefault raw => cases h
  | add pattern action =>
    rw [change]
    exact add_of_error action (Change.fault?_add_eq_some_iff.mp h)

theorem change_of_no_fault {c : Change α} (r : Router α) (h : c.fault? = none) :
    r.change c = (.ok (), r.changed c) := by
  cases c with
  | setDefault raw => rfl
  | add pattern action =>
    obtain ⟨p, hp⟩ := Change.fault?_add_eq_none_iff.mp h
    rw [changed_add_of_ok action hp, change]
    exact add_of_ok action hp

/-- A change fails on every router or on none. -/
theorem change_fst_eq_error_iff {r : Router α} {c : Change α} {fault : Pattern.Fault} :
    (r.change c).1 = .error fault ↔ c.fault? = some fault := by
  cases hc : c.fault? with
  | some other => simp [change_of_fault r hc]
  | none => simp [change_of_no_fault r hc]

theorem changed_of_fault {c : Change α} {fault : Pattern.Fault} (r : Router α)
    (h : c.fault? = some fault) : r.changed c = r := by
  rw [changed, change_of_fault r h]

theorem after_cons (r : Router α) (c : Change α) (changes : List (Change α)) :
    r.after (c :: changes) = (r.changed c).after changes := rfl

/-- What holds of every router that came about by changes. The default holds no mark, so in front of
a mark it is a scheme and nothing else. -/
structure Sound (r : Router α) : Prop where
  unmarked : ¬ Url.Scheme.Marked r.defaultScheme
  wellFormed : ∀ route ∈ r.routes, route.pattern.WellFormed

theorem sound_empty : (empty : Router α).Sound :=
  ⟨(by decide : ¬ Url.Scheme.Marked ""), by simp [empty]⟩

theorem Sound.changed {r : Router α} (h : r.Sound) (c : Change α) : (r.changed c).Sound := by
  obtain ⟨raw, rfl, he⟩ | ⟨pattern, action, p, rfl, hp, he⟩ | ⟨_, _, _, rfl, _, he⟩ :=
    changed_cases r c
  · rw [he]
    refine ⟨Url.Scheme.not_marked_bare raw, ?_⟩
    rw [setDefault_routes]
    exact h.wellFormed
  · rw [he]
    refine ⟨h.unmarked, ?_⟩
    intro route hr
    rcases List.mem_append.mp hr with hr | hr
    · exact h.wellFormed route hr
    · cases List.mem_singleton.mp hr
      exact (Pattern.ofSource_wellFormed hp).withDefault _
  · rw [he]
    exact h

theorem Sound.after {r : Router α} (h : r.Sound) (changes : List (Change α)) :
    (r.after changes).Sound := by
  induction changes generalizing r with
  | nil => exact h
  | cons c changes ih => exact ih (h.changed c)

/-- A router is sound whatever was done to it, in whatever order. -/
theorem sound_after (changes : List (Change α)) : (empty.after changes).Sound :=
  sound_empty.after changes

theorem Sound.registered_changed {r : Router α} (h : r.Sound)
    (hr : ∀ route ∈ r.routes, route.pattern.Registered) (c : Change α) :
    ∀ route ∈ (r.changed c).routes, route.pattern.Registered := by
  obtain ⟨raw, rfl, he⟩ | ⟨pattern, action, p, rfl, hp, he⟩ | ⟨_, _, _, rfl, _, he⟩ :=
    changed_cases r c
  · rwa [he, setDefault_routes]
  · rw [he]
    intro route hroute
    rcases List.mem_append.mp hroute with hroute | hroute
    · exact hr route hroute
    · cases List.mem_singleton.mp hroute
      exact ⟨pattern, p, r.defaultScheme, hp, h.unmarked, rfl⟩
  · rwa [he]

theorem Sound.registered_after {r : Router α} (h : r.Sound)
    (hr : ∀ route ∈ r.routes, route.pattern.Registered) (changes : List (Change α)) :
    ∀ route ∈ (r.after changes).routes, route.pattern.Registered := by
  induction changes generalizing r with
  | nil => exact hr
  | cons c changes ih => exact ih (h.changed c) (h.registered_changed hr c)

/-- Whatever was done to a router, each of its patterns was compiled once. -/
theorem registered_of_mem {changes : List (Change α)} {route : Route α}
    (h : route ∈ (empty.after changes).routes) : route.pattern.Registered :=
  sound_empty.registered_after (by simp [empty]) changes route h

end Router

end UrlRouter
