import UrlRouter.Proofs.Router.Reachable
import UrlRouter.Router.Script

namespace UrlRouter

variable {α : Type}

namespace Router

theorem changeAll_cons_of_fault {c : Change α} {fault : Pattern.Fault} (r : Router α)
    (changes : List (Change α)) (h : c.fault? = some fault) :
    r.changeAll (c :: changes) = .error fault := by
  rw [changeAll, change_of_fault r h]

theorem changeAll_cons_of_no_fault {c : Change α} (r : Router α) (changes : List (Change α))
    (h : c.fault? = none) : r.changeAll (c :: changes) = (r.changed c).changeAll changes := by
  rw [changeAll, change_of_no_fault r h]

/-- Changes made one by one up to the first which fails are either all made or come to its fault. -/
theorem changeAll_eq (r : Router α) (changes : List (Change α)) :
    r.changeAll changes =
      match changes.findSome? Change.fault? with
      | some fault => .error fault
      | none => .ok (r.after changes) := by
  induction changes generalizing r with
  | nil => rfl
  | cons c changes ih =>
    rw [List.findSome?_cons]
    cases hc : c.fault? with
    | some fault => rw [changeAll_cons_of_fault r changes hc]
    | none => rw [changeAll_cons_of_no_fault r changes hc, ih, after_cons]

theorem changeAll_eq_error_iff {r : Router α} {changes : List (Change α)} {fault : Pattern.Fault} :
    r.changeAll changes = .error fault ↔ changes.findSome? Change.fault? = some fault := by
  rw [changeAll_eq]
  cases changes.findSome? Change.fault? <;> simp

theorem changeAll_eq_ok_iff {r s : Router α} {changes : List (Change α)} :
    r.changeAll changes = .ok s ↔ (∀ c ∈ changes, c.fault? = none) ∧ s = r.after changes := by
  rw [changeAll_eq, ← List.findSome?_eq_none_iff]
  cases changes.findSome? Change.fault? <;> simp [eq_comm]

end Router

namespace Draft

def changed (d : Draft α) : Change α → Draft α
  | .setDefault raw => d.setDefault raw
  | .add pattern action => d.add pattern action

theorem changed_of_fault {d : Draft α} {fault : Pattern.Fault} (c : Change α)
    (h : d.fault = some fault) : (d.changed c).fault = some fault := by
  cases c with
  | setDefault raw => simp only [changed, setDefault, h]
  | add pattern action => simp only [changed, add, h]

/-- A fault on record is kept through whatever follows. -/
theorem result_foldl_of_fault {d : Draft α} {fault : Pattern.Fault} (changes : List (Change α))
    (h : d.fault = some fault) : (changes.foldl changed d).result = .error fault := by
  induction changes generalizing d with
  | nil => simp only [List.foldl_nil, result, h]
  | cons c changes ih =>
    rw [List.foldl_cons]
    exact ih (changed_of_fault c h)

/-- As long as there is no fault, a draft is changed as its router is. -/
theorem changed_of_no_fault (r : Router α) (c : Change α) :
    changed ⟨r, none⟩ c = ⟨r.changed c, c.fault?⟩ := by
  cases c with
  | setDefault raw => rfl
  | add pattern action =>
    cases hp : Pattern.ofSource pattern with
    | ok p =>
      simp only [changed, add, Change.fault?, hp, Router.add_of_ok action hp,
        Router.changed_add_of_ok action hp]
    | error fault =>
      simp only [changed, add, Change.fault?, hp, Router.add_of_error action hp,
        Router.changed_add_of_error action hp]

theorem result_foldl (r : Router α) (changes : List (Change α)) :
    (changes.foldl changed ⟨r, none⟩).result = r.changeAll changes := by
  induction changes generalizing r with
  | nil => rfl
  | cons c changes ih =>
    rw [List.foldl_cons, changed_of_no_fault]
    cases hc : c.fault? with
    | some fault =>
      rw [Router.changeAll_cons_of_fault r changes hc]
      exact result_foldl_of_fault changes rfl
    | none => rw [Router.changeAll_cons_of_no_fault r changes hc, ih]

end Draft

namespace Script

/-- What a script asks for at one of its places: a default scheme, or a route inside the scopes which
begin with `starts`, the outermost first. -/
inductive Request (α : Type) where
  | scheme (raw : String)
  | route (starts : List String) (pattern : String) (action : α)

def Request.change : Request α → Change α
  | .scheme raw => .setDefault raw
  | .route starts pattern action => .add (nested (starts.foldl nested "") pattern) action

theorem Request.fault?_route_eq_some_iff {starts : List String} {pattern : String} {action : α}
    {fault : Pattern.Fault} : (route starts pattern action).change.fault? = some fault ↔
      Pattern.ofSource (nested (starts.foldl nested "") pattern) = .error fault := by
  rw [change, Change.fault?_add_eq_some_iff]

/-- The requests of a script from top to bottom, scopes opened. A route without an action is none. -/
def requests (starts : List String) : Script α → List (Request α)
  | .done => []
  | .scheme raw next => .scheme raw :: next.requests starts
  | .map pattern action next =>
    (action.map (.route starts pattern)).toList ++ next.requests starts
  | .scope inner body next => body.requests (starts ++ [inner]) ++ next.requests starts

/-- It is the same whether the starts of the scopes are put together on the way or at each route. -/
theorem changes_eq_map_requests (s : Script α) (starts : List String) :
    s.changes (starts.foldl nested "") = (s.requests starts).map Request.change := by
  induction s generalizing starts with
  | done => rfl
  | scheme raw next ih => simp only [changes, requests, List.map_cons, Request.change, ih]
  | map pattern action next ih =>
    rw [changes, requests, List.map_append, ih]
    cases action <;> rfl
  | scope inner body next hbody hnext =>
    have hb := hbody (starts ++ [inner])
    rw [List.foldl_append, List.foldl_cons, List.foldl_nil] at hb
    rw [changes, requests, List.map_append, hb, hnext]

/-- The draft is handed through the scopes, so what is drawn in a scope is drawn in its place. -/
theorem draw_eq_foldl_changes (s : Script α) (start : String) (d : Draft α) :
    s.draw start d = (s.changes start).foldl Draft.changed d := by
  induction s generalizing start d with
  | done => rfl
  | scheme raw next ih => rw [draw, changes, List.foldl_cons, ih, Draft.changed]
  | map pattern action next ih =>
    cases action with
    | none => rw [draw, changes, ih, Option.map_none, Option.toList_none, List.nil_append]
    | some a =>
      rw [draw, changes, ih, Option.map_some, Option.toList_some, List.singleton_append,
        List.foldl_cons, Draft.changed]
  | scope inner body next hbody hnext =>
    rw [draw, changes, List.foldl_append, hbody, hnext]

/-- A script builds the router which its requests lead to one after the other, scopes or not, and if
some of them fail, what it comes to is the fault of the first. -/
theorem build_eq_changeAll_requests (s : Script α) :
    s.build = Router.empty.changeAll ((s.requests []).map Request.change) ∧
    (∀ fault, s.build = .error fault ↔
      ∃ before starts pattern action later,
        s.requests [] = before ++ .route starts pattern action :: later ∧
        (∀ q ∈ before, q.change.fault? = none) ∧
        Pattern.ofSource (nested (starts.foldl nested "") pattern) = .error fault) ∧
    ∀ r, s.build = .ok r ↔
      (∀ q ∈ s.requests [], q.change.fault? = none) ∧
        r = Router.empty.after ((s.requests []).map Request.change) := by
  have hb : s.build = Router.empty.changeAll ((s.requests []).map Request.change) := by
    rw [← changes_eq_map_requests, ← Draft.result_foldl, build, draw_eq_foldl_changes]
    rfl
  refine ⟨hb, ?_, ?_⟩
  · intro fault
    rw [hb, Router.changeAll_eq_error_iff, List.findSome?_map, List.findSome?_eq_some_iff]
    simp only [Function.comp_apply]
    constructor
    · intro h
      obtain ⟨before, q, later, hs, hf, hn⟩ := h
      cases q with
      | scheme raw => cases hf
      | route starts pattern action =>
        rw [Request.fault?_route_eq_some_iff] at hf
        exact ⟨before, starts, pattern, action, later, hs, hn, hf⟩
    · intro h
      obtain ⟨before, starts, pattern, action, later, hs, hn, hf⟩ := h
      exact ⟨before, .route starts pattern action, later, hs,
        Request.fault?_route_eq_some_iff.mpr hf, hn⟩
  · intro r
    rw [hb, Router.changeAll_eq_ok_iff, List.forall_mem_map]

end Script

end UrlRouter
