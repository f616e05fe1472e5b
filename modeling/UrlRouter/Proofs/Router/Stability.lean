import UrlRouter.Proofs.Router.FirstMatch
import UrlRouter.Proofs.Router.History
import UrlRouter.Proofs.Url.Address

namespace UrlRouter.Router

variable {α : Type} {r s : Router α} {url : String} {d : Destination α}

/-- A default scheme has a say in the address of a url only if the url names none. -/
theorem address_congr (h : Url.Scheme.Marked url ∨ s.defaultScheme = r.defaultScheme) :
    s.address url = r.address url := by
  rcases h with hm | hd
  · exact Url.Address.ofUrl_of_marked hm s.defaultScheme r.defaultScheme
  · rw [address, address, hd]

theorem index_lt_size (h : r.destination? url = some d) : d.index < r.size := by
  obtain ⟨-, hplace, -, -⟩ := destination?_eq_some_iff.mp h
  exact (List.getElem?_eq_some_iff.mp hplace).1

section Appended

variable {routes : List (Route α)}

/-- The route which a url leads to is found before any which is behind it. -/
theorem destination?_of_appended (hr : s.routes = r.routes ++ routes)
    (ha : s.address url = r.address url) (h : r.destination? url = some d) :
    s.destination? url = some d := by
  have hlt : d.index < r.routes.length := index_lt_size h
  have hsame : ∀ i, i ≤ d.index → s.routes[i]? = r.routes[i]? := by
    intro i hi
    rw [hr, List.getElem?_append_left (by omega)]
  obtain ⟨hu, hplace, hv, hfirst⟩ := destination?_eq_some_iff.mp h
  refine destination?_eq_some_iff.mpr ⟨hu, ?_, ?_, ?_⟩
  · rw [hsame d.index (Nat.le_refl _), hplace]
  · rw [ha, hv]
  · intro i hi route hroute
    rw [hsame i (Nat.le_of_lt hi)] at hroute
    rw [ha]
    exact hfirst i hi route hroute

/-- Where no route took a url, none of the old routes takes it later. -/
theorem appended_of_destination? (hr : s.routes = r.routes ++ routes)
    (ha : s.address url = r.address url) (hn : r.destination? url = none)
    (h : s.destination? url = some d) :
    r.size ≤ d.index ∧ routes[d.index - r.size]? = some d.route := by
  obtain ⟨-, hplace, hv, -⟩ := destination?_eq_some_iff.mp h
  have hle : r.size ≤ d.index := by
    by_contra hlt
    rw [hr, List.getElem?_append_left (Nat.lt_of_not_le hlt)] at hplace
    have htakes := destination?_eq_none_iff.mp hn d.route (List.mem_of_getElem? hplace)
    rw [← ha, ← Route.values?_eq_none_iff, hv] at htakes
    cases htakes
  refine ⟨hle, ?_⟩
  rwa [hr, List.getElem?_append_right hle] at hplace

end Appended

/-- What lookups of a url before some changes say of those after them. A url which led somewhere
leads there still, with the same values; if it led nowhere, a route which takes it now was made from
one of the patterns accepted since. -/
structure Keeps (r s : Router α) (url : String) (accepted : List (Entry α)) : Prop where
  found : ∀ d, r.destination? url = some d → s.destination? url = some d
  missed : r.destination? url = none → ∀ d, s.destination? url = some d →
    r.size ≤ d.index ∧ ∃ e, accepted[d.index - r.size]? = some e ∧ e.Makes d.route

/-- Whatever is done to a router later, failing or not, a url keeps its route, and only a new route can
take one which had none. A url which names no scheme needs the same default as before. -/
theorem keeps_after (r : Router α) (changes : List (Change α))
    (h : Url.Scheme.Marked url ∨ (r.after changes).defaultScheme = r.defaultScheme) :
    r.Keeps (r.after changes) url (entries r.defaultScheme changes) := by
  -- Only the last default can reach the lookup: each route was given its own when it was added.
  have ha := address_congr h
  obtain ⟨routes, hr, hmakes⟩ := routes_after r changes
  refine ⟨fun d hd => destination?_of_appended hr ha hd, ?_⟩
  intro hn d hd
  obtain ⟨hle, hroute⟩ := appended_of_destination? hr ha hn hd
  obtain ⟨hlt, hget⟩ := List.getElem?_eq_some_iff.mp hroute
  obtain ⟨hlen, hall⟩ := List.forall₂_iff_get.mp hmakes
  refine ⟨hle, _, List.getElem?_eq_getElem (by omega), ?_⟩
  rw [← hget]
  exact hall _ (by omega) hlt

/-- The default is changed and restored, one pattern is refused, and another takes every url of the
scheme which was the default in between. -/
theorem keeps_after_restored :
    ∃ (r : Router Unit) (changes : List (Change Unit)),
      r = empty.after [.setDefault "app", .add "user/<name>" ()] ∧
      changes = [.setDefault "web", .add "<path:all>" (), .add "<a>/<a>" (), .setDefault "app:"] ∧
      (r.after changes).defaultScheme = r.defaultScheme ∧ Url.Scheme.Marked "web://user/7" ∧
      (∃ d, d.index = 0 ∧ r.destination? "user/7" = some d ∧
        (r.after changes).destination? "user/7" = some d) ∧
      r.destination? "web://user/7" = none ∧
      ∃ d, (r.after changes).destination? "web://user/7" = some d ∧ r.size ≤ d.index ∧
        (Entry.mk "<path:all>" () "web").Makes d.route := by
  obtain ⟨r, hr⟩ : ∃ r : Router Unit, r = empty.after [.setDefault "app", .add "user/<name>" ()] :=
    ⟨_, rfl⟩
  obtain ⟨changes, hchanges⟩ : ∃ changes : List (Change Unit), changes =
    [.setDefault "web", .add "<path:all>" (), .add "<a>/<a>" (), .setDefault "app:"] := ⟨_, rfl⟩
  have hd : (r.after changes).defaultScheme = r.defaultScheme := by
    rw [hr, hchanges]
    decide
  have hm : Url.Scheme.Marked "web://user/7" := by decide
  have hfirst : (r.destination? "user/7").map Destination.index = some 0 := by
    rw [hr]
    decide +kernel
  have hnone : (r.destination? "web://user/7").map Destination.index = none := by
    rw [hr]
    decide +kernel
  have hlater : ((r.after changes).destination? "web://user/7").map Destination.index = some 1 := by
    rw [hr, hchanges]
    decide +kernel
  have he : entries r.defaultScheme changes = [⟨"<path:all>", (), "web"⟩] := by
    rw [hr, hchanges]
    rfl
  obtain ⟨d, hfound, hindex⟩ := Option.map_eq_some_iff.mp hfirst
  obtain ⟨e, htaken, hplace⟩ := Option.map_eq_some_iff.mp hlater
  have hn := Option.map_eq_none_iff.mp hnone
  have hkept := (keeps_after r changes (.inr hd)).found d hfound
  obtain ⟨hle, entry, hentry, hmakes⟩ := (keeps_after r changes (.inl hm)).missed hn e htaken
  rw [he, List.getElem?_singleton] at hentry
  split at hentry
  · cases hentry
    exact ⟨r, changes, hr, hchanges, hd, hm, ⟨d, hindex, hfound, hkept⟩, hn, e, htaken, hle, hmakes⟩
  · cases hentry

end UrlRouter.Router
