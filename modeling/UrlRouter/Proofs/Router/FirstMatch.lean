import UrlRouter.Proofs.Pattern.Walk
import UrlRouter.Proofs.Router.Reachable

namespace UrlRouter

variable {α : Type}

/-- The first element which `f` makes something of stands at some place, and none before it. -/
theorem findSome?_zipIdx_eq_some_iff {β γ : Type} {f : β × Nat → Option γ} {xs : List β} {n : Nat}
    {y : γ} : (xs.zipIdx n).findSome? f = some y ↔
      ∃ i x, xs[i]? = some x ∧ f (x, n + i) = some y ∧
        ∀ j < i, ∀ z, xs[j]? = some z → f (z, n + j) = none := by
  induction xs generalizing n with
  | nil => simp
  | cons x xs ih =>
    rw [List.zipIdx_cons, List.findSome?_cons]
    cases hf : f (x, n) with
    | some w =>
      constructor
      · intro h
        cases h
        exact ⟨0, x, rfl, hf, by simp⟩
      · intro h
        obtain ⟨i, z, hz, hy, hb⟩ := h
        cases i with
        | zero =>
          cases hz
          exact hf.symm.trans hy
        | succ i =>
          have hn := hb 0 (by omega) x rfl
          rw [Nat.add_zero, hf] at hn
          cases hn
    | none =>
      simp only
      rw [ih]
      constructor
      · intro h
        obtain ⟨i, z, hz, hy, hb⟩ := h
        refine ⟨i + 1, z, hz, by rwa [← Nat.add_assoc, Nat.add_right_comm], ?_⟩
        intro j hj w hw
        cases j with
        | zero =>
          cases hw
          exact hf
        | succ j =>
          rw [← Nat.add_assoc, Nat.add_right_comm]
          exact hb j (by omega) w hw
      · intro h
        obtain ⟨i, z, hz, hy, hb⟩ := h
        cases i with
        | zero =>
          cases hz
          rw [Nat.add_zero, hf] at hy
          cases hy
        | succ i =>
          refine ⟨i, z, hz, by rwa [Nat.add_right_comm, Nat.add_assoc], ?_⟩
          intro j hj w hw
          rw [Nat.add_right_comm, Nat.add_assoc]
          exact hb (j + 1) (by omega) w hw

/-- A url with this address can lead to the route. -/
def Route.Takes (route : Route α) (address : Url.Address) : Prop :=
  route.pattern.admits address.scheme = true ∧
    (route.pattern.captures? address.segments).isSome = true

theorem Route.values?_eq_some_iff {route : Route α} {address : Url.Address} {values : Values} :
    route.values? address = some values ↔ route.pattern.admits address.scheme = true ∧
      ∃ captures, route.pattern.captures? address.segments = some captures ∧
        Values.ofMatch address.query captures = values := by
  unfold values?
  split
  · rename_i h
    simp [h]
  · rename_i h
    simp [h]

theorem Route.values?_eq_none_iff {route : Route α} {address : Url.Address} :
    route.values? address = none ↔ ¬ route.Takes address := by
  simp only [values?, Takes]
  split
  · rename_i h
    simp [h]
  · rename_i h
    simp [h]

namespace Router

/-- The address of a url for a router which lends its default scheme. -/
def address (r : Router α) (url : String) : Url.Address :=
  Url.Address.ofUrl url r.defaultScheme

/-- The query is the same whatever scheme is lent, so factories which ask for the parameters of the
url itself see those among its values. -/
theorem query_address (r : Router α) (url : String) :
    (r.address url).query = Url.parametersOf url := by
  simp only [address, Url.parametersOf, Url.Address.ofUrl]

theorem destination?_eq_none_iff {r : Router α} {url : String} :
    r.destination? url = none ↔ ∀ route ∈ r.routes, ¬ route.Takes (r.address url) := by
  simp only [destination?, List.findSome?_eq_none_iff, Option.map_eq_none_iff,
    Route.values?_eq_none_iff, Prod.forall]
  constructor
  · intro h route hr
    obtain ⟨i, hi⟩ := List.getElem?_of_mem hr
    exact h route i (List.mem_zipIdx_iff_getElem?.mpr hi)
  · intro h route i hi
    exact h route (List.mem_of_getElem? (List.mem_zipIdx_iff_getElem?.mp hi))

theorem destination?_eq_some_iff {r : Router α} {url : String} {d : Destination α} :
    r.destination? url = some d ↔ d.url = url ∧ r.routes[d.index]? = some d.route ∧
      d.route.values? (r.address url) = some d.values ∧
      ∀ i < d.index, ∀ route, r.routes[i]? = some route → ¬ route.Takes (r.address url) := by
  unfold destination?
  rw [findSome?_zipIdx_eq_some_iff]
  simp only [Nat.zero_add, Option.map_eq_none_iff, Option.map_eq_some_iff,
    Route.values?_eq_none_iff]
  constructor
  · intro h
    obtain ⟨i, route, hr, ⟨values, hv, rfl⟩, hb⟩ := h
    exact ⟨rfl, hr, hv, hb⟩
  · intro h
    obtain ⟨hu, hr, hv, hb⟩ := h
    exact ⟨d.index, d.route, hr, ⟨d.values, hv, by rw [← hu]⟩, hb⟩

/-- What a router has to find out about a url: the first route which takes it, and all that is known
then. A capture hides a parameter of the same name, and nothing else is made up. -/
structure Leads (r : Router α) (url : String) (d : Destination α) : Prop where
  verbatim : d.url = url
  place : r.routes[d.index]? = some d.route
  first : ∀ i < d.index, ∀ route, r.routes[i]? = some route → ¬ route.Takes (r.address url)
  admitted : d.route.pattern.admits (r.address url).scheme = true
  known : ∃ captures, d.route.pattern.captures? (r.address url).segments = some captures ∧
    ∀ k, if k ∈ Pattern.names d.route.pattern.segments
      then ∃ v, captures.get? k = some v ∧ d.values.get? k = some v
      else d.values.get? k = ((Url.parametersOf url).get? k).map Value.text

/-- The values of a match, told key by key. -/
theorem ofMatch_eq_iff {p : Pattern} (hw : p.WellFormed) {xs : List String} {captures : Values}
    (hc : p.captures? xs = some captures) (query : Mapping String) (values : Values) :
    Values.ofMatch query captures = values ↔
      ∀ k, if k ∈ Pattern.names p.segments
        then ∃ v, captures.get? k = some v ∧ values.get? k = some v
        else values.get? k = (query.get? k).map Value.text := by
  have hk := hw.isSome_get?_iff hc
  constructor
  · rintro rfl k
    rw [Values.get?_ofMatch]
    split
    · rename_i hm
      obtain ⟨v, hv⟩ := Option.isSome_iff_exists.mp ((hk k).mpr hm)
      exact ⟨v, hv, by simp [hv]⟩
    · rename_i hm
      have hn : captures.get? k = none := by simpa [← hk k] using hm
      simp [hn]
  · intro h
    refine Mapping.ext_get? fun k => ?_
    have h := h k
    rw [Values.get?_ofMatch]
    split at h
    · obtain ⟨v, hv, he⟩ := h
      simp [hv, he]
    · rename_i hm
      have hn : captures.get? k = none := by simpa [← hk k] using hm
      simp [hn, h]

theorem Sound.destination?_eq_some_iff_leads {r : Router α} (hs : r.Sound) {url : String}
    {d : Destination α} : r.destination? url = some d ↔ r.Leads url d := by
  rw [destination?_eq_some_iff]
  constructor
  · intro h
    obtain ⟨hu, hr, hv, hb⟩ := h
    obtain ⟨ha, captures, hc, he⟩ := Route.values?_eq_some_iff.mp hv
    have hw := hs.wellFormed d.route (List.mem_of_getElem? hr)
    rw [query_address] at he
    exact ⟨hu, hr, hb, ha, captures, hc, (ofMatch_eq_iff hw hc _ _).mp he⟩
  · intro h
    obtain ⟨hu, hr, hb, ha, captures, hc, he⟩ := h
    have hw := hs.wellFormed d.route (List.mem_of_getElem? hr)
    have hv := (ofMatch_eq_iff hw hc _ _).mpr he
    rw [← query_address r url] at hv
    exact ⟨hu, hr, Route.values?_eq_some_iff.mpr ⟨ha, captures, hc, hv⟩, hb⟩

/-- Whatever was done to a router, a url leads to the first of its routes which takes it, and
nowhere if none does. -/
theorem destination?_after (changes : List (Change α)) (url : String) :
    ((empty.after changes).destination? url = none ↔
      ∀ route ∈ (empty.after changes).routes,
        ¬ route.Takes ((empty.after changes).address url)) ∧
    ∀ d, (empty.after changes).destination? url = some d ↔ (empty.after changes).Leads url d :=
  ⟨destination?_eq_none_iff, fun _ => (sound_after changes).destination?_eq_some_iff_leads⟩

end Router

end UrlRouter
