import UrlRouter.Proofs.Pattern.Rendering
import UrlRouter.Proofs.Url.Address

namespace UrlRouter.Pattern

variable {p : Pattern} {vs : Values}

theorem not_mem_render {c : Char} (hc : c ≠ '/') (hd : c ≠ '-') (hn : c.isDigit = false)
    (hl : ∀ text, .literal text ∈ p.segments → c ∉ text.toList)
    (ht : ∀ k w, vs.get? k = some (.text w) → c ∉ w.toList) : c ∉ (p.render vs).toList := by
  intro hm
  obtain ⟨x, hx, hm⟩ := Url.Path.mem_join hc hm
  obtain ⟨s, hs, rfl⟩ := List.mem_map.mp hx
  have hv : ∀ name, c ∉ (((vs.get? name).map Value.display).getD "").toList := by
    intro name
    cases hg : vs.get? name with
    | none => simp
    | some v =>
      cases v with
      | text w => exact ht name w hg
      | int n =>
        intro hi
        rcases Decimal.mem_repr hi with h | h
        · exact hd h
        · rw [hn] at h
          cases h
  cases s with
  | literal text => exact hl text hs hm
  | capture name kind => exact hv name hm
  | path name => exact hv name hm

/-- Reverse routing. A compiled pattern leads from any values which can fill it to a url which it
matches with these very values, and from any url which it matches back to a path which it matches
alike. -/
theorem render_round_trip {source : String} (h : ofSource source = .ok p) :
    (∀ scheme vs defaultScheme,
      (∀ text, .literal text ∈ p.segments → '?' ∉ text.toList ∧ '#' ∉ text.toList) →
      (p.scheme = some scheme ∨ p.scheme = none ∧ ¬ Url.Scheme.Marked scheme) →
      p.Fills vs →
      (∀ k w, vs.get? k = some (.text w) → '?' ∉ w.toList ∧ '#' ∉ w.toList) →
      (Url.Address.ofUrl (scheme ++ "://" ++ p.render vs) defaultScheme).scheme = scheme ∧
      p.admits scheme = true ∧
      p.captures?
        (Url.Address.ofUrl (scheme ++ "://" ++ p.render vs) defaultScheme).segments = some vs) ∧
    ∀ url defaultScheme vs,
      p.captures? (Url.Address.ofUrl url defaultScheme).segments = some vs →
      p.captures? (Url.Path.segments (p.render vs)) = some vs := by
  have hw := ofSource_wellFormed h
  constructor
  · intro scheme vs defaultScheme hl hs hf ht
    have hn : ¬ Url.Scheme.Marked scheme := by
      rcases hs with hs | ⟨-, hs⟩
      · exact not_marked_of_scheme h hs
      · exact hs
    have hm : '?' ∉ (p.render vs).toList :=
      not_mem_render (by decide) (by decide) (by decide) (fun t ht => (hl t ht).1)
        fun k w hv => (ht k w hv).1
    have hp : '#' ∉ (p.render vs).toList :=
      not_mem_render (by decide) (by decide) (by decide) (fun t ht => (hl t ht).2)
        fun k w hv => (ht k w hv).2
    rw [Url.Address.ofUrl_path defaultScheme hn hm hp]
    refine ⟨rfl, ?_, hf.captures?_render hw⟩
    rcases hs with hs | ⟨hs, -⟩
    · simp [admits, hs]
    · simp [admits, hs]
  · intro url defaultScheme vs hm
    have hx := Url.Address.canonical_segments url defaultScheme
    exact (fills_of_captures? hw hx hm).captures?_render hw

/-- An empty literal in the middle, a number with a sign, a text with a colon and a path capture whose
text begins with a slash. -/
theorem render_round_trip_slashes :
    ∃ p vs, ofSource "app://a//<int:id>/<name>//<path:rest>" = .ok p ∧ p.Fills vs ∧
      p.render vs = "a//-7/b:c///d//e" ∧
      (Url.Address.ofUrl ("app" ++ "://" ++ p.render vs) "").scheme = "app" ∧
      p.admits "app" = true ∧
      p.captures? (Url.Address.ofUrl ("app" ++ "://" ++ p.render vs) "").segments = some vs ∧
      p.captures? (Url.Path.segments (p.render vs)) = some vs := by
  obtain ⟨p, hp, hscheme, hs⟩ : ∃ p, ofSource "app://a//<int:id>/<name>//<path:rest>" = .ok p ∧
      p.scheme = some "app" ∧ p.segments = [.literal "a", .literal "", .capture "id" .int,
        .capture "name" .text, .literal "", .path "rest"] :=
    ⟨⟨"app://a//<int:id>/<name>//<path:rest>", _, _⟩, by cbv, rfl, rfl⟩
  obtain ⟨vs, hg⟩ : ∃ vs : Values, ∀ k, vs.get? k =
      [("id", Value.int (-7)), ("name", .text "b:c"), ("rest", .text "/d//e")].lookup k :=
    ⟨.ofList _, Mapping.get?_ofList_of_nodup (by decide)⟩
  have hid : vs.get? "id" = some (.int (-7)) := by rw [hg]; rfl
  have hname : vs.get? "name" = some (.text "b:c") := by rw [hg]; rfl
  have hrest : vs.get? "rest" = some (.text "/d//e") := by rw [hg]; rfl
  have ht : ∀ k w, vs.get? k = some (.text w) → '?' ∉ w.toList ∧ '#' ∉ w.toList := by
    intro k w hk
    rw [hg] at hk
    have hm : (k = "name" ∧ w = "b:c") ∨ k = "rest" ∧ w = "/d//e" := by
      simpa using Mapping.mem_of_lookup hk
    rcases hm with ⟨-, rfl⟩ | ⟨-, rfl⟩
    · decide
    · decide
  have hf : p.Fills vs := by
    refine ⟨?_, ?_, ?_, ?_⟩
    · intro k
      have hn : names p.segments = [("id", Value.int (-7)), ("name", .text "b:c"),
          ("rest", .text "/d//e")].map Prod.fst := by
        rw [hs]
        rfl
      rw [hg, hn]
      exact Mapping.isSome_lookup_iff
    · intro name hm
      obtain rfl : name = "name" := by simpa [hs] using hm
      exact ⟨"b:c", hname, by decide, by decide⟩
    · intro name hm
      obtain rfl : name = "id" := by simpa [hs] using hm
      exact ⟨-7, hid⟩
    · intro name hm
      obtain rfl : name = "rest" := by simpa [hs] using hm
      exact ⟨"/d//e", hrest, by decide, by simp [hs], fun _ _ => by decide⟩
  have hr : p.render vs = "a//-7/b:c///d//e" := by
    simp only [render, hs, List.map_cons, List.map_nil, Segment.written, hid, hname, hrest,
      Option.map_some, Option.getD_some]
    cbv
  have h := render_round_trip hp
  have hu := h.1 "app" vs "" (by simp [hs]) (.inl hscheme) hf ht
  exact ⟨p, vs, hp, hf, hr, hu.1, hu.2.1, hu.2.2, h.2 _ "" vs hu.2.2⟩

end UrlRouter.Pattern
