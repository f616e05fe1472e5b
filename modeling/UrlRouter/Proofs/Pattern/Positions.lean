import UrlRouter.Proofs.Pattern.Rendering

namespace UrlRouter

/-- What a segment of a pattern asks of the segment of a url in its place. A path capture has no one
segment in its place. -/
def Segment.Fits : Segment → String → Prop
  | .literal text, x => x = text
  | .capture _ .text, x => x ≠ ""
  | .capture _ .int, x => x ≠ "" ∧ ∃ n : Int64, IntegerType.i64.parse? x = some n.toInt
  | .path _, _ => False

theorem Segment.exists_taken?_iff {s : Segment} {x : String} :
    (∃ es, s.taken? x = some es) ↔ s.Fits x := by
  cases s with
  | literal text => simp [taken?, Fits]
  | path name => simp [taken?, Fits]
  | capture name kind =>
    cases kind with
    | text => simp [taken?, Fits, Value.Kind.read?_text_iff]
    | int => simp [taken?, Fits, Value.Kind.read?_int_iff]

namespace Pattern

variable {ss front : List Segment} {xs : List String} {es : List (String × Value)}

/-- Wherever both have a segment, the one of the url fits the one of the pattern. -/
def FitAll (ss : List Segment) (xs : List String) : Prop :=
  ∀ (i : Nat) s x, ss[i]? = some s → xs[i]? = some x → s.Fits x

theorem fitAll_nil (xs : List String) : FitAll [] xs := by
  intro i s x hs
  simp at hs

theorem fitAll_cons_iff {s : Segment} {x : String} :
    FitAll (s :: ss) (x :: xs) ↔ s.Fits x ∧ FitAll ss xs := by
  constructor
  · intro h
    exact ⟨h 0 s x rfl rfl, fun i t y ht hy => h (i + 1) t y ht hy⟩
  · intro h i t y ht hy
    obtain ⟨hx, h⟩ := h
    cases i with
    | zero =>
      cases ht
      cases hy
      exact hx
    | succ i => exact h i t y ht hy

/-- Whether the walk goes on is between one segment of the pattern and one of the url. -/
theorem exists_taken?_cons_iff {s : Segment} {x : String} (hs : s.isPath = false) :
    (∃ es, taken? (s :: ss) (x :: xs) = some es) ↔
      s.Fits x ∧ ∃ es, taken? ss xs = some es := by
  rw [← Segment.exists_taken?_iff]
  constructor
  · intro h
    obtain ⟨es, h⟩ := h
    obtain ⟨y, ys, fs, gs, he, -, hx, hy⟩ := (taken?_cons_iff hs).mp h
    obtain ⟨rfl, rfl⟩ := List.cons.inj he
    exact ⟨⟨fs, hx⟩, gs, hy⟩
  · intro h
    obtain ⟨⟨fs, hx⟩, gs, hy⟩ := h
    exact ⟨fs ++ gs, (taken?_cons_iff hs).mpr ⟨x, xs, fs, gs, rfl, rfl, hx, hy⟩⟩

theorem exists_taken?_iff (hp : ∀ s ∈ ss, s.isPath = false) :
    (∃ es, taken? ss xs = some es) ↔ xs.length = ss.length ∧ FitAll ss xs := by
  induction ss generalizing xs with
  | nil => cases xs <;> simp [taken?, fitAll_nil]
  | cons s ss ih =>
    obtain ⟨hs, hp⟩ := List.forall_mem_cons.mp hp
    cases xs with
    | nil => simp [taken?_cons_nil ss hs]
    | cons x xs =>
      rw [exists_taken?_cons_iff hs, ih hp, fitAll_cons_iff, and_left_comm]
      simp

/-- A path capture takes what is left, so the walk only has to get there. -/
theorem exists_taken?_path_iff {name : String} (hp : ∀ s ∈ front, s.isPath = false) :
    (∃ es, taken? (front ++ [.path name]) xs = some es) ↔
      front.length ≤ xs.length ∧ FitAll front xs := by
  induction front generalizing xs with
  | nil => simp [taken?, fitAll_nil]
  | cons s front ih =>
    obtain ⟨hs, hp⟩ := List.forall_mem_cons.mp hp
    cases xs with
    | nil => simp [taken?_cons_nil _ hs]
    | cons x xs =>
      rw [List.cons_append, exists_taken?_cons_iff hs, ih hp, fitAll_cons_iff, and_left_comm]
      simp

theorem isSome_captures?_iff {p : Pattern} :
    (p.captures? xs).isSome ↔ ∃ es, taken? p.segments xs = some es := by
  rw [captures?, Option.isSome_map, Option.isSome_iff_exists]

/-- What a match is, told place by place. With `n` segments and a path capture at the end, the url has
`n - 1` segments at least. -/
structure Positional (p : Pattern) (xs : List String) : Prop where
  form : (∀ s ∈ p.segments, s.isPath = false) ∨
    ∃ front name, p.segments = front ++ [.path name] ∧ ∀ s ∈ front, s.isPath = false
  flat : (∀ s ∈ p.segments, s.isPath = false) →
    ((p.captures? xs).isSome ↔ xs.length = p.segments.length ∧ FitAll p.segments xs)
  spread : ∀ front name, p.segments = front ++ [.path name] →
    ((p.captures? xs).isSome ↔ front.length ≤ xs.length ∧ FitAll front xs)
  keys : ∀ m, p.captures? xs = some m → m.keys.Perm (names p.segments)
  text : ∀ m, p.captures? xs = some m → ∀ (i : Nat) name,
    p.segments[i]? = some (.capture name .text) →
      ∃ x, xs[i]? = some x ∧ m.get? name = some (.text x)
  int : ∀ m, p.captures? xs = some m → ∀ (i : Nat) name,
    p.segments[i]? = some (.capture name .int) →
      ∃ x n, xs[i]? = some x ∧ IntegerType.i64.parse? x = some n.toInt ∧
        m.get? name = some (.int n)
  path : ∀ m, p.captures? xs = some m → ∀ (i : Nat) name,
    p.segments[i]? = some (.path name) → m.get? name = some (.text (Url.Path.join (xs.drop i)))

namespace WellFormed

variable {p : Pattern} {m : Values}

/-- No name is lost and none stands twice. -/
theorem keys_perm (hw : p.WellFormed) (h : p.captures? xs = some m) :
    m.keys.Perm (names p.segments) := by
  refine (List.perm_ext_iff_of_nodup m.nodup_keys hw.distinct).mpr fun name => ?_
  rw [← hw.isSome_get?_iff h name]
  exact Mapping.isSome_lookup_iff.symm

end WellFormed

/-- A compiled pattern matches by position, whatever the segments of the url hold. -/
theorem positional_of_ofSource {source : String} {p : Pattern} (h : ofSource source = .ok p)
    (xs : List String) : p.Positional xs where
  form := (ofSource_wellFormed h).pathLast.form
  flat := by
    intro hp
    rw [isSome_captures?_iff, exists_taken?_iff hp]
  spread := by
    intro front name hs
    have hp := (ofSource_wellFormed h).pathLast
    rw [hs] at hp
    rw [isSome_captures?_iff, hs, exists_taken?_path_iff hp.around.1]
  keys := fun _ => (ofSource_wellFormed h).keys_perm
  text := by
    intro m hm i name hi
    obtain ⟨x, v, hx, hr, hv⟩ := (ofSource_wellFormed h).read?_at hm hi
    obtain ⟨-, rfl⟩ := Value.Kind.read?_text_iff.mp hr
    exact ⟨x, hx, hv⟩
  int := by
    intro m hm i name hi
    obtain ⟨x, v, hx, hr, hv⟩ := (ofSource_wellFormed h).read?_at hm hi
    obtain ⟨-, n, hn, rfl⟩ := Value.Kind.read?_int_iff.mp hr
    exact ⟨x, n, hx, hn, hv⟩
  path := fun _ hm _ _ hi => (ofSource_wellFormed h).path_at hm hi

/-- A number with a sign and zeros, a segment which holds a slash, and an empty one among those which are
left for the path capture. -/
theorem positional_of_ofSource_zeros :
    ∃ p m, ofSource "a/<int:n>/<s>/<path:rest>" = .ok p ∧
      p.captures? ["a", "+007", "x/y", "", "b"] = some m ∧ m.keys.Perm ["n", "s", "rest"] ∧
      m.get? "n" = some (.int 7) ∧ m.get? "s" = some (.text "x/y") ∧
      m.get? "rest" = some (.text "/b") ∧ (p.captures? ["a", "7"]).isSome = false := by
  obtain ⟨p, hp, hs⟩ : ∃ p, ofSource "a/<int:n>/<s>/<path:rest>" = .ok p ∧ p.segments =
      [.literal "a", .capture "n" .int, .capture "s" .text] ++ [.path "rest"] :=
    ⟨⟨_, none, _⟩, by cbv, rfl⟩
  have hn : IntegerType.i64.parse? "+007" = some (7 : Int64).toInt := by decide
  have h := positional_of_ofSource hp ["a", "+007", "x/y", "", "b"]
  have hf : FitAll [.literal "a", .capture "n" .int, .capture "s" .text]
      ["a", "+007", "x/y", "", "b"] := by
    simp only [fitAll_cons_iff, fitAll_nil, and_true]
    exact ⟨rfl, ⟨by decide, 7, hn⟩, (by decide : "x/y" ≠ "")⟩
  obtain ⟨m, hm⟩ := Option.isSome_iff_exists.mp ((h.spread _ _ hs).mpr ⟨by decide, hf⟩)
  have hkeys := h.keys m hm
  rw [hs] at hkeys
  obtain ⟨x, n, hx, hp7, hint⟩ := h.int m hm 1 "n" (by rw [hs]; rfl)
  cases hx
  rw [hn, Option.some.injEq, Int64.toInt_inj] at hp7
  obtain ⟨y, hy, htext⟩ := h.text m hm 2 "s" (by rw [hs]; rfl)
  cases hy
  have hpath := h.path m hm 3 "rest" (by rw [hs]; rfl)
  have hshort := (positional_of_ofSource hp ["a", "7"]).spread _ _ hs
  refine ⟨p, m, hp, hm, hkeys, by rw [hint, ← hp7], htext, ?_, ?_⟩
  · rw [hpath]
    decide
  · rw [Bool.eq_false_iff, ne_eq, hshort]
    exact fun hc => absurd hc.1 (by decide)

end Pattern

end UrlRouter
