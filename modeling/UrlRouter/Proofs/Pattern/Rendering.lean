import UrlRouter.Proofs.Number.Decimal
import UrlRouter.Proofs.Pattern.Walk

namespace UrlRouter

namespace Value.Kind

theorem read?_text_iff {segment : String} {v : Value} :
    text.read? segment = some v ↔ segment ≠ "" ∧ v = .text segment := by
  by_cases h : segment = ""
  · simp [read?, h]
  · simp only [read?, String.isEmpty_iff, h, if_false, Option.some.injEq]
    simp [h, eq_comm]

theorem eq_int_of_read? {segment : String} {v : Value} (h : int.read? segment = some v) :
    ∃ n, v = .int n := by
  obtain ⟨-, n, -, rfl⟩ := read?_int_iff.mp h
  exact ⟨n, rfl⟩

end Value.Kind

namespace Segment

/-- The text which stands in a path for a segment of a pattern. -/
def written (vs : Values) : Segment → String
  | .literal text => text
  | .capture name _ | .path name => ((vs.get? name).map Value.display).getD ""

/-- The written text is one segment of a path, and from it the same values are taken again. -/
structure Carried (vs : Values) (s : Segment) : Prop where
  slashless : '/' ∉ (s.written vs).toList
  nonempty : s ≠ .literal "" → s.written vs ≠ ""
  taken : ∃ es, s.taken? (s.written vs) = some es ∧ ∀ e ∈ es, vs.get? e.1 = some e.2

theorem carried_literal (vs : Values) {text : String} (h : '/' ∉ text.toList) :
    (literal text).Carried vs where
  slashless := h
  nonempty := by
    intro hn he
    exact hn (congrArg literal he)
  taken := ⟨[], by simp [taken?, written], by simp⟩

theorem carried_text {vs : Values} {name w : String} (hv : vs.get? name = some (.text w))
    (hw : w ≠ "") (hs : '/' ∉ w.toList) : (capture name .text).Carried vs := by
  have he : (capture name .text).written vs = w := by simp [written, hv, Value.display]
  have hr : Value.Kind.text.read? w = some (.text w) := Value.Kind.read?_text_iff.mpr ⟨hw, rfl⟩
  refine ⟨by rwa [he], fun _ => by rwa [he], [(name, .text w)], ?_, by simpa using hv⟩
  rw [he, taken?, hr, Option.map_some]

theorem carried_int {vs : Values} {name : String} {n : Int64}
    (hv : vs.get? name = some (.int n)) : (capture name .int).Carried vs := by
  have he : (capture name .int).written vs = (Value.int n).display := by simp [written, hv]
  refine ⟨?_, fun _ => ?_, [(name, .int n)], ?_, by simpa using hv⟩
  · rw [he]
    intro hm
    rcases Decimal.mem_repr hm with h | h
    · exact absurd h (by decide)
    · exact absurd h (by decide)
  · rw [he]
    exact Decimal.repr_ne_empty _
  · rw [he, taken?, Value.Kind.read?_display, Option.map_some]

end Segment

namespace Pattern

/-- The path to which the pattern leads back when its captures have these values. -/
def render (p : Pattern) (vs : Values) : String :=
  Url.Path.join (p.segments.map (Segment.written vs))

/-- The values which the captures of a pattern can have. The text of a path capture ends with no
slash, since that one would be trimmed, and begins with none if nothing stands in front of it. If it
is empty, the slash in front of it is trimmed, and an empty literal in front of it would be as well. -/
structure Fills (p : Pattern) (vs : Values) : Prop where
  names : ∀ k, (vs.get? k).isSome ↔ k ∈ names p.segments
  text : ∀ name, .capture name .text ∈ p.segments →
    ∃ w, vs.get? name = some (.text w) ∧ w ≠ "" ∧ '/' ∉ w.toList
  int : ∀ name, .capture name .int ∈ p.segments → ∃ n, vs.get? name = some (.int n)
  path : ∀ name, .path name ∈ p.segments →
    ∃ w, vs.get? name = some (.text w) ∧ w.toList.getLast? ≠ some '/' ∧
      (p.segments = [.path name] → w.toList.head? ≠ some '/') ∧
      ∀ front, p.segments = front ++ [.literal "", .path name] → w ≠ ""

variable {p : Pattern} {vs : Values}

theorem Fills.carried (hw : p.WellFormed) (hf : p.Fills vs) {s : Segment} (hs : s ∈ p.segments)
    (hp : s.isPath = false) : s.Carried vs := by
  cases s with
  | literal text =>
    exact Segment.carried_literal vs (hw.tokens.slashless text (List.mem_map.mpr ⟨_, hs, rfl⟩))
  | capture name kind =>
    cases kind with
    | text =>
      obtain ⟨w, hv, hne, hsl⟩ := hf.text name hs
      exact Segment.carried_text hv hne hsl
    | int =>
      obtain ⟨n, hv⟩ := hf.int name hs
      exact Segment.carried_int hv
  | path name => cases hp

theorem taken?_written {ss : List Segment} (hp : ∀ s ∈ ss, s.isPath = false)
    (hc : ∀ s ∈ ss, s.Carried vs) :
    ∃ es, taken? ss (ss.map (Segment.written vs)) = some es ∧ ∀ e ∈ es, vs.get? e.1 = some e.2 := by
  induction ss with
  | nil => exact ⟨[], rfl, by simp⟩
  | cons s ss ih =>
    obtain ⟨hs, hp⟩ := List.forall_mem_cons.mp hp
    obtain ⟨hcs, hc⟩ := List.forall_mem_cons.mp hc
    obtain ⟨fs, hx, hfs⟩ := hcs.taken
    obtain ⟨gs, hy, hgs⟩ := ih hp hc
    refine ⟨fs ++ gs, (taken?_cons_iff hs).mpr ⟨_, _, fs, gs, rfl, rfl, hx, hy⟩, ?_⟩
    intro e he
    rcases List.mem_append.mp he with he | he
    · exact hfs e he
    · exact hgs e he

/-- What is written for the segments in front of a path capture and the pieces of the text of that
capture are the segments of a path, since no empty one comes first or last. -/
theorem canonical_written {ss : List Segment} {ys : List String} (hc : ∀ s ∈ ss, s.Carried vs)
    (hy : ∀ y ∈ ys, '/' ∉ y.toList) (hh : ss.head? ≠ some (.literal ""))
    (hyh : ss = [] → ys.head? ≠ some "") (hl : ys = [] → ss.getLast? ≠ some (.literal ""))
    (hyl : ys.getLast? ≠ some "") : Url.Path.Canonical (ss.map (Segment.written vs) ++ ys) where
  slashless := by
    intro x hx
    rcases List.mem_append.mp hx with hx | hx
    · obtain ⟨s, hs, rfl⟩ := List.mem_map.mp hx
      exact (hc s hs).slashless
    · exact hy x hx
  head := by
    cases ss with
    | nil => exact hyh rfl
    | cons s ss =>
      have hs : s ≠ .literal "" := by simpa using hh
      simpa using (hc s List.mem_cons_self).nonempty hs
  last := by
    rw [List.getLast?_append]
    cases hly : ys.getLast? with
    | some y => rwa [hly] at hyl
    | none =>
      have hl := hl (List.getLast?_eq_none_iff.mp hly)
      rw [Option.none_or, List.getLast?_map]
      intro he
      obtain ⟨s, hs, hse⟩ := Option.map_eq_some_iff.mp he
      have hne : s ≠ .literal "" := by
        intro he
        subst he
        exact hl hs
      exact (hc s (List.mem_of_getLast? hs)).nonempty hne hse

theorem canonical_written_pieces (hw : p.WellFormed) {front : List Segment} {name w : String}
    (hs : p.segments = front ++ [.path name]) (hc : ∀ s ∈ front, s.Carried vs)
    (hlast : w.toList.getLast? ≠ some '/') (hhead : front = [] → w.toList.head? ≠ some '/')
    (hempty : front.getLast? = some (.literal "") → w ≠ "") :
    Url.Path.Canonical (front.map (Segment.written vs) ++ Url.Path.pieces w) := by
  refine canonical_written hc (fun _ => Url.Path.slashless_pieces) ?_ ?_ ?_ ?_
  · intro he
    apply hw.head?_ne
    simp [hs, he]
  · intro hn
    apply Url.Path.head?_of_join (Url.Path.pieces_ne_singleton_empty w)
    rw [Url.Path.join_pieces]
    exact hhead hn
  · intro hn he
    exact Url.Path.pieces_ne_nil (hempty he) hn
  · apply Url.Path.getLast?_of_join (Url.Path.pieces_ne_singleton_empty w)
    rwa [Url.Path.join_pieces]

theorem Fills.captures?_render_flat (hw : p.WellFormed) (hf : p.Fills vs)
    (hp : ∀ s ∈ p.segments, s.isPath = false) :
    p.captures? (Url.Path.segments (p.render vs)) = some vs := by
  have hc : ∀ s ∈ p.segments, s.Carried vs := fun s hs => hf.carried hw hs (hp s hs)
  have hcan : Url.Path.Canonical (p.segments.map (Segment.written vs) ++ []) :=
    canonical_written hc (by simp) hw.head?_ne (by simp) (fun _ => hw.getLast?_ne) (by simp)
  rw [List.append_nil] at hcan
  rw [render, Url.Path.segments_join hcan]
  exact hw.captures?_eq_some_iff.mpr ⟨hf.names, taken?_written hp hc⟩

/-- Only a path capture may be written as more than one segment, or as none. -/
theorem Fills.captures?_render_path (hw : p.WellFormed) (hf : p.Fills vs) {front : List Segment}
    {name : String} (hp : ∀ s ∈ front, s.isPath = false)
    (hs : p.segments = front ++ [.path name]) :
    p.captures? (Url.Path.segments (p.render vs)) = some vs := by
  obtain ⟨w, hv, hlast, hhead, hempty⟩ := hf.path name (by simp [hs])
  have hc : ∀ s ∈ front, s.Carried vs := by
    intro s hi
    exact hf.carried hw (by simp [hs, hi]) (hp s hi)
  have hcan : Url.Path.Canonical (front.map (Segment.written vs) ++ Url.Path.pieces w) := by
    apply canonical_written_pieces hw hs hc hlast
    · intro he
      exact hhead (by simp [hs, he])
    · intro he
      obtain ⟨start, rfl⟩ := List.getLast?_eq_some_iff.mp he
      exact hempty start (by simp [hs])
  have hr : p.render vs = Url.Path.join (front.map (Segment.written vs) ++ [w]) := by
    simp [render, hs, Segment.written, hv, Value.display]
  have hw' : taken? [.path name] (Url.Path.pieces w) = some [(name, .text w)] := by
    rw [taken?, Url.Path.join_pieces]
  obtain ⟨es, ht, he⟩ := taken?_written hp hc
  rw [hr, Url.Path.segments_join_concat, Url.Path.segments_join hcan]
  refine hw.captures?_eq_some_iff.mpr ⟨hf.names, es ++ [(name, .text w)], ?_, ?_⟩
  · rw [hs]
    exact (taken?_append_iff hp).mpr ⟨_, _, es, _, rfl, rfl, ht, hw'⟩
  · intro e hi
    rcases List.mem_append.mp hi with hi | hi
    · exact he e hi
    · cases List.mem_singleton.mp hi
      exact hv

/-- What is put into a pattern is taken out again. -/
theorem Fills.captures?_render (hw : p.WellFormed) (hf : p.Fills vs) :
    p.captures? (Url.Path.segments (p.render vs)) = some vs := by
  rcases hw.pathLast.form with hp | ⟨front, name, hs, hp⟩
  · exact hf.captures?_render_flat hw hp
  · exact hf.captures?_render_path hw hp hs

/-- What is taken out of a path can be put in. -/
theorem fills_of_captures? (hw : p.WellFormed) {xs : List String} (hx : Url.Path.Canonical xs)
    (h : p.captures? xs = some vs) : p.Fills vs where
  names := hw.isSome_get?_iff h
  text := by
    intro name hm
    obtain ⟨x, hi, v, hr, hv⟩ := hw.read?_of_captures? h hm
    obtain ⟨hne, rfl⟩ := Value.Kind.read?_text_iff.mp hr
    exact ⟨x, hv, hne, hx.slashless x hi⟩
  int := by
    intro name hm
    obtain ⟨x, -, v, hr, hv⟩ := hw.read?_of_captures? h hm
    obtain ⟨n, rfl⟩ := Value.Kind.eq_int_of_read? hr
    exact ⟨n, hv⟩
  path := by
    intro name hm
    obtain ⟨front, hs, hp⟩ := hw.pathLast.of_mem hm
    obtain ⟨ys, zs, fs, rfl, hy, hv⟩ := hw.path_of_captures? h hp hs
    have hsl : ∀ z ∈ zs, '/' ∉ z.toList := fun z hi => hx.slashless z (by simp [hi])
    have hlast : zs.getLast? ≠ some "" := by
      intro hl
      exact hx.last (by simp [hl])
    refine ⟨Url.Path.join zs, hv, Url.Path.getLast?_join hsl hlast, ?_, ?_⟩
    · intro hsingle
      have hn : front = [] := by simpa [hs] using hsingle
      subst hn
      cases ys with
      | nil => exact Url.Path.head?_join hsl hx.head
      | cons y ys => cases hy
    · intro start hstart hj
      have hcut : front ++ [.path name] = start ++ [.literal ""] ++ [.path name] := by
        rw [← hs, hstart, List.append_assoc, List.singleton_append]
      rw [List.append_cancel_right hcut] at hp hy
      have hyl := getLast?_of_taken? (fun s hi => hp s (by simp [hi])) hy
      -- The empty segment in front of the path capture is then the last one.
      rcases Url.Path.join_eq_empty_iff.mp hj with rfl | rfl
      · exact hx.last (by simp [hyl])
      · exact hlast rfl

/-- The values with which some path is matched are those which fill the pattern. -/
theorem WellFormed.fills_iff (hw : p.WellFormed) :
    p.Fills vs ↔ ∃ path, p.captures? (Url.Path.segments path) = some vs := by
  constructor
  · intro hf
    exact ⟨p.render vs, hf.captures?_render hw⟩
  · intro h
    obtain ⟨path, h⟩ := h
    exact fills_of_captures? hw (Url.Path.canonical_segments path) h

end Pattern

end UrlRouter
