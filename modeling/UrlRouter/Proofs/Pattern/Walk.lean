import UrlRouter.Proofs.Mapping.Lookup
import UrlRouter.Proofs.Pattern.Compiled

namespace UrlRouter

/-- What a segment of a pattern takes of the segment of a url at its place. A path capture has no
such place. -/
def Segment.taken? : Segment → String → Option (List (String × Value))
  | .literal text, x => if x = text then some [] else none
  | .capture name kind, x => (kind.read? x).map fun value => [(name, value)]
  | .path _, _ => none

theorem Segment.names_of_taken? {s : Segment} {x : String} {es : List (String × Value)}
    (h : s.taken? x = some es) : es.map Prod.fst = s.name?.toList := by
  cases s with
  | literal text =>
    simp only [taken?] at h
    split at h
    · cases h
      rfl
    · cases h
  | capture name kind =>
    obtain ⟨value, -, rfl⟩ := Option.map_eq_some_iff.mp h
    rfl
  | path name => cases h

namespace Pattern

variable {ss : List Segment} {xs : List String} {es : List (String × Value)}

theorem taken?_cons_nil {s : Segment} (ss : List Segment) (hs : s.isPath = false) :
    taken? (s :: ss) [] = none := by
  cases s with
  | path name => cases hs
  | literal text => rfl
  | capture name kind => rfl

theorem taken?_cons_cons {s : Segment} (ss : List Segment) (x : String) (xs : List String)
    (hs : s.isPath = false) : taken? (s :: ss) (x :: xs) =
      (s.taken? x).bind fun fs => (taken? ss xs).map (fs ++ ·) := by
  cases s with
  | path name => cases hs
  | literal text =>
    simp only [taken?, Segment.taken?]
    split <;> simp
  | capture name kind =>
    simp only [taken?, Segment.taken?]
    cases kind.read? x with
    | none => rfl
    | some value => cases taken? ss xs <;> rfl

/-- One step of the walk: a segment of the url for a segment of the pattern. -/
theorem taken?_cons_iff {s : Segment} (hs : s.isPath = false) :
    taken? (s :: ss) xs = some es ↔ ∃ x ys fs gs, xs = x :: ys ∧ es = fs ++ gs ∧
      s.taken? x = some fs ∧ taken? ss ys = some gs := by
  constructor
  · intro h
    cases xs with
    | nil =>
      rw [taken?_cons_nil ss hs] at h
      cases h
    | cons x xs =>
      rw [taken?_cons_cons ss x xs hs] at h
      obtain ⟨fs, hx, hm⟩ := Option.bind_eq_some_iff.mp h
      obtain ⟨gs, hy, rfl⟩ := Option.map_eq_some_iff.mp hm
      exact ⟨x, xs, fs, gs, rfl, rfl, hx, hy⟩
  · intro h
    obtain ⟨x, ys, fs, gs, rfl, rfl, hx, hy⟩ := h
    rw [taken?_cons_cons ss x ys hs, hx, hy]
    rfl

/-- Up to a path capture the walk can be cut in two anywhere. -/
theorem taken?_append_iff {front : List Segment} (hf : ∀ s ∈ front, s.isPath = false) :
    taken? (front ++ ss) xs = some es ↔ ∃ ys zs fs gs, xs = ys ++ zs ∧ es = fs ++ gs ∧
      taken? front ys = some fs ∧ taken? ss zs = some gs := by
  induction front generalizing xs es with
  | nil =>
    constructor
    · intro h
      exact ⟨[], xs, [], es, rfl, rfl, rfl, h⟩
    · intro h
      obtain ⟨ys, zs, fs, gs, rfl, rfl, hy, hz⟩ := h
      cases ys with
      | nil =>
        cases hy
        exact hz
      | cons y ys => cases hy
  | cons s front ih =>
    obtain ⟨hs, hf⟩ := List.forall_mem_cons.mp hf
    rw [List.cons_append, taken?_cons_iff hs]
    constructor
    · intro h
      obtain ⟨x, xs, fs, gs, rfl, rfl, hx, h⟩ := h
      obtain ⟨ys, zs, us, ts, rfl, rfl, hy, hz⟩ := (ih hf).mp h
      exact ⟨x :: ys, zs, fs ++ us, ts, rfl, (List.append_assoc ..).symm,
        (taken?_cons_iff hs).mpr ⟨x, ys, fs, us, rfl, rfl, hx, hy⟩, hz⟩
    · intro h
      obtain ⟨ys, zs, fs, gs, rfl, rfl, hy, hz⟩ := h
      obtain ⟨x, ys, es, fs, rfl, rfl, hx, hy⟩ := (taken?_cons_iff hs).mp hy
      exact ⟨x, ys ++ zs, es, fs ++ gs, rfl, List.append_assoc .., hx,
        (ih hf).mpr ⟨ys, zs, fs, gs, rfl, rfl, hy, hz⟩⟩

theorem length_of_taken? (hp : ∀ s ∈ ss, s.isPath = false) (h : taken? ss xs = some es) :
    xs.length = ss.length := by
  induction ss generalizing xs es with
  | nil =>
    cases xs with
    | nil => rfl
    | cons x xs => cases h
  | cons s ss ih =>
    obtain ⟨hs, hp⟩ := List.forall_mem_cons.mp hp
    obtain ⟨x, ys, fs, gs, rfl, -, -, hy⟩ := (taken?_cons_iff hs).mp h
    rw [List.length_cons, List.length_cons, ih hp hy]

theorem exists_eq_append_of_getElem? {i : Nat} {s : Segment} (h : ss[i]? = some s) :
    ∃ front back, ss = front ++ s :: back ∧ front.length = i := by
  obtain ⟨hi, rfl⟩ := List.getElem?_eq_some_iff.mp h
  refine ⟨ss.take i, ss.drop (i + 1), ?_, List.length_take_of_le (Nat.le_of_lt hi)⟩
  rw [← List.drop_eq_getElem_cons hi, List.take_append_drop]

theorem getLast?_of_taken? {front : List Segment} {text : String}
    (hf : ∀ s ∈ front, s.isPath = false) (h : taken? (front ++ [.literal text]) xs = some es) :
    xs.getLast? = some text := by
  obtain ⟨ys, zs, -, gs, rfl, -, -, hz⟩ := (taken?_append_iff hf).mp h
  obtain ⟨x, zs, fs, gs, rfl, rfl, hx, hz⟩ := (taken?_cons_iff rfl).mp hz
  cases zs with
  | cons z zs => cases hz
  | nil =>
    simp only [Segment.taken?] at hx
    split at hx
    · rename_i he
      simp [he]
    · cases hx

/-- Each capture takes one value, under its own name. -/
theorem names_of_taken? (hp : PathLast ss) (h : taken? ss xs = some es) :
    es.map Prod.fst = names ss := by
  induction ss generalizing xs es with
  | nil =>
    cases xs with
    | nil =>
      cases h
      rfl
    | cons x xs => cases h
  | cons s ss ih =>
    obtain ⟨hl, hp⟩ := pathLast_cons_iff.mp hp
    cases hs : s.isPath with
    | true =>
      cases hl hs
      cases s with
      | path name =>
        cases h
        rfl
      | literal text => cases hs
      | capture name kind => cases hs
    | false =>
      obtain ⟨x, ys, fs, gs, -, rfl, hx, hy⟩ := (taken?_cons_iff hs).mp h
      rw [List.map_append, Segment.names_of_taken? hx, ih hp hy]
      cases hn : s.name? <;> simp [names, hn]

theorem get?_of_taken? (hp : PathLast ss) (hn : (names ss).Nodup) (h : taken? ss xs = some es)
    {e : String × Value} (he : e ∈ es) : (Mapping.ofList es).get? e.1 = some e.2 := by
  have hd : (es.map Prod.fst).Nodup := by rwa [names_of_taken? hp h]
  rw [Mapping.get?_ofList_of_nodup hd]
  exact (Mapping.lookup_eq_some_iff_mem hd).mpr he

namespace WellFormed

variable {p : Pattern} {m : Values}

/-- Nothing is captured but under the names of the pattern, and under each of them something. -/
theorem isSome_get?_iff (hw : p.WellFormed) (h : p.captures? xs = some m) (k : String) :
    (m.get? k).isSome ↔ k ∈ names p.segments := by
  obtain ⟨es, ht, rfl⟩ := Option.map_eq_some_iff.mp h
  have hn := names_of_taken? hw.pathLast ht
  rw [Mapping.get?_ofList_of_nodup (by rw [hn]; exact hw.distinct), ← hn]
  exact Mapping.isSome_lookup_iff

/-- The values of a match are what was taken on the walk, and these only. -/
theorem captures?_eq_some_iff (hw : p.WellFormed) : p.captures? xs = some m ↔
    (∀ k, (m.get? k).isSome ↔ k ∈ names p.segments) ∧
      ∃ es, taken? p.segments xs = some es ∧ ∀ e ∈ es, m.get? e.1 = some e.2 := by
  constructor
  · intro h
    obtain ⟨es, ht, he⟩ := Option.map_eq_some_iff.mp h
    refine ⟨hw.isSome_get?_iff h, es, ht, ?_⟩
    intro e hm
    rw [← he]
    exact get?_of_taken? hw.pathLast hw.distinct ht hm
  · intro h
    obtain ⟨hk, es, ht, hm⟩ := h
    have hc : p.captures? xs = some (.ofList es) := by rw [captures?, ht, Option.map_some]
    rw [hc, Option.some.injEq]
    refine Mapping.ext_get? fun k => ?_
    by_cases hi : k ∈ names p.segments
    · rw [← names_of_taken? hw.pathLast ht] at hi
      obtain ⟨e, he, rfl⟩ := List.mem_map.mp hi
      rw [get?_of_taken? hw.pathLast hw.distinct ht he, hm e he]
    · have ho := mt (hw.isSome_get?_iff hc k).mp hi
      have hn := mt (hk k).mp hi
      rw [Option.not_isSome_iff_eq_none] at ho hn
      rw [ho, hn]

/-- Up to a segment in the middle, the walk took one segment of the url for each of the pattern. -/
theorem walk_at (hw : p.WellFormed) (h : p.captures? xs = some m) {i : Nat} {s : Segment}
    (hi : p.segments[i]? = some s) :
    ∃ back zs gs, taken? (s :: back) zs = some gs ∧ zs = xs.drop i ∧
      ∀ e ∈ gs, m.get? e.1 = some e.2 := by
  obtain ⟨-, es, ht, he⟩ := hw.captures?_eq_some_iff.mp h
  obtain ⟨front, back, hs, rfl⟩ := exists_eq_append_of_getElem? hi
  have hp := hw.pathLast
  rw [hs] at hp ht
  obtain ⟨ys, zs, fs, gs, rfl, rfl, hy, hz⟩ := (taken?_append_iff hp.around.1).mp ht
  refine ⟨back, zs, gs, hz, ?_, fun e hg => he e (List.mem_append_right fs hg)⟩
  rw [← length_of_taken? hp.around.1 hy, List.drop_left]

/-- The value of a capture was read from the segment of the url in its own place. -/
theorem read?_at (hw : p.WellFormed) (h : p.captures? xs = some m) {i : Nat} {name : String}
    {kind : Value.Kind} (hi : p.segments[i]? = some (.capture name kind)) :
    ∃ x v, xs[i]? = some x ∧ kind.read? x = some v ∧ m.get? name = some v := by
  obtain ⟨back, zs, gs, hz, hd, hg⟩ := hw.walk_at h hi
  obtain ⟨x, zs, fs, gs, rfl, rfl, hx, -⟩ := (taken?_cons_iff rfl).mp hz
  obtain ⟨v, hv, rfl⟩ := Option.map_eq_some_iff.mp hx
  refine ⟨x, v, ?_, hv, hg (name, v) (by simp)⟩
  rw [← List.head?_drop, ← hd, List.head?_cons]

theorem read?_of_captures? (hw : p.WellFormed) (h : p.captures? xs = some m) {name : String}
    {kind : Value.Kind} (hm : .capture name kind ∈ p.segments) :
    ∃ x ∈ xs, ∃ v, kind.read? x = some v ∧ m.get? name = some v := by
  obtain ⟨i, hi⟩ := List.getElem?_of_mem hm
  obtain ⟨x, v, hx, hr, hv⟩ := hw.read?_at h hi
  exact ⟨x, List.mem_of_getElem? hx, v, hr, hv⟩

/-- A path capture has the text of all that is left from its place on. -/
theorem path_at (hw : p.WellFormed) (h : p.captures? xs = some m) {i : Nat} {name : String}
    (hi : p.segments[i]? = some (.path name)) :
    m.get? name = some (.text (Url.Path.join (xs.drop i))) := by
  obtain ⟨back, zs, gs, hz, rfl, hg⟩ := hw.walk_at h hi
  cases hz
  exact hg (name, _) List.mem_cons_self

/-- The text of a path capture is joined from the segments which were left for it. -/
theorem path_of_captures? (hw : p.WellFormed) (h : p.captures? xs = some m)
    {front : List Segment} {name : String} (hf : ∀ s ∈ front, s.isPath = false)
    (hs : p.segments = front ++ [.path name]) :
    ∃ ys zs fs, xs = ys ++ zs ∧ taken? front ys = some fs ∧
      m.get? name = some (.text (Url.Path.join zs)) := by
  obtain ⟨-, es, ht, he⟩ := hw.captures?_eq_some_iff.mp h
  rw [hs] at ht
  obtain ⟨ys, zs, fs, gs, rfl, rfl, hy, hz⟩ := (taken?_append_iff hf).mp ht
  cases hz
  exact ⟨ys, zs, fs, rfl, hy, he (name, _) (by simp)⟩

end WellFormed

end Pattern

end UrlRouter
