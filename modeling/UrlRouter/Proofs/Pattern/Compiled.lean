import UrlRouter.Pattern
import UrlRouter.Proofs.Url.Path
import UrlRouter.Proofs.Url.Scheme

namespace UrlRouter

namespace Segment

theorem eq_of_bracketed? {cs inside : List Char} (h : bracketed? cs = some inside) :
    cs = '<' :: inside ++ ['>'] := by
  match cs with
  | [] => cases h
  | c :: rest =>
    unfold bracketed? at h
    split at h
    · rename_i hc
      obtain ⟨rfl, rfl⟩ := List.cons.inj hc
      split at h
      · rename_i hl
        obtain ⟨front, hf⟩ := List.getLast?_eq_some_iff.mp hl
        simp only [Option.some.injEq] at h
        rw [← h, hf]
        simp
      · cases h
    · cases h

/-- A capture keeps its kind and its name, so nothing of the text between the brackets is lost. -/
theorem display_of_placeholder? {inside : List Char} {s : Segment}
    (h : placeholder? inside = some s) : s.display = .ofList ('<' :: inside ++ ['>']) := by
  unfold placeholder? at h
  split at h
  · cases h
    rw [← String.toList_inj]
    simp [display]
  · split at h
    · rename_i kind name hc
      have hi := Text.eq_of_cut? hc
      split at h
      · cases h
      · split at h
        · rename_i hk
          cases h
          rw [← String.toList_inj, hi, hk]
          simp [display]
        · split at h
          · rename_i hk
            cases h
            rw [← String.toList_inj, hi, hk]
            simp [display]
          · cases h
    · cases h

/-- Whatever a token is taken for, it is displayed as it was written. -/
theorem display_ofToken (token : String) : (ofToken token).display = token := by
  unfold ofToken
  cases hb : bracketed? token.toList with
  | none => rfl
  | some inside =>
    cases hp : placeholder? inside with
    | none => simp [hp, display]
    | some s =>
      rw [Option.bind_some, hp, Option.getD_some, display_of_placeholder? hp,
        ← eq_of_bracketed? hb, String.ofList_toList]

theorem isPath_of_no_name {s : Segment} (h : s.name? = none) : s.isPath = false := by
  cases s with
  | literal text => rfl
  | capture name kind => cases h
  | path name => cases h

theorem map_display_ofToken (tokens : List String) :
    (tokens.map ofToken).map display = tokens := by
  have hd : display ∘ ofToken = id := funext display_ofToken
  rw [List.map_map, hd, List.map_id]

end Segment

namespace Pattern

/-- The names of the captures, from the left. -/
def names (ss : List Segment) : List String :=
  ss.filterMap Segment.name?

theorem names_cons_of_none {s : Segment} (ss : List Segment) (h : s.name? = none) :
    names (s :: ss) = names ss := by
  simp [names, h]

theorem names_cons_of_some {s : Segment} {name : String} (ss : List Segment)
    (h : s.name? = some name) : names (s :: ss) = name :: names ss := by
  simp [names, h]

/-- Only the last segment of a pattern takes more than one segment of a url. -/
def PathLast (ss : List Segment) : Prop :=
  ∀ s ∈ ss.dropLast, s.isPath = false

theorem pathLast_cons_iff {s : Segment} {ss : List Segment} :
    PathLast (s :: ss) ↔ (s.isPath = true → ss = []) ∧ PathLast ss := by
  cases ss with
  | nil => simp [PathLast]
  | cons t ss =>
    simp only [PathLast, List.dropLast_cons_cons, List.mem_cons, forall_eq_or_imp]
    simp

theorem PathLast.around {front back : List Segment} {s : Segment}
    (h : PathLast (front ++ s :: back)) :
    (∀ t ∈ front, t.isPath = false) ∧ (s.isPath = true → back = []) := by
  induction front with
  | nil => exact ⟨by simp, (pathLast_cons_iff.mp h).1⟩
  | cons t front ih =>
    obtain ⟨ht, h⟩ := pathLast_cons_iff.mp h
    have hp : t.isPath = false := by simpa using ht
    obtain ⟨hf, hs⟩ := ih h
    exact ⟨List.forall_mem_cons.mpr ⟨hp, hf⟩, hs⟩

theorem PathLast.of_mem {ss : List Segment} (h : PathLast ss) {name : String}
    (hm : .path name ∈ ss) :
    ∃ front, ss = front ++ [.path name] ∧ ∀ s ∈ front, s.isPath = false := by
  obtain ⟨front, back, rfl⟩ := List.append_of_mem hm
  obtain ⟨hf, hb⟩ := h.around
  cases hb rfl
  exact ⟨front, rfl, hf⟩

theorem PathLast.form {ss : List Segment} (h : PathLast ss) :
    (∀ s ∈ ss, s.isPath = false) ∨
      ∃ front name, ss = front ++ [.path name] ∧ ∀ s ∈ front, s.isPath = false := by
  by_cases hm : ∃ name, .path name ∈ ss
  · obtain ⟨name, hm⟩ := hm
    obtain ⟨front, hs, hf⟩ := h.of_mem hm
    exact .inr ⟨front, name, hs, hf⟩
  · refine .inl fun s hs => ?_
    cases s with
    | path name => exact absurd ⟨name, hs⟩ hm
    | literal text => rfl
    | capture name kind => rfl

theorem fault?_eq_none_iff {taken : List String} {ss : List Segment} :
    fault? taken ss = none ↔
      PathLast ss ∧ (names ss).Nodup ∧ ∀ name ∈ names ss, name ∉ taken := by
  induction ss generalizing taken with
  | nil => simp [fault?, PathLast, names]
  | cons s ss ih =>
    rw [pathLast_cons_iff]
    unfold fault?
    cases hs : s.name? with
    | none =>
      have hp : s.isPath = false := Segment.isPath_of_no_name hs
      simp only
      rw [names_cons_of_none ss hs, ih]
      simp [hp]
    | some name =>
      rw [names_cons_of_some ss hs]
      simp only
      split
      · rename_i hm
        simp_all
      · rename_i hm
        have hl : s.isPath = true → ss = [] := by simpa using hm
        split
        · rename_i ht
          simp [ht]
        · rename_i ht
          rw [ih, List.nodup_cons]
          simp only [List.mem_cons, not_or, forall_eq_or_imp, ht, not_false_eq_true, true_and]
          constructor
          · intro h
            obtain ⟨hp, hn, hd⟩ := h
            exact ⟨⟨hl, hp⟩, ⟨fun hm => (hd name hm).1 rfl, hn⟩, fun n hm => (hd n hm).2⟩
          · intro h
            obtain ⟨⟨-, hp⟩, ⟨hm, hn⟩, hd⟩ := h
            refine ⟨hp, hn, fun n hi => ⟨?_, hd n hi⟩⟩
            intro he
            subst he
            exact hm hi

/-- What compiling a pattern makes sure of. -/
structure WellFormed (p : Pattern) : Prop where
  pathLast : PathLast p.segments
  distinct : (names p.segments).Nodup
  tokens : Url.Path.Canonical (p.segments.map Segment.display)

theorem WellFormed.head?_ne {p : Pattern} (h : p.WellFormed) :
    p.segments.head? ≠ some (.literal "") := by
  intro he
  exact h.tokens.head (by simp [he, Segment.display])

theorem WellFormed.getLast?_ne {p : Pattern} (h : p.WellFormed) :
    p.segments.getLast? ≠ some (.literal "") := by
  intro he
  exact h.tokens.last (by simp [he, Segment.display])

/-- The segments which a source is compiled to, whether they make a pattern or not. -/
def tokens (source : String) : List Segment :=
  (Url.Path.segments (Url.Scheme.cut source).2).map Segment.ofToken

theorem ofSource_eq (source : String) :
    ofSource source =
      match fault? [] (tokens source) with
      | some fault => .error fault
      | none => .ok ⟨source, (Url.Scheme.cut source).1, tokens source⟩ := by
  cases h : fault? [] (tokens source) with
  | none =>
    simp only [tokens] at h
    simp only [ofSource, h, tokens]
  | some fault =>
    simp only [tokens] at h
    simp only [ofSource, h]

theorem ofSource_of_no_fault {source : String} (h : fault? [] (tokens source) = none) :
    ofSource source = .ok ⟨source, (Url.Scheme.cut source).1, tokens source⟩ := by
  rw [ofSource_eq, h]

theorem ofSource_ok {source : String} {p : Pattern} (h : ofSource source = .ok p) :
    p.source = source ∧ p.scheme = (Url.Scheme.cut source).1 ∧
      p.segments = (Url.Path.segments (Url.Scheme.cut source).2).map Segment.ofToken ∧
      fault? [] p.segments = none := by
  simp only [ofSource] at h
  split at h
  · cases h
  · rename_i hf
    cases h
    simp only [hf, and_self]

theorem ofSource_wellFormed {source : String} {p : Pattern} (h : ofSource source = .ok p) :
    p.WellFormed := by
  obtain ⟨-, -, hs, hf⟩ := ofSource_ok h
  obtain ⟨hp, hn, -⟩ := fault?_eq_none_iff.mp hf
  refine ⟨hp, hn, ?_⟩
  rw [hs, Segment.map_display_ofToken]
  exact Url.Path.canonical_segments _

/-- A scheme in front of a source is all that it adds to the pattern. -/
theorem ofSource_append {scheme path : String} (hs : ¬ Url.Scheme.Marked scheme)
    (hp : ¬ Url.Scheme.Marked path) :
    ofSource (scheme ++ "://" ++ path) =
      (ofSource path).map fun p =>
        { p with source := scheme ++ "://" ++ path, scheme := some scheme } := by
  simp only [ofSource, Url.Scheme.cut_append path hs, Url.Scheme.cut_of_not_marked hp]
  split <;> rfl

theorem scheme_of_not_marked {source : String} {p : Pattern} (h : ofSource source = .ok p)
    (hn : ¬ Url.Scheme.Marked source) : p.scheme = none := by
  obtain ⟨-, hs, -⟩ := ofSource_ok h
  rw [hs, Url.Scheme.cut_of_not_marked hn]

theorem not_marked_of_scheme {source scheme : String} {p : Pattern} (h : ofSource source = .ok p)
    (hs : p.scheme = some scheme) : ¬ Url.Scheme.Marked scheme := by
  obtain ⟨-, hc, -⟩ := ofSource_ok h
  exact Url.Scheme.not_marked_of_cut (hc.symm.trans hs)

theorem withDefault_of_none {p : Pattern} {scheme : String} (h : p.scheme = none)
    (hs : scheme ≠ "") : p.withDefault scheme = { p with scheme := some scheme } := by
  simp [withDefault, h, hs]

theorem withDefault_of_some {p : Pattern} {scheme : String} (other : String)
    (h : p.scheme = some scheme) : p.withDefault other = p := by
  simp [withDefault, h]

theorem withDefault_empty (p : Pattern) : p.withDefault "" = p := by
  simp [withDefault]

@[simp] theorem withDefault_source (p : Pattern) (scheme : String) :
    (p.withDefault scheme).source = p.source := by
  unfold withDefault
  split <;> rfl

@[simp] theorem withDefault_segments (p : Pattern) (scheme : String) :
    (p.withDefault scheme).segments = p.segments := by
  unfold withDefault
  split <;> rfl

theorem WellFormed.withDefault {p : Pattern} (h : p.WellFormed) (scheme : String) :
    (p.withDefault scheme).WellFormed :=
  ⟨by simpa using h.pathLast, by simpa using h.distinct, by simpa using h.tokens⟩

end Pattern

end UrlRouter
