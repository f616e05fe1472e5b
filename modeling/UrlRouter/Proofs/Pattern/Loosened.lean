import UrlRouter.Proofs.Pattern.Grammar
import UrlRouter.Proofs.Pattern.Positions
import UrlRouter.Proofs.Router.Printed

namespace UrlRouter

namespace Segment

/-- A chosen capture of a number takes any text. -/
def loosened (chosen : List String) : Segment → Segment
  | .capture name .int => if name ∈ chosen then .capture name .text else .capture name .int
  | s => s

variable {chosen : List String} {s : Segment}

theorem loosened_of_mem {name : String} (h : name ∈ chosen) :
    (capture name .int).loosened chosen = .capture name .text := by
  rw [loosened, if_pos h]

/-- Nothing but the kind of a chosen capture is changed. -/
theorem loosened_eq_self (h : ∀ name ∈ chosen, s ≠ .capture name .int) : s.loosened chosen = s := by
  match s with
  | .literal text => rfl
  | .path name => rfl
  | .capture name .text => rfl
  | .capture name .int =>
    have hn : name ∉ chosen := fun hm => h name hm rfl
    rw [loosened, if_neg hn]

theorem loosened_cases (chosen : List String) (s : Segment) :
    s.loosened chosen = s ∨
      ∃ name ∈ chosen, s = .capture name .int ∧ s.loosened chosen = .capture name .text := by
  by_cases h : ∃ name ∈ chosen, s = .capture name .int
  · obtain ⟨name, hm, rfl⟩ := h
    exact .inr ⟨name, hm, rfl, loosened_of_mem hm⟩
  · exact .inl (loosened_eq_self fun name hm he => h ⟨name, hm, he⟩)

@[simp] theorem name?_loosened (chosen : List String) (s : Segment) :
    (s.loosened chosen).name? = s.name? := by
  obtain h | ⟨name, -, rfl, h⟩ := loosened_cases chosen s
  · rw [h]
  · rw [h]
    rfl

@[simp] theorem isPath_loosened (chosen : List String) (s : Segment) :
    (s.loosened chosen).isPath = s.isPath := by
  obtain h | ⟨name, -, rfl, h⟩ := loosened_cases chosen s
  · rw [h]
  · rw [h]
    rfl

theorem Readable.loosened (h : s.Readable) (chosen : List String) : (s.loosened chosen).Readable := by
  obtain he | ⟨name, -, rfl, he⟩ := loosened_cases chosen s
  · rwa [he]
  · rw [he]
    exact h

theorem subset_display_loosened (chosen : List String) (s : Segment) :
    (s.loosened chosen).display.toList ⊆ s.display.toList := by
  obtain h | ⟨name, -, rfl, h⟩ := loosened_cases chosen s
  · rw [h]
    exact List.Subset.refl _
  · rw [h]
    intro c hc
    have hc : c = '<' ∨ c ∈ name.toList ∨ c = '>' := by simpa [display] using hc
    rcases hc with rfl | hc | rfl
    · simp [display]
    · simp [display, hc]
    · simp [display]

theorem display_loosened_eq_empty_iff : (s.loosened chosen).display = "" ↔ s.display = "" := by
  obtain h | ⟨name, -, rfl, h⟩ := loosened_cases chosen s
  · rw [h]
  · rw [h]
    simp [display]

/-- The brackets of a placeholder keep it apart from what stands beside it, and in it there is no mark
which was not there before. -/
theorem not_marked_display_loosened (chosen : List String) {front back : String}
    (h : ¬ Url.Scheme.Marked (front ++ s.display ++ back)) :
    ¬ Url.Scheme.Marked (front ++ (s.loosened chosen).display ++ back) := by
  obtain he | ⟨name, -, rfl, he⟩ := loosened_cases chosen s
  · rwa [he]
  · have hopen : '<' ∉ Url.Scheme.mark := by decide
    have hclose : '>' ∉ Url.Scheme.mark := by decide
    have hint : (front ++ (capture name .int).display ++ back).toList =
        front.toList ++ '<' :: ((['i', 'n', 't', ':'] ++ name.toList) ++ '>' :: back.toList) := by
      simp [display]
    have htext : (front ++ (capture name .text).display ++ back).toList =
        front.toList ++ '<' :: (name.toList ++ '>' :: back.toList) := by
      simp [display]
    rw [Url.Scheme.Marked, hint, Text.infix_append_cons_iff Url.Scheme.mark_ne_nil hopen,
      Text.infix_append_cons_iff Url.Scheme.mark_ne_nil hclose, not_or, not_or] at h
    obtain ⟨hfront, hname, hback⟩ := h
    rw [he, Url.Scheme.Marked, htext, Text.infix_append_cons_iff Url.Scheme.mark_ne_nil hopen,
      Text.infix_append_cons_iff Url.Scheme.mark_ne_nil hclose, not_or, not_or]
    exact ⟨hfront, fun hm => hname (hm.trans (List.suffix_append _ _).isInfix), hback⟩

/-- What a number capture asks for beside what a text capture does is that the text is a number. -/
theorem fits_iff_loosened (chosen : List String) {x : String} : s.Fits x ↔
    (s.loosened chosen).Fits x ∧
    ∀ name ∈ chosen, s = .capture name .int →
      ∃ n : Int64, IntegerType.i64.parse? x = some n.toInt := by
  have hint : s.Fits x → ∀ name ∈ chosen, s = .capture name .int →
      ∃ n : Int64, IntegerType.i64.parse? x = some n.toInt := by
    intro h name _ hs
    subst hs
    exact h.2
  obtain he | ⟨name, hm, rfl, he⟩ := loosened_cases chosen s
  · rw [he]
    exact ⟨fun h => ⟨h, hint h⟩, fun h => h.1⟩
  · rw [he]
    exact ⟨fun h => ⟨h.1, hint h⟩, fun h => ⟨h.1, h.2 name hm rfl⟩⟩

end Segment

namespace Pattern

/-- The pattern in which the chosen numbers are captured as texts. -/
def loosened (chosen : List String) (p : Pattern) : Pattern :=
  { p with segments := p.segments.map (Segment.loosened chosen) }

variable {chosen : List String} {p : Pattern} {ss : List Segment} {xs : List String}

theorem names_loosened (chosen : List String) (ss : List Segment) :
    names (ss.map (Segment.loosened chosen)) = names ss := by
  simp [names, List.filterMap_map]

theorem pathLast_loosened (h : PathLast ss) (chosen : List String) :
    PathLast (ss.map (Segment.loosened chosen)) := by
  intro s hs
  rw [← List.map_dropLast] at hs
  obtain ⟨t, ht, rfl⟩ := List.mem_map.mp hs
  rw [Segment.isPath_loosened]
  exact h t ht

theorem canonical_loosened (h : Url.Path.Canonical (ss.map Segment.display)) (chosen : List String) :
    Url.Path.Canonical ((ss.map (Segment.loosened chosen)).map Segment.display) where
  slashless := by
    intro x hx
    rw [List.map_map] at hx
    obtain ⟨s, hs, rfl⟩ := List.mem_map.mp hx
    intro hc
    exact h.slashless s.display (List.mem_map_of_mem hs) (Segment.subset_display_loosened chosen s hc)
  head := by
    intro hh
    apply h.head
    simp only [List.head?_map, Option.map_eq_some_iff] at hh ⊢
    obtain ⟨_, ⟨s, hs, rfl⟩, he⟩ := hh
    exact ⟨s, hs, Segment.display_loosened_eq_empty_iff.mp he⟩
  last := by
    intro hl
    apply h.last
    simp only [List.getLast?_map, Option.map_eq_some_iff] at hl ⊢
    obtain ⟨_, ⟨s, hs, rfl⟩, he⟩ := hl
    exact ⟨s, hs, Segment.display_loosened_eq_empty_iff.mp he⟩

theorem WellFormed.loosened (h : p.WellFormed) (chosen : List String) :
    (p.loosened chosen).WellFormed where
  pathLast := pathLast_loosened h.pathLast chosen
  distinct := by
    rw [Pattern.loosened, names_loosened]
    exact h.distinct
  tokens := canonical_loosened h.tokens chosen

/-- The tokens are changed one after the other, so what stands in front of the rest is arbitrary. -/
theorem not_marked_join_loosened (chosen : List String) {front : String}
    (h : ¬ Url.Scheme.Marked (front ++ Url.Path.join (ss.map Segment.display))) :
    ¬ Url.Scheme.Marked
      (front ++ Url.Path.join ((ss.map (Segment.loosened chosen)).map Segment.display)) := by
  induction ss generalizing front with
  | nil => exact h
  | cons s ss ih =>
    by_cases hs : ss = []
    · subst hs
      have hd : ¬ Url.Scheme.Marked (front ++ s.display ++ "") := by simpa using h
      simpa using Segment.not_marked_display_loosened chosen hd
    · rw [List.map_cons, Url.Path.join_cons _ (by simpa using hs), ← String.append_assoc,
        ← String.append_assoc, String.append_assoc] at h
      rw [List.map_cons, List.map_cons, Url.Path.join_cons _ (by simpa using hs),
        ← String.append_assoc, ← String.append_assoc]
      refine ih ?_
      rw [String.append_assoc]
      exact Segment.not_marked_display_loosened chosen h

theorem Printable.readable (h : p.Printable) {s : Segment} (hs : s ∈ p.segments) : s.Readable := by
  have hm := h.segments
  rw [List.map_map] at hm
  have hd := List.map_inj_left.mp (hm.trans (List.map_id p.segments).symm)
  exact (Segment.ofToken_eq_iff.mp (hd s hs)).1

theorem Printable.loosened (h : p.Printable) (hw : p.WellFormed) (chosen : List String) :
    (p.loosened chosen).Printable where
  segments := by
    rw [List.map_map]
    refine (List.map_congr_left ?_).trans (List.map_id _)
    intro t ht
    obtain ⟨s, hs, rfl⟩ := List.mem_map.mp ht
    exact Segment.ofToken_eq_iff.mpr ⟨(h.readable hs).loosened chosen, rfl⟩
  tokens := canonical_loosened h.tokens chosen
  faultless := by
    have hl := hw.loosened chosen
    exact fault?_eq_none_iff.mpr ⟨hl.pathLast, hl.distinct, by simp⟩
  scheme := h.scheme
  path := by
    intro hn
    have hj : ¬ Url.Scheme.Marked ("" ++ Url.Path.join (p.segments.map Segment.display)) := by
      simpa using h.path hn
    simpa [Pattern.loosened] using not_marked_join_loosened chosen hj

/-- A compiled pattern stays one when it is loosened. -/
theorem ofSource_loosened {source : String} (h : ofSource source = .ok p) (chosen : List String) :
    ofSource (p.loosened chosen).printed =
      .ok { p.loosened chosen with source := (p.loosened chosen).printed } :=
  ((printable_of_ofSource h).loosened (ofSource_wellFormed h) chosen).ofSource_printed

/-- The chosen captures stand in places where the url has numbers. -/
def Numbered (chosen : List String) (ss : List Segment) (xs : List String) : Prop :=
  ∀ (i : Nat) name x, ss[i]? = some (.capture name .int) → name ∈ chosen → xs[i]? = some x →
    ∃ n : Int64, IntegerType.i64.parse? x = some n.toInt

theorem numbered_cons_iff {s : Segment} {x : String} : Numbered chosen (s :: ss) (x :: xs) ↔
    (∀ name ∈ chosen, s = .capture name .int →
      ∃ n : Int64, IntegerType.i64.parse? x = some n.toInt) ∧ Numbered chosen ss xs := by
  constructor
  · intro h
    exact ⟨fun name hm hs => h 0 name x (congrArg some hs) hm rfl,
      fun i name y hs hm hy => h (i + 1) name y hs hm hy⟩
  · intro h i name y hs hm hy
    obtain ⟨hx, h⟩ := h
    cases i with
    | zero =>
      cases hy
      exact hx name hm (Option.some.inj hs)
    | succ i => exact h i name y hs hm hy

/-- A pattern matches where the loosened one does and the chosen texts are numbers. -/
theorem exists_taken?_iff_loosened (hp : PathLast ss) :
    (∃ es, taken? ss xs = some es) ↔
      (∃ es, taken? (ss.map (Segment.loosened chosen)) xs = some es) ∧ Numbered chosen ss xs := by
  induction ss generalizing xs with
  | nil =>
    have hn : Numbered chosen [] xs := by
      intro i name x hs
      simp at hs
    simp [hn]
  | cons s ss ih =>
    obtain ⟨hl, hp⟩ := pathLast_cons_iff.mp hp
    cases hs : s.isPath with
    | true =>
      -- What a path capture takes is no number in either pattern, and nothing stands behind it.
      cases hl hs
      cases s with
      | literal text => cases hs
      | capture name kind => cases hs
      | path name =>
        have hn : Numbered chosen [.path name] xs := by
          intro i other x hi
          simp [List.getElem?_cons] at hi
        simp [Segment.loosened, hn]
    | false =>
      have hs' : (s.loosened chosen).isPath = false := by rwa [Segment.isPath_loosened]
      cases xs with
      | nil => simp [taken?_cons_nil _ hs, taken?_cons_nil _ hs']
      | cons x xs =>
        rw [List.map_cons, exists_taken?_cons_iff hs, exists_taken?_cons_iff hs', ih hp,
          Segment.fits_iff_loosened chosen, numbered_cons_iff, and_and_and_comm]

end Pattern

end UrlRouter
