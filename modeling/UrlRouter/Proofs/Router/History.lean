import Mathlib.Data.List.Forall2
import UrlRouter.Proofs.Router.Reachable

namespace UrlRouter

variable {α : Type}

namespace Segment

/-- A name is shown as it is, so it has no character which the segment does not show. -/
theorem subset_display_of_name? {s : Segment} {name : String} (h : s.name? = some name) :
    name.toList ⊆ s.display.toList := by
  intro c hc
  cases s with
  | literal text => cases h
  | capture name kind =>
    cases h
    cases kind <;> simp [display, hc]
  | path name =>
    cases h
    simp [display, hc]

end Segment

/-- What every compiled pattern is like, segment by segment. -/
structure Pattern.Tidy (p : Pattern) : Prop where
  distinct : (names p.segments).Nodup
  pathLast : ∀ front name back, p.segments = front ++ .path name :: back → back = []
  literals : ∀ text, .literal text ∈ p.segments → '/' ∉ text.toList
  names : ∀ name ∈ names p.segments, '/' ∉ name.toList
  first : ∀ s, p.segments.head? = some s → s.display ≠ ""
  last : ∀ s, p.segments.getLast? = some s → s.display ≠ ""

theorem Pattern.WellFormed.tidy {p : Pattern} (h : p.WellFormed) : p.Tidy where
  distinct := h.distinct
  pathLast := by
    intro front name back hs
    have hp := h.pathLast
    rw [hs] at hp
    exact hp.around.2 rfl
  literals := by
    intro text hm
    exact h.tokens.slashless text (List.mem_map.mpr ⟨_, hm, rfl⟩)
  names := by
    intro name hm hc
    obtain ⟨s, hs, hn⟩ := List.mem_filterMap.mp hm
    exact h.tokens.slashless s.display (List.mem_map.mpr ⟨s, hs, rfl⟩)
      (Segment.subset_display_of_name? hn hc)
  first := by
    intro s hs he
    exact h.tokens.head (by simp [hs, he])
  last := by
    intro s hs he
    exact h.tokens.last (by simp [hs, he])

/-- A pattern which was accepted, and the default scheme of that time. -/
structure Entry (α : Type) where
  source : String
  action : α
  defaultScheme : String

/-- The route is made from the entry: the segments are those of the text, and the scheme is the one
in front of it or else the default, if that is one. -/
structure Entry.Makes (e : Entry α) (route : Route α) : Prop where
  action : route.action = e.action
  source : route.pattern.source = e.source
  segments : ∃ p, Pattern.ofSource e.source = .ok p ∧ route.pattern.segments = p.segments
  named : ∀ scheme rest, e.source = scheme ++ "://" ++ rest → ¬ Url.Scheme.Marked scheme →
    route.pattern.scheme = some scheme
  lent : ¬ Url.Scheme.Marked e.source →
    route.pattern.scheme = if e.defaultScheme = "" then none else some e.defaultScheme

theorem Entry.makes_withDefault {source : String} {p : Pattern} (action : α)
    (defaultScheme : String) (h : Pattern.ofSource source = .ok p) :
    (Entry.mk source action defaultScheme).Makes ⟨p.withDefault defaultScheme, action⟩ := by
  obtain ⟨hs, hc, -⟩ := Pattern.ofSource_ok h
  refine ⟨rfl, ?_, ⟨p, h, Pattern.withDefault_segments p defaultScheme⟩, ?_, ?_⟩
  · rw [Pattern.withDefault_source, hs]
  · intro scheme rest he hn
    have he : source = scheme ++ "://" ++ rest := he
    have hp : p.scheme = some scheme := by
      rw [hc, he, Url.Scheme.cut_append rest hn]
    rw [Pattern.withDefault_of_some _ hp, hp]
  · intro hn
    have hp := Pattern.scheme_of_not_marked h hn
    by_cases hd : defaultScheme = ""
    · simp only [hd, if_true, Pattern.withDefault_empty, hp]
    · simp only [hd, if_false, Pattern.withDefault_of_none hp hd]

namespace Router

/-- The last default which was set, or the one of before. -/
def inForce (before : String) : List (Change α) → String
  | [] => before
  | .setDefault raw :: changes => inForce (Url.Scheme.bare raw) changes
  | .add _ _ :: changes => inForce before changes

/-- What was accepted, in order. -/
def entries (before : String) : List (Change α) → List (Entry α)
  | [] => []
  | .setDefault raw :: changes => entries (Url.Scheme.bare raw) changes
  | .add pattern action :: changes =>
    match Pattern.ofSource pattern with
    | .ok _ => ⟨pattern, action, before⟩ :: entries before changes
    | .error _ => entries before changes

theorem entries_add_of_ok {pattern : String} {p : Pattern} (before : String) (action : α)
    (changes : List (Change α)) (h : Pattern.ofSource pattern = .ok p) :
    entries before (.add pattern action :: changes) =
      ⟨pattern, action, before⟩ :: entries before changes := by
  simp only [entries, h]

theorem entries_add_of_error {pattern : String} {fault : Pattern.Fault} (before : String)
    (action : α) (changes : List (Change α)) (h : Pattern.ofSource pattern = .error fault) :
    entries before (.add pattern action :: changes) = entries before changes := by
  simp only [entries, h]

theorem inForce_eq_bare (raw : String) (changes : List (Change α)) :
    ∃ last, inForce (Url.Scheme.bare raw) changes = Url.Scheme.bare last := by
  induction changes generalizing raw with
  | nil => exact ⟨raw, rfl⟩
  | cons c changes ih =>
    cases c with
    | setDefault next =>
      rw [inForce]
      exact ih next
    | add pattern action =>
      rw [inForce]
      exact ih raw

theorem defaultScheme_after (r : Router α) (changes : List (Change α)) :
    (r.after changes).defaultScheme = inForce r.defaultScheme changes := by
  induction changes generalizing r with
  | nil => rfl
  | cons c changes ih =>
    rw [after_cons, ih]
    obtain ⟨raw, rfl, he⟩ | ⟨pattern, action, p, rfl, -, he⟩ | ⟨pattern, action, _, rfl, -, he⟩ :=
      changed_cases r c
    · rw [he, inForce, setDefault]
    · rw [he, inForce]
    · rw [he, inForce]

/-- Nothing is put between the routes or in front of them. -/
theorem routes_after (r : Router α) (changes : List (Change α)) :
    ∃ routes, (r.after changes).routes = r.routes ++ routes ∧
      List.Forall₂ Entry.Makes (entries r.defaultScheme changes) routes := by
  induction changes generalizing r with
  | nil => exact ⟨[], by simp [after], .nil⟩
  | cons c changes ih =>
    rw [after_cons]
    obtain ⟨routes, hr, hm⟩ := ih (r.changed c)
    obtain ⟨raw, rfl, he⟩ | ⟨pattern, action, p, rfl, hp, he⟩ | ⟨pattern, action, _, rfl, hp, he⟩ :=
      changed_cases r c
    · rw [he, setDefault] at hr hm ⊢
      rw [entries]
      exact ⟨routes, hr, hm⟩
    · rw [he] at hr hm ⊢
      rw [entries_add_of_ok _ action changes hp]
      refine ⟨_ :: routes, ?_, .cons (Entry.makes_withDefault action _ hp) hm⟩
      rw [hr, List.append_assoc, List.singleton_append]
    · rw [he] at hr hm ⊢
      rw [entries_add_of_error _ action changes hp]
      exact ⟨routes, hr, hm⟩

/-- What a router is, told from the default it had at first and from what was done to it. -/
structure Follows (r : Router α) (before : String) (changes : List (Change α)) : Prop where
  defaultScheme : r.defaultScheme = inForce before changes
  unmarked : ¬ Url.Scheme.Marked r.defaultScheme
  colonless : r.defaultScheme.toList.getLast? ≠ some ':'
  bare : Url.Scheme.bare r.defaultScheme = r.defaultScheme
  routes : List.Forall₂ Entry.Makes (entries before changes) r.routes
  tidy : ∀ route ∈ r.routes, route.pattern.Tidy

theorem follows_after {start : Router α} {raw : String} (hs : start.Sound)
    (hd : start.defaultScheme = Url.Scheme.bare raw) (hr : start.routes = [])
    (changes : List (Change α)) :
    (start.after changes).Follows start.defaultScheme changes := by
  have hb := defaultScheme_after start changes
  obtain ⟨last, hl⟩ := inForce_eq_bare raw changes
  rw [hd, hl] at hb
  have hn := Url.Scheme.not_marked_bare last
  have hc := Url.Scheme.getLast?_bare last
  obtain ⟨routes, hroutes, hm⟩ := routes_after start changes
  rw [hr, List.nil_append] at hroutes
  rw [← hb] at hn hc
  refine ⟨defaultScheme_after start changes, hn, hc, Url.Scheme.bare_eq_self hn hc, ?_, ?_⟩
  · rwa [hroutes]
  · intro route hroute
    exact ((hs.after changes).wellFormed route hroute).tidy

/-- Whatever is done to a new router, its default is a bare scheme, and its routes are those which
were accepted, in order and each with the scheme and the segments of its text. A route is refused for
its pattern alone, and what is refused changes nothing. -/
theorem follows_of_new {start : Router α}
    (h : start = empty ∨ ∃ raw, start = ofScheme raw) (changes : List (Change α)) :
    (start.after changes).Follows start.defaultScheme changes ∧
      (∀ pattern action fault, ((start.after changes).add pattern action).1 = .error fault ↔
        Pattern.ofSource pattern = .error fault) ∧
      ∀ c fault, ((start.after changes).change c).1 = .error fault →
        start.after (changes ++ [c]) = start.after changes := by
  refine ⟨?_, ?_, ?_⟩
  · rcases h with rfl | ⟨raw, rfl⟩
    · have hb : Url.Scheme.bare "" = "" := by decide
      exact follows_after sound_empty hb.symm rfl changes
    · have hs : (ofScheme raw : Router α).Sound := by
        rw [ofScheme, ← changed_setDefault]
        exact sound_empty.changed _
      have hd : (ofScheme raw : Router α).defaultScheme = Url.Scheme.bare raw := by
        rw [ofScheme, setDefault]
      exact follows_after hs hd rfl changes
  · intro pattern action fault
    rw [← Change.fault?_add_eq_some_iff, ← change_fst_eq_error_iff, change]
  · intro c fault hc
    rw [after, List.foldl_append, List.foldl_cons, List.foldl_nil, ← after]
    exact changed_of_fault _ (change_fst_eq_error_iff.mp hc)

/-- One pattern is refused, and of the two accepted ones the second brings its own scheme. -/
theorem follows_of_new_refused :
    ∃ changes : List (Change Unit),
      changes = [.add "user/<int:id>" (), .add "<a>/<a>" (), .setDefault "web:", .add "old://b" ()] ∧
      (∃ raw, (ofScheme "app://x" : Router Unit) = ofScheme raw) ∧
      inForce "app" changes = "web" ∧
      entries "app" changes = [⟨"user/<int:id>", (), "app"⟩, ⟨"old://b", (), "web"⟩] ∧
      ((ofScheme "app://x").after changes).Follows "app" changes ∧
      (((ofScheme "app://x").after changes).add "<path:p>/x" ()).1 = .error (.pathNotLast "p") ∧
      (ofScheme "app://x").after (changes ++ [.add "<path:p>/x" ()]) =
        (ofScheme "app://x").after changes := by
  obtain ⟨changes, hchanges⟩ : ∃ changes : List (Change Unit), changes =
    [.add "user/<int:id>" (), .add "<a>/<a>" (), .setDefault "web:", .add "old://b" ()] := ⟨_, rfl⟩
  have hd : (ofScheme "app://x" : Router Unit).defaultScheme = "app" := by cbv
  have hi : inForce "app" changes = "web" := by
    rw [hchanges]
    cbv
  have he : entries "app" changes = [⟨"user/<int:id>", (), "app"⟩, ⟨"old://b", (), "web"⟩] := by
    rw [hchanges]
    cbv
  have h := follows_of_new (.inr ⟨"app://x", rfl⟩) changes
  rw [hd] at h
  have hp : Pattern.ofSource "<path:p>/x" = .error (.pathNotLast "p") := by cbv
  have hc := (h.2.1 "<path:p>/x" () (.pathNotLast "p")).mpr hp
  exact ⟨changes, hchanges, ⟨_, rfl⟩, hi, he, h.1, hc, h.2.2 _ _ hc⟩

end Router

end UrlRouter
