import UrlRouter.Proofs.Router.Reachable

namespace UrlRouter

namespace Pattern

/-- The text of a pattern, told from what was made of its source and not from the source itself. -/
def printed (p : Pattern) : String :=
  p.scheme.elim "" (· ++ "://") ++ Url.Path.join (p.segments.map Segment.display)

/-- What makes a pattern readable from its text. Where it has no scheme there is no mark by which the
beginning of its path could be taken for one. -/
structure Printable (p : Pattern) : Prop where
  segments : (p.segments.map Segment.display).map Segment.ofToken = p.segments
  tokens : Url.Path.Canonical (p.segments.map Segment.display)
  faultless : fault? [] p.segments = none
  scheme : ∀ scheme ∈ p.scheme, ¬ Url.Scheme.Marked scheme
  path : p.scheme = none → ¬ Url.Scheme.Marked (Url.Path.join (p.segments.map Segment.display))

variable {p : Pattern}

theorem Printable.cut_printed (h : p.Printable) :
    Url.Scheme.cut p.printed = (p.scheme, Url.Path.join (p.segments.map Segment.display)) := by
  unfold printed
  cases hs : p.scheme with
  | none =>
    rw [Option.elim_none, String.empty_append]
    exact Url.Scheme.cut_of_not_marked (h.path hs)
  | some scheme =>
    rw [Option.elim_some]
    exact Url.Scheme.cut_append _ (h.scheme scheme hs)

theorem Printable.tokens_printed (h : p.Printable) : Pattern.tokens p.printed = p.segments := by
  rw [Pattern.tokens, h.cut_printed, Url.Path.segments_join h.tokens, h.segments]

theorem Printable.ofSource_printed (h : p.Printable) :
    ofSource p.printed = .ok { p with source := p.printed } := by
  have hf : fault? [] (Pattern.tokens p.printed) = none := by
    rw [h.tokens_printed]
    exact h.faultless
  rw [ofSource_of_no_fault hf, h.tokens_printed, h.cut_printed]

/-- What is joined from the segments of a path is a piece of it. -/
theorem not_marked_join_segments {path : String} (h : ¬ Url.Scheme.Marked path) :
    ¬ Url.Scheme.Marked (Url.Path.join (Url.Path.segments path)) := by
  intro hm
  rw [Url.Scheme.Marked, Url.Path.toList_join_segments] at hm
  exact h (hm.trans (Text.trim_infix '/' path.toList))

theorem printable_of_ofSource {source : String} (h : ofSource source = .ok p) : p.Printable := by
  obtain ⟨-, hc, hs, hf⟩ := ofSource_ok h
  refine ⟨?_, (ofSource_wellFormed h).tokens, hf, fun _ hm => not_marked_of_scheme h hm, ?_⟩
  · rw [hs, Segment.map_display_ofToken]
  · intro hn
    have hm := Url.Scheme.not_marked_of_cut_none (hc.symm.trans hn)
    rw [hs, Segment.map_display_ofToken, Url.Scheme.cut_of_not_marked hm]
    exact not_marked_join_segments hm

theorem Printable.withDefault (h : p.Printable) {scheme : String}
    (hs : ¬ Url.Scheme.Marked scheme) : (p.withDefault scheme).Printable := by
  unfold Pattern.withDefault
  split
  · refine ⟨h.segments, h.tokens, h.faultless, ?_, ?_⟩
    · intro other ho
      cases ho
      exact hs
    · intro hn
      cases hn
  · exact h

theorem Registered.printable (h : p.Registered) : p.Printable := by
  obtain ⟨source, compiled, scheme, hc, hs, rfl⟩ := h
  exact (printable_of_ofSource hc).withDefault hs

end Pattern

namespace Router

variable {α : Type}

/-- A pattern is read from its own text as it is, also if its scheme was lent to it and stood nowhere in
its source. -/
theorem printed_compiles (changes : List (Change α)) :
    (∀ source p, Pattern.ofSource source = .ok p →
      Pattern.ofSource p.printed = .ok { p with source := p.printed }) ∧
    ∀ route ∈ (empty.after changes).routes,
      Pattern.ofSource route.pattern.printed =
        .ok { route.pattern with source := route.pattern.printed } := by
  constructor
  · intro source p h
    exact (Pattern.printable_of_ofSource h).ofSource_printed
  · intro route h
    exact (registered_of_mem h).printable.ofSource_printed

/-- A scheme which ends with a colon in front of a path which holds a mark, and a scheme lent to a source
with slashes at its ends; empty segments and tokens which are no placeholders in both. -/
theorem printed_compiles_colons :
    (∃ p, Pattern.ofSource "a:://b:///<<c>>//" = .ok p ∧ p.printed = "a:://b:///<<c>>" ∧
      Pattern.ofSource "a:://b:///<<c>>" = .ok { p with source := "a:://b:///<<c>>" }) ∧
    ∃ route ∈ (empty.after [.setDefault "web", .add "//a:/<int:x>//<a:b>/" ()]).routes,
      route.pattern.printed = "web://a:/<int:x>//<a:b>" ∧
      Pattern.ofSource "web://a:/<int:x>//<a:b>" =
        .ok { route.pattern with source := "web://a:/<int:x>//<a:b>" } := by
  have h := printed_compiles [.setDefault "web", .add "//a:/<int:x>//<a:b>/" ()]
  obtain ⟨p, hp, ht⟩ : ∃ p, Pattern.ofSource "a:://b:///<<c>>//" = .ok p ∧
      p.printed = "a:://b:///<<c>>" :=
    ⟨⟨_, some "a:", [.literal "b:", .literal "", .literal "", .literal "<<c>>"]⟩, by cbv, by decide⟩
  obtain ⟨q, hq, hl⟩ : ∃ q, Pattern.ofSource "//a:/<int:x>//<a:b>/" = .ok q ∧
      (q.withDefault "web").printed = "web://a:/<int:x>//<a:b>" :=
    ⟨⟨_, none, [.literal "a:", .capture "x" .int, .literal "", .literal "<a:b>"]⟩, by cbv, by decide⟩
  have hr : (⟨q.withDefault "web", ()⟩ : Route Unit) ∈
      (empty.after [.setDefault "web", .add "//a:/<int:x>//<a:b>/" ()]).routes := by
    have hd : (empty.setDefault "web" : Router Unit).defaultScheme = "web" := by decide
    rw [after_cons, changed_setDefault, after_cons, changed_add_of_ok () hq, hd]
    simp [after]
  have hfirst := h.1 _ p hp
  have hsecond := h.2 _ hr
  rw [ht] at hfirst
  rw [hl] at hsecond
  exact ⟨⟨p, hp, ht, hfirst⟩, _, hr, hl, hsecond⟩

end Router

end UrlRouter
