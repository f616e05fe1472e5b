import UrlRouter.Proofs.Router.Grouping
import UrlRouter.Proofs.Router.Printed

namespace UrlRouter

open Url

variable {start pattern : String} {starts : List String}

theorem not_mark_suffix (h : ¬ Scheme.Marked start) : ¬ Scheme.mark <:+ start.toList :=
  fun hm => h hm.isInfix

/-- Nesting leaves one slash at the seam, and what is left of the two texts has none beside it. -/
theorem not_marked_nested (hs : ¬ Scheme.Marked start) (hp : ¬ Scheme.Marked pattern) :
    ¬ Scheme.Marked (nested start pattern) := by
  by_cases hn : start = ""
  · rwa [hn, nested_empty]
  · have hl : (nested start pattern).toList =
        Text.trimEnd '/' start.toList ++ '/' :: (inner pattern).toList := by
      simp [nested_of_no_mark pattern hn (not_mark_suffix hs)]
    rw [Scheme.Marked, hl]
    refine Scheme.not_infix_append_slash ?_ (not_marked_inner hp)
      (Text.getLast?_trimEnd '/' start.toList) ?_
    · exact fun h => hs (h.trans (Text.trimEnd_prefix '/' start.toList).isInfix)
    · rw [inner, String.toList_ofList]
      exact Text.head?_trimStart '/' pattern.toList

theorem segments_nested (pattern : String) (hs : ¬ Scheme.Marked start) :
    Path.segments (nested start pattern) = Path.segments start ++ Path.segments pattern := by
  by_cases hr : Path.segments start = []
  · obtain ⟨n, hn⟩ := Text.exists_eq_replicate_of_trim (Path.segments_eq_nil_iff.mp hr)
    have hslash : ∀ c ∈ start.toList, c = '/' := by
      intro c hc
      rw [hn] at hc
      exact List.eq_of_mem_replicate hc
    rw [hr, List.nil_append, ← segments_inner (nested start pattern),
      inner_nested_of_slashes pattern hslash, segments_inner]
  · have hn : start ≠ "" := by
      rintro rfl
      exact hr rfl
    rw [nested_of_no_mark pattern hn (not_mark_suffix hs), segments_behind_path pattern hr]

theorem not_marked_foldl (hs : ∀ s ∈ starts, ¬ Scheme.Marked s) (h : ¬ Scheme.Marked start) :
    ¬ Scheme.Marked (starts.foldl nested start) := by
  induction starts generalizing start with
  | nil => exact h
  | cons s starts ih =>
    obtain ⟨hn, hs⟩ := List.forall_mem_cons.mp hs
    exact ih hs (not_marked_nested h hn)

theorem segments_foldl (hs : ∀ s ∈ starts, ¬ Scheme.Marked s) (h : ¬ Scheme.Marked start) :
    Path.segments (starts.foldl nested start) =
      Path.segments start ++ starts.flatMap Path.segments := by
  induction starts generalizing start with
  | nil => simp
  | cons s starts ih =>
    obtain ⟨hn, hs⟩ := List.forall_mem_cons.mp hs
    rw [List.foldl_cons, ih hs (not_marked_nested h hn), segments_nested s h, List.append_assoc,
      List.flatMap_cons]

namespace Pattern

/-- Of a source without a scheme the segments are all that counts. -/
theorem ofSource_join_segments {source : String} (h : ¬ Scheme.Marked source) :
    (ofSource (Path.join (Path.segments source))).map (fun p => { p with source }) =
      ofSource source := by
  have hj := not_marked_join_segments h
  simp only [ofSource, Scheme.cut_of_not_marked h, Scheme.cut_of_not_marked hj,
    Path.segments_join (Path.canonical_segments source)]
  split <;> rfl

end Pattern

namespace Script

variable {α : Type}

/-- Scopes without schemes concatenate. The text of a route inside them names no scheme either, and its
segments are those of the scopes from the outermost on and then its own, so it compiles as they do. -/
theorem concatenates (α : Type) (hs : ∀ s ∈ starts, ¬ Scheme.Marked s)
    (hp : ¬ Scheme.Marked pattern) :
    ∃ text,
      (∀ action : Option α, ((map pattern action done).inScopes starts).patterns "" = [text]) ∧
      (∀ (action : α) (d : Draft α),
        ((map pattern (some action) done).inScopes starts).draw "" d = d.add text action) ∧
      ¬ Scheme.Marked text ∧
      Path.segments text = starts.flatMap Path.segments ++ Path.segments pattern ∧
      Pattern.ofSource text =
        (Pattern.ofSource
          (Path.join (starts.flatMap Path.segments ++ Path.segments pattern))).map
            (fun p => { p with source := text }) ∧
      ∀ p, Pattern.ofSource text = .ok p → p.scheme = none := by
  have hempty : ¬ Scheme.Marked "" := by decide
  have hstart := not_marked_foldl hs hempty
  have htext := not_marked_nested hstart hp
  have hsegments : Path.segments (nested (starts.foldl nested "") pattern) =
      starts.flatMap Path.segments ++ Path.segments pattern := by
    rw [segments_nested pattern hstart, segments_foldl hs hempty]
    rfl
  refine ⟨nested (starts.foldl nested "") pattern, ?_, ?_, htext, hsegments, ?_, ?_⟩
  · intro action
    rw [patterns_inScopes, patterns, patterns]
  · intro action d
    rw [draw_inScopes, draw, draw]
  · rw [← hsegments, Pattern.ofSource_join_segments htext]
  · intro p h
    exact Pattern.scheme_of_not_marked h htext

/-- Pieces which end with a colon, with a colon and a slash, and in slashes alone, in front of pieces
which begin with slashes; and an empty segment inside one of them. -/
theorem concatenates_colons :
    ((∀ s ∈ ["//a:", "/", ":/b//c:/"], ¬ Scheme.Marked s) ∧ ¬ Scheme.Marked "//<int:id>/") ∧
    ((map "//<int:id>/" (none : Option Unit) done).inScopes ["//a:", "/", ":/b//c:/"]).patterns "" =
      ["//a:/:/b//c:/<int:id>/"] ∧
    Path.segments "//a:/:/b//c:/<int:id>/" = ["a:", ":", "b", "", "c:", "<int:id>"] ∧
    ∃ p, Pattern.ofSource "//a:/:/b//c:/<int:id>/" = .ok p ∧ p.scheme = none := by
  have hs : ∀ s ∈ ["//a:", "/", ":/b//c:/"], ¬ Scheme.Marked s := by decide
  have hp : ¬ Scheme.Marked "//<int:id>/" := by decide
  obtain ⟨text, ht, -, -, hsegments, -, hscheme⟩ := concatenates Unit hs hp
  have hpatterns : ((map "//<int:id>/" (none : Option Unit) done).inScopes
      ["//a:", "/", ":/b//c:/"]).patterns "" = ["//a:/:/b//c:/<int:id>/"] := by decide
  obtain rfl : "//a:/:/b//c:/<int:id>/" = text := by simpa [hpatterns] using ht none
  have hpieces : ["//a:", "/", ":/b//c:/"].flatMap Path.segments ++ Path.segments "//<int:id>/" =
      ["a:", ":", "b", "", "c:", "<int:id>"] := by cbv
  obtain ⟨p, hok⟩ : ∃ p, Pattern.ofSource "//a:/:/b//c:/<int:id>/" = .ok p :=
    ⟨⟨"//a:/:/b//c:/<int:id>/", _, _⟩, by cbv⟩
  exact ⟨⟨hs, hp⟩, hpatterns, hsegments.trans hpieces, p, hok, hscheme p hok⟩

end Script

end UrlRouter
