import UrlRouter.Proofs.Pattern.Compiled
import UrlRouter.Router.Script

namespace UrlRouter

open Url

variable {start scheme rest pattern : String}

/-- A pattern as it stands behind the start of a scope. -/
def inner (pattern : String) : String :=
  .ofList (Text.trimStart '/' pattern.toList)

theorem nested_of_mark (pattern : String) (h : Scheme.mark <:+ start.toList) :
    nested start pattern = start ++ inner pattern := by
  have hn : start.isEmpty = false := by
    rw [← Bool.not_eq_true, String.isEmpty_iff]
    rintro rfl
    simp [Scheme.mark] at h
  simp [nested, hn, h, inner]

theorem nested_of_no_mark (pattern : String) (hn : start ≠ "")
    (h : ¬ Scheme.mark <:+ start.toList) :
    nested start pattern =
      .ofList (Text.trimEnd '/' start.toList) ++ "/" ++ inner pattern := by
  simp [nested, hn, h, inner]

theorem segments_inner (pattern : String) : Path.segments (inner pattern) = Path.segments pattern :=
  Path.segments_trimStart pattern

theorem inner_eq_empty (h : Path.segments pattern = []) : inner pattern = "" := by
  obtain ⟨n, hn⟩ := Text.exists_eq_replicate_of_trim (Path.segments_eq_nil_iff.mp h)
  simp [inner, hn, Text.trimStart]

theorem not_marked_inner (h : ¬ Scheme.Marked pattern) : ¬ Scheme.Marked (inner pattern) := by
  intro hm
  rw [Scheme.Marked, inner, String.toList_ofList] at hm
  exact h (hm.trans (List.dropWhile_suffix _).isInfix)

theorem start_ne_empty (scheme rest : String) : scheme ++ "://" ++ rest ≠ "" := by
  simp

theorem toList_start (scheme rest : String) :
    (scheme ++ "://" ++ rest).toList = scheme.toList ++ Scheme.mark ++ rest.toList := by
  simp [Scheme.mark]

theorem mark_suffix_start_iff :
    Scheme.mark <:+ (scheme ++ "://" ++ rest).toList ↔ rest = "" ∨ Scheme.mark <:+ rest.toList := by
  rw [toList_start, Scheme.mark_suffix_append_iff, String.toList_eq_nil_iff]

theorem segments_ne_nil_of_mark (h : Scheme.mark <:+ rest.toList) : Path.segments rest ≠ [] := by
  intro hr
  obtain ⟨n, hs⟩ := Text.exists_eq_replicate_of_trim (Path.segments_eq_nil_iff.mp hr)
  have hc : ':' ∈ rest.toList := h.subset (by simp [Scheme.mark])
  simp [hs] at hc

/-- Behind a mark the pattern is put as it is. -/
theorem nested_behind_mark (scheme pattern : String)
    (h : rest = "" ∨ Scheme.mark <:+ rest.toList) :
    nested (scheme ++ "://" ++ rest) pattern = scheme ++ "://" ++ (rest ++ inner pattern) := by
  rw [nested_of_mark pattern (mark_suffix_start_iff.mpr h), String.append_assoc]

/-- Behind a path it is put after one slash. -/
theorem nested_behind_path (scheme pattern : String) (hr : Path.segments rest ≠ [])
    (h : ¬ Scheme.mark <:+ rest.toList) :
    nested (scheme ++ "://" ++ rest) pattern =
      scheme ++ "://" ++ (.ofList (Text.trimEnd '/' rest.toList) ++ "/" ++ inner pattern) := by
  have hne : rest ≠ "" := by
    rintro rfl
    exact hr rfl
  have ht : Text.trimEnd '/' rest.toList ≠ [] := by
    intro he
    apply hr
    rw [← Path.segments_trimEnd, he]
    rfl
  have hm : ¬ Scheme.mark <:+ (scheme ++ "://" ++ rest).toList :=
    mt mark_suffix_start_iff.mp (not_or.mpr ⟨hne, h⟩)
  rw [nested_of_no_mark pattern (start_ne_empty scheme rest) hm, toList_start,
    Text.trimEnd_append _ ht]
  simp [← String.toList_inj, Scheme.mark]

/-- Slashes behind the mark are trimmed, and the two slashes of the mark with them. -/
theorem nested_behind_slashes (scheme pattern : String) (hn : rest ≠ "")
    (hr : Path.segments rest = []) :
    nested (scheme ++ "://" ++ rest) pattern = scheme ++ ":/" ++ inner pattern := by
  obtain ⟨n, hs⟩ := Text.exists_eq_replicate_of_trim (Path.segments_eq_nil_iff.mp hr)
  have hm : ¬ Scheme.mark <:+ (scheme ++ "://" ++ rest).toList :=
    mt mark_suffix_start_iff.mp (not_or.mpr ⟨hn, fun h => segments_ne_nil_of_mark h hr⟩)
  have hl : (scheme ++ "://" ++ rest).toList =
      scheme.toList ++ [':'] ++ List.replicate (n + 2) '/' := by
    rw [toList_start, hs]
    simp [Scheme.mark, List.replicate_succ]
  rw [nested_of_no_mark pattern (start_ne_empty scheme rest) hm, hl,
    Text.trimEnd_append_replicate, Text.trimEnd_eq_self (by simp)]
  simp [← String.toList_inj]

/-- The slash between a path and a pattern adds no segment to theirs. -/
theorem segments_behind_path (pattern : String) (hr : Path.segments rest ≠ []) :
    Path.segments (.ofList (Text.trimEnd '/' rest.toList) ++ "/" ++ inner pattern) =
      Path.segments rest ++ Path.segments pattern := by
  by_cases hp : Path.segments pattern = []
  · rw [inner_eq_empty hp, String.append_empty, Path.segments_append_slash, Path.segments_trimEnd,
      hp, List.append_nil]
  · have hs := Path.segments_meet 0 hr hp
    rwa [List.replicate_zero, List.append_nil] at hs

/-- The two slashes of a mark at the end of a path are kept, so there is an empty segment. -/
theorem segments_behind_mark (hr : Scheme.mark <:+ rest.toList) (hp : Path.segments pattern ≠ []) :
    Path.segments (rest ++ inner pattern) = Path.segments rest ++ "" :: Path.segments pattern := by
  have hn := segments_ne_nil_of_mark hr
  obtain ⟨front, hf⟩ := hr
  have hl : rest.toList = front ++ [':'] ++ List.replicate 2 '/' := by
    simp [← hf, Scheme.mark, List.replicate_succ]
  have ht : Text.trimEnd '/' rest.toList = front ++ [':'] := by
    rw [hl, Text.trimEnd_append_replicate, Text.trimEnd_eq_self (by simp)]
  have hw : rest = .ofList (Text.trimEnd '/' rest.toList) ++ Path.slashes 2 := by
    rw [ht, ← String.toList_inj, hl]
    simp
  have hs := Path.segments_meet 1 hn hp
  rwa [← hw, List.append_assoc] at hs

/-- When a start which names a scheme puts a pattern behind its own path with nothing in between. -/
def Seamless (rest pattern : String) : Prop :=
  rest = "" ∨ Path.segments rest ≠ [] ∧ (Scheme.mark <:+ rest.toList → Path.segments pattern = [])

theorem Seamless.cut_nested (h : Seamless rest pattern) (hs : ¬ Scheme.Marked scheme) :
    ∃ path, Scheme.cut (nested (scheme ++ "://" ++ rest) pattern) = (some scheme, path) ∧
      Path.segments path = Path.segments rest ++ Path.segments pattern := by
  rcases h with rfl | ⟨hr, hp⟩
  · rw [nested_behind_mark scheme pattern (.inl rfl), Scheme.cut_append _ hs]
    refine ⟨_, rfl, ?_⟩
    rw [String.empty_append, segments_inner]
    rfl
  · by_cases hm : Scheme.mark <:+ rest.toList
    · rw [nested_behind_mark scheme pattern (.inr hm), Scheme.cut_append _ hs]
      refine ⟨_, rfl, ?_⟩
      rw [inner_eq_empty (hp hm), String.append_empty, hp hm, List.append_nil]
    · rw [nested_behind_path scheme pattern hr hm, Scheme.cut_append _ hs]
      exact ⟨_, rfl, segments_behind_path pattern hr⟩

/-- Slashes alone behind the mark cost the pattern its scheme. -/
theorem cut_nested_behind_slashes (hs : ¬ Scheme.Marked scheme) (hp : ¬ Scheme.Marked pattern)
    (hn : rest ≠ "") (hr : Path.segments rest = []) :
    Scheme.cut (nested (scheme ++ "://" ++ rest) pattern) =
      (none, scheme ++ ":/" ++ inner pattern) := by
  have hi : (inner pattern).toList.head? ≠ some '/' := by
    rw [inner, String.toList_ofList]
    exact Text.head?_trimStart '/' pattern.toList
  rw [nested_behind_slashes scheme pattern hn hr, Scheme.cut_of_not_marked]
  exact Scheme.not_marked_append_slash hs (not_marked_inner hp) hi

theorem cut_nested_behind_mark (hs : ¬ Scheme.Marked scheme) (hr : Scheme.mark <:+ rest.toList)
    (hp : Path.segments pattern ≠ []) :
    ∃ path, Scheme.cut (nested (scheme ++ "://" ++ rest) pattern) = (some scheme, path) ∧
      Path.segments path = Path.segments rest ++ "" :: Path.segments pattern := by
  rw [nested_behind_mark scheme pattern (.inr hr), Scheme.cut_append _ hs]
  exact ⟨_, rfl, segments_behind_mark hr hp⟩

/-- A pattern inside a scope has the scheme of the start, and its segments follow those of the start,
as long as the start is a bare scheme or ends with a segment. Slashes alone behind the mark cost it
the scheme, and a second mark at the end of the start adds an empty segment. -/
theorem nested_shares_scheme_iff (hs : ¬ Scheme.Marked scheme) (hp : ¬ Scheme.Marked pattern) :
    ((∃ path, Scheme.cut (nested (scheme ++ "://" ++ rest) pattern) = (some scheme, path) ∧
        Path.segments path = Path.segments rest ++ Path.segments pattern) ↔
      Seamless rest pattern) ∧
    (Seamless rest pattern → ∀ p, Pattern.ofSource (nested (scheme ++ "://" ++ rest) pattern) = .ok p →
      p.scheme = some scheme ∧
      p.segments = (Path.segments rest ++ Path.segments pattern).map Segment.ofToken) ∧
    (rest ≠ "" → Path.segments rest = [] →
      Scheme.cut (nested (scheme ++ "://" ++ rest) pattern) =
        (none, scheme ++ ":/" ++ inner pattern)) ∧
    (Scheme.mark <:+ rest.toList → Path.segments pattern ≠ [] →
      ∃ path, Scheme.cut (nested (scheme ++ "://" ++ rest) pattern) = (some scheme, path) ∧
        Path.segments path = Path.segments rest ++ "" :: Path.segments pattern) := by
  refine ⟨⟨?_, fun h => h.cut_nested hs⟩, ?_, cut_nested_behind_slashes hs hp,
    cut_nested_behind_mark hs⟩
  · intro h
    obtain ⟨path, hc, hseg⟩ := h
    by_cases hn : rest = ""
    · exact .inl hn
    · refine .inr ⟨?_, ?_⟩
      · intro hr
        rw [cut_nested_behind_slashes hs hp hn hr] at hc
        cases hc
      · intro hm
        by_contra he
        obtain ⟨other, hc', hseg'⟩ := cut_nested_behind_mark hs hm he
        rw [hc] at hc'
        cases hc'
        rw [hseg] at hseg'
        have hlen := congrArg List.length hseg'
        simp at hlen
  · intro h p hok
    obtain ⟨path, hc, hseg⟩ := h.cut_nested hs
    obtain ⟨-, hscheme, hsegments, -⟩ := Pattern.ofSource_ok hok
    rw [hscheme, hsegments, hc, hseg]
    exact ⟨rfl, rfl⟩

/-- A scheme which ends like the begin of a mark, and slashes wherever they may stand. -/
theorem nested_shares_scheme_iff_slashes :
    (¬ Scheme.Marked "app:/" ∧ ¬ Scheme.Marked "//<int:id>/" ∧ Seamless "/a//b//" "//<int:id>/") ∧
    (∃ path, Scheme.cut (nested ("app:/" ++ "://" ++ "/a//b//") "//<int:id>/") =
        (some "app:/", path) ∧ Path.segments path = ["a", "", "b", "<int:id>"]) ∧
    ∃ p, Pattern.ofSource (nested ("app:/" ++ "://" ++ "/a//b//") "//<int:id>/") = .ok p ∧
      p.scheme = some "app:/" ∧
      p.segments = [.literal "a", .literal "", .literal "b", .capture "id" .int] := by
  have hs : ¬ Scheme.Marked "app:/" := by decide
  have hp : ¬ Scheme.Marked "//<int:id>/" := by decide
  have hstart : Path.segments "/a//b//" = ["a", "", "b"] := by cbv
  have hpattern : Path.segments "//<int:id>/" = ["<int:id>"] := by cbv
  have hm : ¬ Scheme.mark <:+ "/a//b//".toList := by decide
  have hseam : Seamless "/a//b//" "//<int:id>/" :=
    .inr ⟨by simp [hstart], fun h => absurd h hm⟩
  have h := @nested_shares_scheme_iff "app:/" "/a//b//" "//<int:id>/" hs hp
  have hn : nested ("app:/" ++ "://" ++ "/a//b//") "//<int:id>/" = "app:/:///a//b/<int:id>/" := by
    decide
  obtain ⟨p, hok⟩ : ∃ p, Pattern.ofSource "app:/:///a//b/<int:id>/" = .ok p :=
    ⟨⟨"app:/:///a//b/<int:id>/", _, _⟩, by cbv⟩
  rw [← hn] at hok
  have hc := h.1.mpr hseam
  have ho := h.2.1 hseam p hok
  rw [hstart, hpattern] at hc ho
  exact ⟨⟨hs, hp, hseam⟩, hc, p, hok, ho.1, ho.2⟩

/-- A start which ends with more slashes than a mark has lends no scheme. -/
theorem not_nested_shares_scheme :
    ¬ ∀ scheme rest pattern, ¬ Scheme.Marked scheme → ¬ Scheme.Marked pattern →
      ∃ path, Scheme.cut (nested (scheme ++ "://" ++ rest) pattern) = (some scheme, path) ∧
        Path.segments path = Path.segments rest ++ Path.segments pattern := by
  intro h
  obtain ⟨path, hc, -⟩ := h "app" "/" "user" (by decide) (by decide)
  have hn : (Scheme.cut (nested ("app" ++ "://" ++ "/") "user")).1 = none := by decide
  rw [hc] at hn
  cases hn

end UrlRouter
