import UrlRouter.Proofs.Router.Nested

namespace UrlRouter

open Url

variable {start pattern : String}

/-- What stands in front of the pattern when the scope begins with `start`. -/
def seam (start : String) : String :=
  if Scheme.mark.isSuffixOf start.toList then start
  else .ofList (Text.trimEnd '/' start.toList) ++ "/"

theorem nested_empty (pattern : String) : nested "" pattern = pattern := by
  simp [nested]

theorem nested_eq (pattern : String) (hs : start ≠ "") :
    nested start pattern = seam start ++ inner pattern := by
  by_cases hm : Scheme.mark <:+ start.toList
  · rw [nested_of_mark pattern hm, seam, if_pos (List.isSuffixOf_iff_suffix.mpr hm)]
  · rw [nested_of_no_mark pattern hs hm, seam, if_neg (mt List.isSuffixOf_iff_suffix.mp hm)]

theorem seam_of_mark (h : Scheme.mark <:+ start.toList) : seam start = start := by
  rw [seam, if_pos (List.isSuffixOf_iff_suffix.mpr h)]

theorem seam_of_no_mark (h : ¬ Scheme.mark <:+ start.toList) :
    seam start = .ofList (Text.trimEnd '/' start.toList) ++ "/" := by
  rw [seam, if_neg (mt List.isSuffixOf_iff_suffix.mp h)]

theorem seam_ne_empty (hs : start ≠ "") : seam start ≠ "" := by
  unfold seam
  split
  · exact hs
  · simp

/-- A text which begins with something else than a slash. -/
def Firm (s : String) : Prop :=
  s.toList ≠ [] ∧ s.toList.head? ≠ some '/'

theorem Firm.append {front : String} (h : Firm front) (back : String) : Firm (front ++ back) := by
  obtain ⟨hn, hh⟩ := h
  rw [Firm, String.toList_append, List.head?_append_of_ne_nil _ hn]
  exact ⟨List.append_ne_nil_of_left_ne_nil hn _, hh⟩

theorem firm_inner (h : inner pattern ≠ "") : Firm (inner pattern) := by
  rw [ne_eq, ← String.toList_eq_nil_iff] at h
  refine ⟨h, ?_⟩
  rw [inner, String.toList_ofList]
  exact Text.head?_trimStart '/' pattern.toList

theorem inner_append {front : String} (back : String) (hf : ∀ c ∈ front.toList, c = '/') :
    inner (front ++ back) = inner back := by
  rw [inner, inner, String.toList_append, Text.trimStart, List.dropWhile_append_of_pos]
  · rfl
  · simpa using hf

theorem inner_of_firm {s : String} (h : Firm s) : inner s = s := by
  rw [inner, Text.trimStart_eq_self h.2, String.ofList_toList]

theorem inner_inner (pattern : String) : inner (inner pattern) = inner pattern := by
  have hh := Text.head?_trimStart '/' pattern.toList
  rw [inner, inner, String.toList_ofList, Text.trimStart_eq_self hh]

theorem exists_eq_append_inner (pattern : String) :
    ∃ front, pattern = front ++ inner pattern ∧ ∀ c ∈ front.toList, c = '/' := by
  refine ⟨.ofList (pattern.toList.takeWhile (· == '/')), ?_, ?_⟩
  · rw [inner, Text.trimStart, ← String.ofList_append, List.takeWhile_append_dropWhile,
      String.ofList_toList]
  · intro c hc
    rw [String.toList_ofList] at hc
    simpa using List.mem_takeWhile_imp hc

/-- The mark ends with slashes, so none ends inside a text in front of which there is something else
than a slash. -/
theorem mark_suffix_append_firm {front back : String} (h : Firm back) :
    Scheme.mark <:+ (front ++ back).toList ↔ Scheme.mark <:+ back.toList := by
  obtain ⟨hn, hh⟩ := h
  rw [String.toList_append]
  constructor
  · intro hm
    match hb : back.toList with
    | [] => exact absurd hb hn
    | [a] =>
      rw [hb] at hm hh
      simp [Scheme.mark, ← List.reverse_prefix] at hm hh
      exact absurd hm.1.symm hh
    | [a, b] =>
      rw [hb] at hm hh
      simp [Scheme.mark, ← List.reverse_prefix] at hm hh
      exact absurd hm.2.1.symm hh
    | a :: b :: c :: rest =>
      rw [hb] at hm
      exact List.suffix_of_suffix_length_le hm (List.suffix_append _ _) (by simp [Scheme.mark])
  · intro hm
    exact hm.trans (List.suffix_append _ _)

theorem firm_trimEnd {s : String} (h : Firm s) : Firm (.ofList (Text.trimEnd '/' s.toList)) := by
  obtain ⟨hn, hh⟩ := h
  have ht : Text.trimEnd '/' s.toList ≠ [] := by
    intro he
    obtain ⟨n, hr⟩ := Text.exists_eq_append_trimEnd '/' s.toList
    rw [he, List.nil_append] at hr
    cases n with
    | zero => exact hn hr
    | succ n => exact hh (by rw [hr, List.replicate_succ, List.head?_cons])
  obtain ⟨rest, hr⟩ := Text.trimEnd_prefix '/' s.toList
  rw [← hr, List.head?_append_of_ne_nil _ ht] at hh
  rw [Firm, String.toList_ofList]
  exact ⟨ht, hh⟩

theorem seam_append (front : String) {back : String} (h : Firm back) :
    seam (front ++ back) = front ++ seam back := by
  by_cases hm : Scheme.mark <:+ back.toList
  · rw [seam_of_mark hm, seam_of_mark ((mark_suffix_append_firm h).mpr hm)]
  · have ht : Text.trimEnd '/' back.toList ≠ [] := by simpa using (firm_trimEnd h).1
    rw [seam_of_no_mark hm, seam_of_no_mark (mt (mark_suffix_append_firm h).mp hm),
      String.toList_append, Text.trimEnd_append _ ht, String.ofList_append, String.ofList_toList,
      String.append_assoc]

theorem firm_seam {s : String} (h : Firm s) : Firm (seam s) := by
  by_cases hm : Scheme.mark <:+ s.toList
  · rwa [seam_of_mark hm]
  · rw [seam_of_no_mark hm]
    exact (firm_trimEnd h).append "/"

theorem seam_seam (start : String) : seam (seam start) = seam start := by
  by_cases hm : Scheme.mark <:+ start.toList
  · rw [seam_of_mark hm, seam_of_mark hm]
  · have hl := Text.getLast?_trimEnd '/' start.toList
    have hn : ¬ Scheme.mark <:+ (seam start).toList := by
      rw [seam_of_no_mark hm, String.toList_append, String.toList_ofList]
      intro h
      obtain ⟨front, hf⟩ := h
      have hc : front ++ [':', '/'] = Text.trimEnd '/' start.toList := by
        rw [← List.append_left_inj ['/']]
        simpa [Scheme.mark] using hf
      exact hl (by simp [← hc])
    have hs : (seam start).toList = Text.trimEnd '/' start.toList ++ List.replicate 1 '/' := by
      simp [seam_of_no_mark hm]
    rw [seam_of_no_mark hn, hs, Text.trimEnd_append_replicate, Text.trimEnd_eq_self hl,
      seam_of_no_mark hm]

theorem seam_of_slashes (hs : ∀ c ∈ start.toList, c = '/') : seam start = "/" := by
  have hm : ¬ Scheme.mark <:+ start.toList := by
    intro h
    exact absurd (hs ':' (h.subset (by simp [Scheme.mark]))) (by decide)
  have ht : Text.trimEnd '/' start.toList = [] := by
    rw [List.eq_replicate_of_mem hs]
    simp [Text.trimEnd]
  rw [seam_of_no_mark hm, ht, String.ofList_nil, String.empty_append]

/-- Of a scope which begins with slashes alone nothing is left inside another. -/
theorem inner_nested_of_slashes {middle : String} (pattern : String)
    (hs : ∀ c ∈ middle.toList, c = '/') : inner (nested middle pattern) = inner pattern := by
  by_cases hm : middle = ""
  · rw [hm, nested_empty]
  · have hslash : ∀ c ∈ "/".toList, c = '/' := by simp
    rw [nested_eq pattern hm, seam_of_slashes hs, inner_append _ hslash, inner_inner]

theorem seam_nested_of_firm {outer middle : String} (ho : outer ≠ "") (hm : Firm (inner middle)) :
    seam (nested outer middle) = seam outer ++ seam (inner middle) := by
  rw [nested_eq middle ho, seam_append _ hm]

theorem inner_nested_of_firm {middle : String} (pattern : String) (hm : Firm (inner middle)) :
    inner (nested middle pattern) = seam (inner middle) ++ inner pattern := by
  obtain ⟨front, hs, hf⟩ := exists_eq_append_inner middle
  have hn : middle ≠ "" := by
    intro he
    exact hm.1 (by simp [he, inner, Text.trimStart])
  rw [nested_eq pattern hn]
  conv_lhs => rw [hs]
  rw [seam_append front hm, String.append_assoc, inner_append _ hf,
    inner_of_firm ((firm_seam hm).append _)]

/-- Where two scopes meet, it does not matter which of them is opened first. -/
theorem nested_assoc (outer middle pattern : String) :
    nested (nested outer middle) pattern = nested outer (nested middle pattern) := by
  by_cases ho : outer = ""
  · rw [ho, nested_empty, nested_empty]
  · by_cases hm : inner middle = ""
    · -- A middle of slashes is lost in the seam, whichever of the two is made first.
      obtain ⟨front, hs, hf⟩ := exists_eq_append_inner middle
      rw [hm, String.append_empty] at hs
      rw [← hs] at hf
      rw [nested_eq middle ho, hm, String.append_empty, nested_eq pattern (seam_ne_empty ho),
        seam_seam, nested_eq _ ho, inner_nested_of_slashes pattern hf]
    · have hf := firm_inner hm
      have hn : nested outer middle ≠ "" := by
        rw [nested_eq middle ho]
        simp [hm]
      rw [nested_eq pattern hn, seam_nested_of_firm ho hf, nested_eq _ ho,
        inner_nested_of_firm pattern hf, String.append_assoc]

/-- Starts which follow one another are as good as one start made of them. -/
theorem foldl_nested {texts : List String} (start : String) (h : texts ≠ []) :
    texts.foldl nested start = nested start (texts.foldl nested "") := by
  induction texts generalizing start with
  | nil => exact absurd rfl h
  | cons s texts ih =>
    rw [List.foldl_cons, List.foldl_cons, nested_empty]
    by_cases ht : texts = []
    · rw [ht, List.foldl_nil, List.foldl_nil]
    · rw [ih (nested start s) ht, ih s ht, nested_assoc]

/-- Texts put inside one another by two and two, in whatever order. -/
inductive Nest where
  | text (s : String)
  | meet (outer inner : Nest)

namespace Nest

def whole : Nest → String
  | .text s => s
  | .meet outer inner => nested outer.whole inner.whole

/-- From the outermost to the innermost. -/
def parts : Nest → List String
  | .text s => [s]
  | .meet outer inner => outer.parts ++ inner.parts

theorem parts_ne_nil (n : Nest) : n.parts ≠ [] := by
  induction n with
  | text s => exact List.cons_ne_nil s []
  | meet outer inner ho hi => exact List.append_ne_nil_of_left_ne_nil ho _

theorem whole_eq (n : Nest) : n.whole = n.parts.foldl nested "" := by
  induction n with
  | text s => rw [whole, parts, List.foldl_cons, List.foldl_nil, nested_empty]
  | meet outer inner ho hi =>
    rw [whole, parts, List.foldl_append, ← ho, foldl_nested outer.whole inner.parts_ne_nil, ← hi]

end Nest

namespace Script

variable {α : Type}

/-- A script inside scopes, the outermost first. -/
def inScopes (starts : List String) (body : Script α) : Script α :=
  starts.foldr (fun start body => .scope start body .done) body

theorem draw_inScopes (starts : List String) (body : Script α) (start : String) (d : Draft α) :
    (body.inScopes starts).draw start d = body.draw (starts.foldl nested start) d := by
  induction starts generalizing start with
  | nil => rfl
  | cons s starts ih =>
    rw [inScopes, List.foldr_cons, draw, draw, List.foldl_cons]
    exact ih (nested start s)

theorem patterns_inScopes (starts : List String) (body : Script α) (start : String) :
    (body.inScopes starts).patterns start = body.patterns (starts.foldl nested start) := by
  induction starts generalizing start with
  | nil => rfl
  | cons s starts ih =>
    rw [inScopes, List.foldr_cons, patterns, patterns, List.append_nil, List.foldl_cons]
    exact ih (nested start s)

/-- The script with `outer` put in front of each of its patterns and of each start of a scope. -/
def within (outer : String) : Script α → Script α
  | .done => .done
  | .scheme raw next => .scheme raw (next.within outer)
  | .map pattern action next => .map (nested outer pattern) action (next.within outer)
  | .scope inner body next => .scope (nested outer inner) body (next.within outer)

theorem draw_within (s : Script α) (start outer : String) (d : Draft α) :
    (s.within outer).draw start d = s.draw (nested start outer) d := by
  induction s generalizing d with
  | done => rfl
  | scheme raw next ih => rw [within, draw, draw, ih]
  | map pattern action next ih =>
    cases action with
    | none => rw [within, draw, draw, ih]
    | some a => rw [within, draw, draw, ih, nested_assoc]
  | scope inner body next hbody hnext => rw [within, draw, draw, hnext, nested_assoc]

theorem patterns_within (s : Script α) (start outer : String) :
    (s.within outer).patterns start = s.patterns (nested start outer) := by
  induction s with
  | done => rfl
  | scheme raw next ih => rw [within, patterns, patterns, ih]
  | map pattern action next ih => rw [within, patterns, patterns, ih, nested_assoc]
  | scope inner body next hbody hnext => rw [within, patterns, patterns, hnext, nested_assoc]

/-- Nesting is associative, so nothing of a route depends on how the starts of its scopes are grouped:
its text is made of their texts in order, and a scope may be closed by putting its start into its body. -/
theorem nested_grouping :
    (∀ outer middle pattern,
      nested (nested outer middle) pattern = nested outer (nested middle pattern)) ∧
    (∀ n : Nest, n.whole = n.parts.foldl nested "") ∧
    (∀ (starts : List String) pattern (action : α) (d : Draft α),
      ((map pattern (some action) done).inScopes starts).draw "" d =
        d.add ((starts ++ [pattern]).foldl nested "") action) ∧
    ∀ (outer middle : String) (body next : Script α) start,
      (∀ d, (scope outer (scope middle body done) next).draw start d =
        (scope outer (body.within middle) next).draw start d) ∧
      (scope outer (scope middle body done) next).patterns start =
        (scope outer (body.within middle) next).patterns start := by
  refine ⟨nested_assoc, Nest.whole_eq, ?_, ?_⟩
  · intro starts pattern action d
    rw [draw_inScopes, draw, draw, List.foldl_append, List.foldl_cons, List.foldl_nil]
  · intro outer middle body next start
    refine ⟨fun d => ?_, ?_⟩
    · rw [draw, draw, draw, draw, draw_within]
    · rw [patterns, patterns, patterns, patterns, patterns_within, List.append_nil]

/-- A middle of slashes alone, and one which ends with a mark. -/
example : nested (nested "app:///" "//") "//b" = "app:/b" ∧
    nested "app:///" (nested "//" "//b") = "app:/b" ∧
    nested (nested "a/" "/x://") "//b" = "a/x://b" ∧
    nested "a/" (nested "/x://" "//b") = "a/x://b" := by
  decide

end Script

end UrlRouter
