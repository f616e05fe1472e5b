import UrlRouter.Proofs.Text.Cut
import UrlRouter.Url

namespace UrlRouter.Url.Scheme

/-- The mark stands somewhere in the text. Of a url this is to say that it names its scheme. -/
def Marked (s : String) : Prop :=
  mark <:+: s.toList

theorem isSome_cut?_iff {s : String} : (Text.cut? mark s.toList).isSome ↔ Marked s := by
  rw [Marked, ← not_iff_not, ← Text.cut?_eq_none_iff]
  simp

instance (s : String) : Decidable (Marked s) :=
  decidable_of_iff _ isSome_cut?_iff

theorem mark_ne_nil : mark ≠ [] := List.cons_ne_nil _ _

/-- No beginning of the mark is an end of it, so where a text and a colon meet no mark begins inside
the text, whatever colons and slashes the text ends with. -/
theorem infix_of_prefix_append {s rest : List Char} (hs : s ≠ [])
    (h : mark <+: s ++ ':' :: rest) : mark <:+: s := by
  match s with
  | [] => exact absurd rfl hs
  | [a] => simp [mark] at h
  | [a, b] => simp [mark] at h
  | a :: b :: c :: s =>
    refine List.IsPrefix.isInfix ?_
    simpa [mark] using h

theorem infix_append_colon {s rest : List Char} (h : mark <:+: s ++ ':' :: rest) :
    mark <:+: s ∨ mark <:+: ':' :: rest := by
  induction s with
  | nil => exact .inr h
  | cons a s ih =>
    rw [List.cons_append, List.infix_cons_iff, ← List.cons_append] at h
    rcases h with h | h
    · exact .inl (infix_of_prefix_append (List.cons_ne_nil a s) h)
    · exact (ih h).imp_left List.infix_cons

/-- A slash between two texts is in no mark, unless there is another slash beside it. -/
theorem not_infix_append_slash {front back : List Char} (hf : ¬ mark <:+: front)
    (hb : ¬ mark <:+: back) (hl : front.getLast? ≠ some '/') (hh : back.head? ≠ some '/') :
    ¬ mark <:+: front ++ '/' :: back := by
  induction front with
  | nil =>
    intro h
    rw [List.nil_append, List.infix_cons_iff] at h
    rcases h with h | h
    · simp [mark] at h
    · exact hb h
  | cons a front ih =>
    intro h
    rw [List.infix_cons_iff, not_or] at hf
    rw [List.cons_append, List.infix_cons_iff] at h
    rcases h with h | h
    · match front with
      | [] =>
        obtain ⟨rest, hr⟩ := h
        have hback : ':' = a ∧ '/' :: rest = back := by simpa [mark] using hr
        exact hh (by rw [← hback.2, List.head?_cons])
      | [b] =>
        have hslash : ':' = a ∧ '/' = b := by simpa [mark] using h
        exact hl (by simp [← hslash.2])
      | b :: c :: front =>
        have hp : mark <+: a :: b :: c :: front := by simpa [mark] using h
        exact hf.1 hp
    · refine ih hf.2 ?_ h
      intro he
      apply hl
      rw [List.getLast?_cons, he, Option.getD_some]

theorem cut?_mark {s : List Char} (rest : List Char) (h : ¬ mark <:+: s) :
    Text.cut? mark (s ++ mark ++ rest) = some (s, rest) := by
  refine Text.cut?_append mark_ne_nil ?_
  intro t ht hne hp
  rw [List.append_assoc] at hp
  exact h ((infix_of_prefix_append hne hp).trans ht.isInfix)

/-- A mark at the end of a marked text is the first one, or it is behind it. -/
theorem mark_suffix_append_iff {s rest : List Char} :
    mark <:+ s ++ mark ++ rest ↔ rest = [] ∨ mark <:+ rest := by
  constructor
  · intro h
    match rest with
    | [] => exact .inl rfl
    | [a] => simp [mark, ← List.reverse_prefix] at h
    | [a, b] => simp [mark, ← List.reverse_prefix] at h
    | a :: b :: c :: rest =>
      refine .inr (List.suffix_of_suffix_length_le h (List.suffix_append _ _) ?_)
      simp [mark]
  · rintro (rfl | h)
    · rw [List.append_nil]
      exact List.suffix_append s mark
    · exact h.trans (List.suffix_append _ _)

theorem cut_append {scheme : String} (rest : String) (h : ¬ Marked scheme) :
    cut (scheme ++ "://" ++ rest) = (some scheme, rest) := by
  have hl : (scheme ++ "://" ++ rest).toList = scheme.toList ++ mark ++ rest.toList := by
    simp [mark]
  simp only [cut, hl, cut?_mark rest.toList h, String.ofList_toList]

theorem cut_of_not_marked {s : String} (h : ¬ Marked s) : cut s = (none, s) := by
  simp only [cut, Text.cut?_eq_none_iff.mpr h]

theorem not_marked_of_cut_none {s : String} (h : (cut s).1 = none) : ¬ Marked s := by
  intro hm
  rw [← isSome_cut?_iff, Option.isSome_iff_exists] at hm
  obtain ⟨⟨before, after⟩, hc⟩ := hm
  simp [cut, hc] at h

/-- A marked text is a scheme, the mark and a rest in one way only. -/
theorem Marked.parts {s : String} (h : Marked s) :
    ∃ scheme rest, s = scheme ++ "://" ++ rest ∧ ¬ Marked scheme := by
  cases hc : Text.cut? mark s.toList with
  | none => exact absurd h (Text.cut?_eq_none_iff.mp hc)
  | some halves =>
    obtain ⟨before, after⟩ := halves
    refine ⟨.ofList before, .ofList after, ?_, ?_⟩
    · rw [← String.toList_inj, Text.eq_of_cut? hc]
      simp [mark]
    · simpa [Marked] using Text.not_infix_of_cut? mark_ne_nil hc

theorem not_marked_of_cut {s scheme : String} (h : (cut s).1 = some scheme) : ¬ Marked scheme := by
  by_cases hm : Marked s
  · obtain ⟨front, rest, rfl, hf⟩ := hm.parts
    rw [cut_append rest hf] at h
    cases h
    exact hf
  · rw [cut_of_not_marked hm] at h
    cases h

/-- A question mark or a hash between two texts cannot be inside the mark. -/
theorem marked_append_iff {s t : String} {c : Char} (hc : c ∉ mark) :
    Marked (s ++ .singleton c ++ t) ↔ Marked s ∨ Marked t := by
  simp only [Marked, String.toList_append, String.toList_singleton, List.append_assoc,
    List.singleton_append]
  exact Text.infix_append_cons_iff mark_ne_nil hc

/-- A colon and one slash between two texts make no mark, if no second slash follows. -/
theorem not_marked_append_slash {s t : String} (hs : ¬ Marked s) (ht : ¬ Marked t)
    (hh : t.toList.head? ≠ some '/') : ¬ Marked (s ++ ":/" ++ t) := by
  have hl : (s ++ ":/" ++ t).toList = (s.toList ++ [':']) ++ '/' :: t.toList := by simp
  rw [Marked, hl]
  refine not_infix_append_slash ?_ ht (by simp) hh
  intro h
  rcases infix_append_colon h with h | h
  · exact hs h
  · simp [mark, List.infix_cons_iff] at h

theorem not_marked_of_prefix {s t : String} (hp : s.toList <+: t.toList) (h : ¬ Marked t) :
    ¬ Marked s :=
  fun hs => h (hs.trans hp.isInfix)

/-- What names a scheme never names two. -/
theorem not_marked_bare (raw : String) : ¬ Marked (bare raw) := by
  have hn : ¬ Marked ((cut raw).1.getD raw) := by
    by_cases h : Marked raw
    · obtain ⟨scheme, rest, rfl, hs⟩ := h.parts
      simpa [cut_append rest hs] using hs
    · simpa [cut_of_not_marked h] using h
  refine not_marked_of_prefix ?_ hn
  simp only [bare, String.toList_ofList]
  exact Text.trimEnd_prefix _ _

theorem getLast?_bare (raw : String) : (bare raw).toList.getLast? ≠ some ':' := by
  rw [bare, String.toList_ofList]
  exact Text.getLast?_trimEnd ':' _

theorem bare_of_not_marked {s : String} (h : ¬ Marked s) :
    bare s = .ofList (Text.trimEnd ':' s.toList) := by
  rw [bare, cut_of_not_marked h, Option.getD_none]

theorem bare_append {scheme : String} (rest : String) (h : ¬ Marked scheme) :
    bare (scheme ++ "://" ++ rest) = bare scheme := by
  rw [bare_of_not_marked h, bare, cut_append rest h, Option.getD_some]

theorem bare_eq_self {s : String} (h : ¬ Marked s) (hl : s.toList.getLast? ≠ some ':') :
    bare s = s := by
  rw [bare_of_not_marked h, Text.trimEnd_eq_self hl, String.ofList_toList]

end UrlRouter.Url.Scheme
