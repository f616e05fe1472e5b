import Mathlib.Data.List.Basic
import Mathlib.Data.List.TakeWhile
import UrlRouter.Text.Basic

namespace UrlRouter.Text

theorem isPrefixOf?_eq_none_iff {mark cs : List Char} :
    mark.isPrefixOf? cs = none ↔ ¬ mark <+: cs := by
  rw [Option.eq_none_iff_forall_not_mem]
  constructor
  · rintro h ⟨rest, hr⟩
    exact h rest (List.isPrefixOf?_eq_some_iff_append_eq.mpr hr)
  · intro h rest hr
    exact h ⟨rest, List.isPrefixOf?_eq_some_iff_append_eq.mp hr⟩

/-- The halves and the mark make up the text again. -/
theorem eq_of_cut? {mark cs before after : List Char}
    (h : cut? mark cs = some (before, after)) : cs = before ++ mark ++ after := by
  induction cs generalizing before with
  | nil =>
    unfold cut? at h
    split at h
    · rename_i hm
      simp only [Option.some.injEq, Prod.mk.injEq] at h
      obtain ⟨rfl, rfl⟩ := h
      simp [List.isEmpty_iff.mp hm]
    · cases h
  | cons c cs ih =>
    unfold cut? at h
    split at h
    · rename_i rest hp
      simp only [Option.some.injEq, Prod.mk.injEq] at h
      obtain ⟨rfl, rfl⟩ := h
      simpa using (List.isPrefixOf?_eq_some_iff_append_eq.mp hp).symm
    · obtain ⟨⟨front, back⟩, hc, he⟩ := Option.map_eq_some_iff.mp h
      simp only [Prod.mk.injEq] at he
      obtain ⟨rfl, rfl⟩ := he
      rw [ih hc]
      simp

/-- A text is not cut before the first place at which the mark begins. -/
theorem cut?_append {mark before after : List Char} (hm : mark ≠ [])
    (h : ∀ s, s <:+ before → s ≠ [] → ¬ mark <+: s ++ mark ++ after) :
    cut? mark (before ++ mark ++ after) = some (before, after) := by
  induction before with
  | nil =>
    cases hc : mark ++ after with
    | nil => exact absurd (List.append_eq_nil_iff.mp hc).1 hm
    | cons c cs =>
      have hp : mark.isPrefixOf? (c :: cs) = some after :=
        List.isPrefixOf?_eq_some_iff_append_eq.mpr hc
      simp [cut?, hc, hp]
  | cons c cs ih =>
    have hn : mark.isPrefixOf? (c :: (cs ++ mark ++ after)) = none :=
      isPrefixOf?_eq_none_iff.mpr (h (c :: cs) (List.suffix_refl _) (List.cons_ne_nil _ _))
    have ht := ih fun s hs hne => h s (hs.trans (List.suffix_cons _ _)) hne
    rw [List.append_assoc] at hn ht
    simp [cut?, hn, ht]

theorem cut?_eq_none_iff {mark cs : List Char} : cut? mark cs = none ↔ ¬ mark <:+: cs := by
  induction cs with
  | nil => simp [cut?]
  | cons c cs ih =>
    rw [List.infix_cons_iff, not_or, ← ih]
    simp only [cut?]
    split
    · rename_i rest hp
      have hp : mark <+: c :: cs := ⟨rest, List.isPrefixOf?_eq_some_iff_append_eq.mp hp⟩
      simp [hp]
    · rename_i hp
      simp [isPrefixOf?_eq_none_iff.mp hp]

/-- The first half is free of the mark, so there is one way only to cut a text. -/
theorem not_infix_of_cut? {mark cs before after : List Char} (hm : mark ≠ [])
    (h : cut? mark cs = some (before, after)) : ¬ mark <:+: before := by
  induction cs generalizing before with
  | nil => simp [cut?, hm] at h
  | cons c cs ih =>
    have hc := eq_of_cut? h
    unfold cut? at h
    split at h
    · simp only [Option.some.injEq, Prod.mk.injEq] at h
      obtain ⟨rfl, rfl⟩ := h
      simpa using hm
    · rename_i hn
      obtain ⟨⟨front, back⟩, ht, he⟩ := Option.map_eq_some_iff.mp h
      simp only [Prod.mk.injEq] at he
      obtain ⟨rfl, rfl⟩ := he
      rw [List.infix_cons_iff, not_or]
      refine ⟨?_, ih ht⟩
      intro hp
      apply isPrefixOf?_eq_none_iff.mp hn
      rw [hc, List.append_assoc]
      exact hp.trans (List.prefix_append _ _)

theorem cut?_char {c : Char} {before : List Char} (after : List Char) (h : c ∉ before) :
    cut? [c] (before ++ c :: after) = some (before, after) := by
  have hs : ∀ s, s <:+ before → s ≠ [] → ¬ [c] <+: s ++ [c] ++ after := by
    intro s hs hne hp
    obtain ⟨d, ds, rfl⟩ := List.exists_cons_of_ne_nil hne
    have hd : c = d := by simpa using hp
    exact h (hs.subset (by simp [hd]))
  simpa using cut?_append (List.cons_ne_nil c []) hs

theorem cut?_char_none {c : Char} {cs : List Char} (h : c ∉ cs) : cut? [c] cs = none := by
  rw [cut?_eq_none_iff]
  intro hi
  exact h (hi.subset List.mem_cons_self)

/-- A character which is not in the mark keeps what is in front of it apart from what follows. -/
theorem infix_append_cons_iff {mark before after : List Char} {c : Char} (hm : mark ≠ [])
    (hc : c ∉ mark) : mark <:+: before ++ c :: after ↔ mark <:+: before ∨ mark <:+: after := by
  have hp : ∀ front, front <+: c :: after → front ≠ [] → c ∈ front := by
    rintro front ⟨rest, hr⟩ hne
    obtain ⟨d, ds, rfl⟩ := List.exists_cons_of_ne_nil hne
    obtain ⟨rfl, -⟩ := List.cons.inj hr
    exact List.mem_cons_self
  constructor
  · intro h
    rcases List.infix_append_iff_ne_nil.mp h with h | h | ⟨front, back, -, hb, rfl, -, ha⟩
    · exact .inl h
    · rcases List.infix_cons_iff.mp h with h | h
      · exact absurd (hp mark h hm) hc
      · exact .inr h
    · exact absurd (List.mem_append_right front (hp back ha hb)) hc
  · rintro (h | h)
    · exact List.infix_append_of_infix_left h
    · exact List.infix_append_of_infix_right (List.infix_cons h)

/-- What stands in joined texts is from one of them or from what stands between them. -/
theorem of_mem_intercalate {c : Char} {mark : List Char} {texts : List (List Char)}
    (h : c ∈ mark.intercalate texts) : c ∈ mark ∨ ∃ cs ∈ texts, c ∈ cs := by
  induction texts with
  | nil => simp at h
  | cons t ts ih =>
    by_cases ht : ts = []
    · subst ht
      rw [List.intercalate_singleton] at h
      exact .inr ⟨t, List.mem_cons_self, h⟩
    · rw [List.intercalate_cons_of_ne_nil ht, List.mem_append, List.mem_append] at h
      rcases h with (h | h) | h
      · exact .inr ⟨t, List.mem_cons_self, h⟩
      · exact .inl h
      · obtain hm | ⟨cs, hcs, hc⟩ := ih h
        · exact .inl hm
        · exact .inr ⟨cs, List.mem_cons_of_mem t hcs, hc⟩

theorem subset_intercalate {mark cs : List Char} {texts : List (List Char)} (h : cs ∈ texts) :
    cs ⊆ mark.intercalate texts := by
  induction texts with
  | nil => simp at h
  | cons t ts ih =>
    by_cases ht : ts = []
    · subst ht
      rw [List.intercalate_singleton, List.mem_singleton.mp h]
      exact List.Subset.refl t
    · rw [List.intercalate_cons_of_ne_nil ht]
      rcases List.mem_cons.mp h with rfl | hm
      · rw [List.append_assoc]
        exact List.subset_append_left _ _
      · exact List.Subset.trans (ih hm) (List.subset_append_right _ _)

theorem not_mem_of_mem_splitOn {c : Char} {cs xs : List Char} (h : xs ∈ cs.splitOn c) : c ∉ xs := by
  induction cs generalizing xs with
  | nil =>
    rw [List.splitOn_nil, List.mem_singleton] at h
    simp [h]
  | cons d ds ih =>
    rw [List.splitOn_cons_eq_if_modifyHead] at h
    split at h
    · rcases List.mem_cons.mp h with rfl | h
      · simp
      · exact ih h
    · rename_i hd
      obtain ⟨y, ys, hy⟩ := List.exists_cons_of_ne_nil (List.splitOn_ne_nil c ds)
      rw [hy] at h ih
      rcases List.mem_cons.mp h with rfl | h
      · have hc : c ≠ d := by
          intro he
          subst he
          simp at hd
        simp [hc, ih List.mem_cons_self]
      · exact ih (List.mem_cons_of_mem _ h)

theorem trimStart_eq_self {c : Char} {cs : List Char} (h : cs.head? ≠ some c) :
    trimStart c cs = cs :=
  List.dropWhile_beq_eq_self_of_head?_ne h

theorem trimEnd_eq_self {c : Char} {cs : List Char} (h : cs.getLast? ≠ some c) :
    trimEnd c cs = cs := by
  have hr : cs.reverse.head? ≠ some c := by rwa [List.head?_reverse]
  unfold trimEnd
  rw [List.dropWhile_beq_eq_self_of_head?_ne hr, List.reverse_reverse]

theorem trim_eq_self {c : Char} {cs : List Char} (hh : cs.head? ≠ some c)
    (hl : cs.getLast? ≠ some c) : trim c cs = cs := by
  rw [trim, trimStart_eq_self hh, trimEnd_eq_self hl]

theorem head?_trimStart (c : Char) (cs : List Char) : (trimStart c cs).head? ≠ some c := by
  have h := List.head?_dropWhile_not (· == c) cs
  intro he
  rw [trimStart] at he
  simp [he] at h

theorem getLast?_trimEnd (c : Char) (cs : List Char) : (trimEnd c cs).getLast? ≠ some c := by
  rw [trimEnd, List.getLast?_reverse]
  exact head?_trimStart c cs.reverse

theorem trimEnd_prefix (c : Char) (cs : List Char) : trimEnd c cs <+: cs := by
  have h := List.reverse_prefix.mpr (List.dropWhile_suffix (l := cs.reverse) (· == c))
  rwa [List.reverse_reverse] at h

/-- Trimming the end leaves the beginning: what is left of a text begins as the text does. -/
theorem head?_trim (c : Char) (cs : List Char) : (trim c cs).head? ≠ some c := by
  intro he
  obtain ⟨rest, hr⟩ := trimEnd_prefix c (trimStart c cs)
  apply head?_trimStart c cs
  rw [← hr, List.head?_append]
  unfold trim at he
  simp [he]

theorem trim_infix (c : Char) (cs : List Char) : trim c cs <:+: cs := by
  have hp := trimEnd_prefix c (trimStart c cs)
  exact hp.isInfix.trans (List.dropWhile_suffix _).isInfix

theorem getLast?_trim (c : Char) (cs : List Char) : (trim c cs).getLast? ≠ some c :=
  getLast?_trimEnd c _

theorem exists_eq_append_trimStart (c : Char) (cs : List Char) :
    ∃ n, cs = List.replicate n c ++ trimStart c cs := by
  have ht : ∀ d ∈ cs.takeWhile (· == c), d = c := by
    intro d hd
    simpa using List.mem_takeWhile_imp hd
  refine ⟨(cs.takeWhile (· == c)).length, ?_⟩
  rw [← List.eq_replicate_of_mem ht, trimStart, List.takeWhile_append_dropWhile]

theorem exists_eq_append_trimEnd (c : Char) (cs : List Char) :
    ∃ n, cs = trimEnd c cs ++ List.replicate n c := by
  obtain ⟨n, hn⟩ := exists_eq_append_trimStart c cs.reverse
  refine ⟨n, ?_⟩
  rw [← List.reverse_inj, List.reverse_append, List.reverse_replicate, trimEnd, List.reverse_reverse]
  exact hn

theorem trimStart_replicate_append (c : Char) (n : Nat) (cs : List Char) :
    trimStart c (List.replicate n c ++ cs) = trimStart c cs :=
  List.dropWhile_append_of_pos (by simp)

theorem trimEnd_append_replicate (c : Char) (cs : List Char) (n : Nat) :
    trimEnd c (cs ++ List.replicate n c) = trimEnd c cs := by
  have ht := trimStart_replicate_append c n cs.reverse
  rw [trimStart, trimStart] at ht
  rw [trimEnd, List.reverse_append, List.reverse_replicate, ht, trimEnd]

theorem trimStart_append {c : Char} {front : List Char} (back : List Char)
    (h : trimStart c front ≠ []) : trimStart c (front ++ back) = trimStart c front ++ back := by
  rw [trimStart, List.dropWhile_append, if_neg]
  · rfl
  · simpa [trimStart] using h

theorem trimEnd_append {c : Char} (front : List Char) {back : List Char}
    (h : trimEnd c back ≠ []) : trimEnd c (front ++ back) = front ++ trimEnd c back := by
  have hr : trimStart c back.reverse ≠ [] := by
    simpa [trimEnd, trimStart] using h
  have ht := trimStart_append front.reverse hr
  rw [trimStart, trimStart, ← List.reverse_append] at ht
  rw [trimEnd, ht, List.reverse_append, List.reverse_reverse, trimEnd]

/-- Only what ends with the trimmed character can be trimmed away from its start. -/
theorem eq_nil_of_trimStart {c : Char} {cs : List Char} (h : trimStart c cs = [])
    (hl : cs.getLast? ≠ some c) : cs = [] := by
  have hc : ∀ d ∈ cs, d = c := by
    simpa [trimStart, List.dropWhile_eq_nil_iff] using h
  rw [List.eq_nil_iff_forall_not_mem]
  intro d hd
  apply hl
  rw [List.getLast?_eq_some_getLast (List.ne_nil_of_mem hd)]
  exact congrArg some (hc _ (List.getLast_mem _))

/-- It does not matter at which end the trimming begins. -/
theorem trimStart_trimEnd (c : Char) (cs : List Char) :
    trimStart c (trimEnd c cs) = trim c cs := by
  have hl := getLast?_trimEnd c cs
  obtain ⟨n, hn⟩ := exists_eq_append_trimEnd c cs
  generalize trimEnd c cs = body at hl hn
  by_cases hb : trimStart c body = []
  · have hbody := eq_nil_of_trimStart hb hl
    subst hn hbody
    simp [trim, trimStart, trimEnd]
  · obtain ⟨front, hf⟩ : trimStart c body <:+ body := List.dropWhile_suffix _
    rw [← hf, List.getLast?_append_of_ne_nil _ hb] at hl
    rw [trim, hn, trimStart_append _ hb, trimEnd_append_replicate, trimEnd_eq_self hl]

theorem trim_trimStart (c : Char) (cs : List Char) : trim c (trimStart c cs) = trim c cs := by
  rw [trim, trimStart_eq_self (head?_trimStart c cs), trim]

theorem trim_trimEnd (c : Char) (cs : List Char) : trim c (trimEnd c cs) = trim c cs := by
  rw [trim, trimStart_trimEnd, trimEnd_eq_self (getLast?_trim c cs)]

theorem exists_eq_around_trim (c : Char) (cs : List Char) :
    ∃ m n, cs = List.replicate m c ++ trim c cs ++ List.replicate n c := by
  obtain ⟨m, hm⟩ := exists_eq_append_trimStart c cs
  obtain ⟨n, hn⟩ := exists_eq_append_trimEnd c (trimStart c cs)
  refine ⟨m, n, ?_⟩
  rw [trim, List.append_assoc, ← hn, ← hm]

theorem exists_eq_replicate_of_trim {c : Char} {cs : List Char} (h : trim c cs = []) :
    ∃ n, cs = List.replicate n c := by
  obtain ⟨m, n, hn⟩ := exists_eq_around_trim c cs
  refine ⟨m + n, ?_⟩
  rw [hn, h, List.append_nil, List.replicate_append_replicate]

/-- Trimming takes away whatever was put around a text to be trimmed. -/
theorem trim_around (c : Char) (m : Nat) (cs : List Char) (n : Nat) :
    trim c (List.replicate m c ++ cs ++ List.replicate n c) = trim c cs := by
  rw [List.append_assoc, trim, trimStart_replicate_append, ← trim, ← trimStart_trimEnd,
    trimEnd_append_replicate, trimStart_trimEnd]

/-- Between two texts of which something is left nothing is trimmed. -/
theorem trim_between {c : Char} {front back : List Char} (middle : List Char)
    (hf : trim c front ≠ []) (hb : trim c back ≠ []) :
    trim c (trimEnd c front ++ middle ++ trimStart c back) = trim c front ++ middle ++ trim c back := by
  rw [← trimStart_trimEnd] at hf
  rw [trim, List.append_assoc, trimStart_append _ hf, trimStart_trimEnd, trimEnd_append, trimEnd_append]
  · rw [← trim, List.append_assoc]
  · exact hb
  · rw [trimEnd_append _ hb]
    exact List.append_ne_nil_of_right_ne_nil _ hb

end UrlRouter.Text
