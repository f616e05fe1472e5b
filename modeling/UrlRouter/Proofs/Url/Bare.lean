import UrlRouter.Proofs.Url.Scheme

namespace UrlRouter.Url.Scheme

/-- A scheme from which nothing is left to be taken away. -/
structure Plain (s : String) : Prop where
  unmarked : ¬ Marked s
  last : s.toList.getLast? ≠ some ':'

def colons (n : Nat) : String :=
  .ofList (List.replicate n ':')

@[simp] theorem toList_colons (n : Nat) : (colons n).toList = List.replicate n ':' :=
  String.toList_ofList

/-- Users may write colons behind a scheme, and behind these a mark and any text. -/
inductive Written (scheme : String) : String → Prop where
  | alone (n : Nat) : Written scheme (scheme ++ colons n)
  | marked (n : Nat) (rest : String) : Written scheme (scheme ++ colons n ++ "://" ++ rest)

variable {scheme raw : String}

/-- A mark ends with slashes, so colons behind a text do not make one. -/
theorem not_marked_append_colons (h : ¬ Marked scheme) (n : Nat) :
    ¬ Marked (scheme ++ colons n) := by
  cases n with
  | zero => simpa [Marked] using h
  | succ n =>
    rw [Marked, String.toList_append, toList_colons, List.replicate_succ]
    intro hm
    rcases infix_append_colon hm with hm | hm
    · exact h hm
    · have hs : '/' ∈ ':' :: List.replicate n ':' := hm.subset (by simp [mark])
      simp at hs

theorem exists_eq_bare_colons (h : ¬ Marked scheme) : ∃ n, scheme = bare scheme ++ colons n := by
  obtain ⟨n, hn⟩ := Text.exists_eq_append_trimEnd ':' scheme.toList
  refine ⟨n, ?_⟩
  rw [← String.toList_inj, bare_of_not_marked h]
  simpa using hn

theorem plain_bare (raw : String) : Plain (bare raw) :=
  ⟨not_marked_bare raw, getLast?_bare raw⟩

theorem written_bare (raw : String) : Written (bare raw) raw := by
  by_cases hm : Marked raw
  · obtain ⟨front, rest, rfl, hf⟩ := hm.parts
    obtain ⟨n, hn⟩ := exists_eq_bare_colons hf
    have hw : Written (bare front) (bare front ++ colons n ++ "://" ++ rest) := .marked n rest
    rwa [← hn, ← bare_append rest hf] at hw
  · obtain ⟨n, hn⟩ := exists_eq_bare_colons hm
    have hw : Written (bare raw) (bare raw ++ colons n) := .alone n
    rwa [← hn] at hw

theorem Plain.bare_append_colons (h : Plain scheme) (n : Nat) :
    bare (scheme ++ colons n) = scheme := by
  rw [bare_of_not_marked (not_marked_append_colons h.unmarked n), String.toList_append,
    toList_colons, Text.trimEnd_append_replicate, Text.trimEnd_eq_self h.last, String.ofList_toList]

theorem Written.bare_eq (hw : Written scheme raw) (h : Plain scheme) : bare raw = scheme := by
  cases hw with
  | alone n => exact h.bare_append_colons n
  | marked n rest =>
    rw [bare_append rest (not_marked_append_colons h.unmarked n)]
    exact h.bare_append_colons n

theorem Written.append_mark (h : Written scheme raw) (rest : String) :
    Written scheme (raw ++ "://" ++ rest) := by
  cases h with
  | alone n => exact .marked n rest
  | marked n back =>
    have hw : Written scheme (scheme ++ colons n ++ "://" ++ (back ++ "://" ++ rest)) :=
      .marked n _
    simpa only [String.append_assoc] using hw

/-- Every text is written for one plain scheme and for no other. -/
theorem bare_eq_iff : bare raw = scheme ↔ Plain scheme ∧ Written scheme raw := by
  constructor
  · rintro rfl
    exact ⟨plain_bare raw, written_bare raw⟩
  · rintro ⟨h, hw⟩
    exact hw.bare_eq h

theorem bare_eq_self_iff : bare raw = raw ↔ Plain raw := by
  constructor
  · intro h
    rw [← h]
    exact plain_bare raw
  · intro h
    exact bare_eq_self h.unmarked h.last

/-- A text is reduced to the one plain scheme it is written for. So plain schemes, and no other
texts, are left as they are, and a mark put behind a text, with anything after it, never changes
what the text is reduced to, whatever colons, slashes and further marks the text holds. -/
theorem bare_canonical (raw : String) :
    Plain (bare raw) ∧ Written (bare raw) raw ∧
    (∀ scheme, bare raw = scheme ↔ Plain scheme ∧ Written scheme raw) ∧
    bare (bare raw) = bare raw ∧ (bare raw = raw ↔ Plain raw) ∧
    ∀ rest, bare (raw ++ "://" ++ rest) = bare raw := by
  have hp := plain_bare raw
  have hw := written_bare raw
  refine ⟨hp, hw, fun scheme => bare_eq_iff, bare_eq_self_iff.mpr hp, bare_eq_self_iff, ?_⟩
  intro rest
  exact (hw.append_mark rest).bare_eq hp

example : bare "app:/:://a://b" = "app:/" := by decide

end UrlRouter.Url.Scheme
