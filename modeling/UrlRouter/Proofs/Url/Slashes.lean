import UrlRouter.Proofs.Url.Path

namespace UrlRouter.Url.Path

/-- What is left of a path when all slashes at its two ends are taken away. -/
structure Stripped (path middle : String) : Prop where
  around : ∃ m n, path = slashes m ++ middle ++ slashes n
  head : middle.toList.head? ≠ some '/'
  last : middle.toList.getLast? ≠ some '/'

variable {path middle : String}

theorem stripped_join_segments (path : String) : Stripped path (join (segments path)) := by
  refine ⟨?_, ?_, ?_⟩
  · obtain ⟨m, n, h⟩ := Text.exists_eq_around_trim '/' path.toList
    refine ⟨m, n, ?_⟩
    rw [← String.toList_inj]
    simpa [toList_join_segments] using h
  · rw [toList_join_segments]
    exact Text.head?_trim '/' path.toList
  · rw [toList_join_segments]
    exact Text.getLast?_trim '/' path.toList

theorem Stripped.segments_eq (h : Stripped path middle) : segments path = segments middle := by
  obtain ⟨m, n, rfl⟩ := h.around
  exact segments_around m middle n

/-- There is one way only to take the slashes away. -/
theorem Stripped.eq_join_segments (h : Stripped path middle) : middle = join (segments path) := by
  rw [← String.toList_inj, h.segments_eq, toList_join_segments, Text.trim_eq_self h.head h.last]

theorem exists_eq_slashes (h : segments path = []) : ∃ n, path = slashes n := by
  obtain ⟨n, hn⟩ := Text.exists_eq_replicate_of_trim (segments_eq_nil_iff.mp h)
  refine ⟨n, ?_⟩
  rw [← String.toList_inj, hn, toList_slashes]

theorem segments_ne_nil_of_head? (hn : path ≠ "") (hh : path.toList.head? ≠ some '/') :
    segments path ≠ [] := by
  intro h
  obtain ⟨n, rfl⟩ := exists_eq_slashes h
  cases n with
  | zero => exact hn rfl
  | succ n => simp [List.replicate_succ] at hh

theorem segments_ne_nil_of_getLast? (hn : path ≠ "") (hl : path.toList.getLast? ≠ some '/') :
    segments path ≠ [] := by
  intro h
  obtain ⟨n, rfl⟩ := exists_eq_slashes h
  cases n with
  | zero => exact hn rfl
  | succ n => simp [List.replicate_succ'] at hl

/-- Splitting a path and joining segments undo each other, the one up to the slashes at the two ends of
the path. Those never count, and of the slashes inside every one but the first makes a segment. -/
theorem segments_join_inverse :
    (∀ path, Canonical (segments path) ∧
      ∀ middle, Stripped path middle ↔ join (segments path) = middle) ∧
    (∀ xs, Canonical xs → segments (join xs) = xs) ∧
    (∀ path m n, segments (slashes m ++ path ++ slashes n) = segments path) ∧
    ∀ front back n, front ≠ "" → front.toList.getLast? ≠ some '/' →
      back ≠ "" → back.toList.head? ≠ some '/' →
        segments (front ++ slashes (n + 1) ++ back) =
          segments front ++ List.replicate n "" ++ segments back := by
  refine ⟨?_, fun xs hx => segments_join hx, fun path m n => segments_around m path n, ?_⟩
  · intro path
    refine ⟨canonical_segments path, ?_⟩
    intro middle
    constructor
    · intro h
      exact h.eq_join_segments.symm
    · rintro rfl
      exact stripped_join_segments path
  · intro front back n hf hl hb hh
    have hs := segments_meet n (segments_ne_nil_of_getLast? hf hl) (segments_ne_nil_of_head? hb hh)
    rwa [Text.trimEnd_eq_self hl, Text.trimStart_eq_self hh, String.ofList_toList,
      String.ofList_toList] at hs

/-- Slashes at both ends of a path and three of them in it. -/
theorem segments_join_inverse_inside :
    ∃ xs, xs = ["user", "", "", "1"] ∧ Canonical xs ∧ segments (join xs) = xs ∧
      Stripped "//user///1/" "user///1" ∧ join (segments "//user///1/") = "user///1" ∧
      "user" ≠ "" ∧ "user".toList.getLast? ≠ some '/' ∧ "1" ≠ "" ∧ "1".toList.head? ≠ some '/' ∧
      segments ("user" ++ slashes 3 ++ "1") = segments "user" ++ ["", ""] ++ segments "1" := by
  obtain ⟨hpath, hjoin, -, hinside⟩ := segments_join_inverse
  obtain ⟨xs, hxs⟩ : ∃ xs, xs = ["user", "", "", "1"] := ⟨_, rfl⟩
  have hc : Canonical xs := by
    subst hxs
    exact ⟨by decide, by decide, by decide⟩
  have hs : Stripped "//user///1/" "user///1" := ⟨⟨2, 1, by decide⟩, by decide, by decide⟩
  have hu : "user" ≠ "" ∧ "user".toList.getLast? ≠ some '/' := by decide
  have hn : "1" ≠ "" ∧ "1".toList.head? ≠ some '/' := by decide
  exact ⟨xs, hxs, hc, hjoin xs hc, hs, ((hpath _).2 _).mp hs, hu.1, hu.2, hn.1, hn.2,
    hinside "user" "1" 2 hu.1 hu.2 hn.1 hn.2⟩

end UrlRouter.Url.Path
