import UrlRouter.Proofs.Text.Cut
import UrlRouter.Url

namespace UrlRouter.Url.Path

/-- The lists of texts which are the segments of some path. An empty segment has a slash on each of
its sides, so it is neither the first nor the last. -/
structure Canonical (xs : List String) : Prop where
  slashless : ∀ x ∈ xs, '/' ∉ x.toList
  head : xs.head? ≠ some ""
  last : xs.getLast? ≠ some ""

def slashes (n : Nat) : String :=
  .ofList (List.replicate n '/')

@[simp] theorem toList_slashes (n : Nat) : (slashes n).toList = List.replicate n '/' :=
  String.toList_ofList

@[simp] theorem join_nil : join [] = "" := String.intercalate_nil

@[simp] theorem join_singleton (x : String) : join [x] = x := String.intercalate_singleton

theorem join_cons {xs : List String} (x : String) (h : xs ≠ []) :
    join (x :: xs) = x ++ "/" ++ join xs :=
  String.intercalate_cons_of_ne_nil h

theorem join_append {xs ys : List String} (hx : xs ≠ []) (hy : ys ≠ []) :
    join (xs ++ ys) = join xs ++ "/" ++ join ys :=
  String.intercalate_append_of_ne_nil hx hy

theorem toList_join (xs : List String) :
    (join xs).toList = ['/'].intercalate (xs.map String.toList) := by
  simp [join]

theorem prefix_join (x : String) (xs : List String) : x.toList <+: (join (x :: xs)).toList := by
  cases xs with
  | nil => simp
  | cons y ys =>
    rw [join_cons x (List.cons_ne_nil y ys), String.append_assoc, String.toList_append]
    exact List.prefix_append _ _

theorem suffix_join (xs : List String) (x : String) : x.toList <:+ (join (xs ++ [x])).toList := by
  by_cases h : xs = []
  · simp [h]
  · rw [join_append h (List.cons_ne_nil x []), String.toList_append, join_singleton]
    exact List.suffix_append _ _

theorem join_eq_empty_iff {xs : List String} : join xs = "" ↔ xs = [] ∨ xs = [""] := by
  match xs with
  | [] => simp
  | [x] => simp
  | x :: y :: ys => simp [join_cons x (List.cons_ne_nil y ys)]

theorem mem_join {c : Char} (hc : c ≠ '/') {xs : List String} (h : c ∈ (join xs).toList) :
    ∃ x ∈ xs, c ∈ x.toList := by
  rw [toList_join] at h
  obtain hm | ⟨cs, hcs, hm⟩ := Text.of_mem_intercalate h
  · exact absurd (List.mem_singleton.mp hm) hc
  · obtain ⟨x, hx, rfl⟩ := List.mem_map.mp hcs
    exact ⟨x, hx, hm⟩

theorem subset_join {xs : List String} {x : String} (h : x ∈ xs) :
    x.toList ⊆ (join xs).toList := by
  rw [toList_join]
  exact Text.subset_intercalate (List.mem_map.mpr ⟨x, h, rfl⟩)

/-- What is joined from segments begins with no slash, so there is nothing to trim in front. -/
theorem head?_join {xs : List String} (hs : ∀ x ∈ xs, '/' ∉ x.toList) (hh : xs.head? ≠ some "") :
    (join xs).toList.head? ≠ some '/' := by
  cases xs with
  | nil => simp
  | cons x xs =>
    obtain ⟨rest, hr⟩ := prefix_join x xs
    have hx : x.toList ≠ [] := by
      intro he
      exact hh (by simp [String.toList_eq_nil_iff.mp he])
    obtain ⟨c, cs, hc⟩ := List.exists_cons_of_ne_nil hx
    intro h
    rw [← hr, hc] at h
    have hslash : c = '/' := by simpa using h
    exact hs x List.mem_cons_self (by simp [hc, hslash])

theorem getLast?_join {xs : List String} (hs : ∀ x ∈ xs, '/' ∉ x.toList)
    (hl : xs.getLast? ≠ some "") : (join xs).toList.getLast? ≠ some '/' := by
  rcases List.eq_nil_or_concat xs with rfl | ⟨front, x, rfl⟩
  · simp
  · rw [List.concat_eq_append] at hs hl ⊢
    obtain ⟨rest, hr⟩ := suffix_join front x
    have hx : x.toList ≠ [] := by
      intro he
      exact hl (by simp [String.toList_eq_nil_iff.mp he])
    intro h
    rw [← hr, List.getLast?_append_of_ne_nil _ hx] at h
    exact hs x (by simp) (List.mem_of_getLast? h)

/-- A first segment which is empty leaves a slash in front, unless it is all there is. -/
theorem head?_of_join {xs : List String} (hx : xs ≠ [""])
    (h : (join xs).toList.head? ≠ some '/') : xs.head? ≠ some "" := by
  intro he
  obtain ⟨ys, rfl⟩ := List.head?_eq_some_iff.mp he
  have hy : ys ≠ [] := by
    intro he
    subst he
    exact hx rfl
  rw [join_cons "" hy] at h
  simp at h

theorem getLast?_of_join {xs : List String} (hx : xs ≠ [""])
    (h : (join xs).toList.getLast? ≠ some '/') : xs.getLast? ≠ some "" := by
  intro he
  obtain ⟨ys, rfl⟩ := List.getLast?_eq_some_iff.mp he
  have hy : ys ≠ [] := by
    intro he
    subst he
    exact hx rfl
  rw [join_append hy (List.cons_ne_nil "" [])] at h
  simp at h

theorem segments_of_trim_eq_nil {path : String} (h : Text.trim '/' path.toList = []) :
    segments path = [] := by
  simp only [segments, h]

theorem segments_of_trim_ne_nil {path : String} (h : Text.trim '/' path.toList ≠ []) :
    segments path = ((Text.trim '/' path.toList).splitOn '/').map .ofList := by
  obtain ⟨c, cs, hc⟩ := List.exists_cons_of_ne_nil h
  simp only [segments, hc]

/-- Splitting undoes joining, empty segments included. -/
theorem segments_join {xs : List String} (h : Canonical xs) : segments (join xs) = xs := by
  have ht := Text.trim_eq_self (head?_join h.slashless h.head) (getLast?_join h.slashless h.last)
  by_cases hx : xs = []
  · subst hx
    exact segments_of_trim_eq_nil (by rw [ht]; simp)
  · have hn : Text.trim '/' (join xs).toList ≠ [] := by
      rw [ht, ne_eq, String.toList_eq_nil_iff, join_eq_empty_iff, not_or]
      refine ⟨hx, ?_⟩
      intro he
      subst he
      exact h.head rfl
    have hs : ∀ cs ∈ xs.map String.toList, '/' ∉ cs := by
      intro cs hcs
      obtain ⟨x, hm, rfl⟩ := List.mem_map.mp hcs
      exact h.slashless x hm
    rw [segments_of_trim_ne_nil hn, ht, toList_join,
      List.splitOn_intercalate '/' hs (by simpa using hx), List.map_map]
    simp [Function.comp_def]

/-- Joining undoes splitting but for the slashes at the two ends. -/
theorem toList_join_segments (path : String) :
    (join (segments path)).toList = Text.trim '/' path.toList := by
  by_cases h : Text.trim '/' path.toList = []
  · simp [segments_of_trim_eq_nil h, h]
  · rw [segments_of_trim_ne_nil h, toList_join, List.map_map]
    simp [Function.comp_def]

theorem slashless_segments {path x : String} (h : x ∈ segments path) : '/' ∉ x.toList := by
  by_cases ht : Text.trim '/' path.toList = []
  · simp [segments_of_trim_eq_nil ht] at h
  · rw [segments_of_trim_ne_nil ht] at h
    obtain ⟨cs, hcs, rfl⟩ := List.mem_map.mp h
    rw [String.toList_ofList]
    exact Text.not_mem_of_mem_splitOn hcs

theorem subset_of_mem_segments {path x : String} (h : x ∈ segments path) :
    x.toList ⊆ path.toList := by
  have hj := subset_join h
  rw [toList_join_segments] at hj
  exact List.Subset.trans hj (Text.trim_infix '/' path.toList).subset

theorem segments_ne_singleton_empty (path : String) : segments path ≠ [""] := by
  intro h
  have he := toList_join_segments path
  rw [h] at he
  rw [segments_of_trim_eq_nil (by simpa using he.symm)] at h
  cases h

theorem canonical_segments (path : String) : Canonical (segments path) where
  slashless := fun _ => slashless_segments
  head := by
    apply head?_of_join (segments_ne_singleton_empty path)
    rw [toList_join_segments]
    exact Text.head?_trim '/' path.toList
  last := by
    apply getLast?_of_join (segments_ne_singleton_empty path)
    rw [toList_join_segments]
    exact Text.getLast?_trim '/' path.toList

theorem segments_eq_nil_iff {path : String} :
    segments path = [] ↔ Text.trim '/' path.toList = [] := by
  constructor
  · intro h
    rw [← toList_join_segments, h, join_nil, String.toList_empty]
  · exact segments_of_trim_eq_nil

/-- Whatever its ends, a path has the segments from which its middle is joined. -/
theorem segments_of_trim_eq {path : String} {xs : List String} (hx : Canonical xs)
    (h : Text.trim '/' path.toList = (join xs).toList) : segments path = xs := by
  have hj := segments_join hx
  have ht := toList_join_segments (join xs)
  rw [hj] at ht
  by_cases hn : Text.trim '/' path.toList = []
  · rw [segments_of_trim_eq_nil hn, ← hj, eq_comm, segments_eq_nil_iff, ← ht, ← h, hn]
  · have hjn : Text.trim '/' (join xs).toList ≠ [] := by rwa [← ht, ← h]
    rw [segments_of_trim_ne_nil hn, h, ht, ← segments_of_trim_ne_nil hjn, hj]

/-- Empty segments may stand between others. -/
theorem Canonical.between {xs ys zs : List String} (hx : Canonical xs) (hz : Canonical zs)
    (hxn : xs ≠ []) (hzn : zs ≠ []) (hy : ∀ y ∈ ys, '/' ∉ y.toList) :
    Canonical (xs ++ ys ++ zs) where
  slashless := by
    intro x hm
    rcases List.mem_append.mp hm with hm | hm
    · rcases List.mem_append.mp hm with hm | hm
      · exact hx.slashless x hm
      · exact hy x hm
    · exact hz.slashless x hm
  head := by
    rw [List.append_assoc, List.head?_append_of_ne_nil _ hxn]
    exact hx.head
  last := by
    rw [List.getLast?_append_of_ne_nil _ hzn]
    exact hz.last

theorem segments_trimStart (path : String) :
    segments (.ofList (Text.trimStart '/' path.toList)) = segments path := by
  refine segments_of_trim_eq (canonical_segments path) ?_
  rw [String.toList_ofList, toList_join_segments, Text.trim_trimStart]

theorem segments_trimEnd (path : String) :
    segments (.ofList (Text.trimEnd '/' path.toList)) = segments path := by
  refine segments_of_trim_eq (canonical_segments path) ?_
  rw [String.toList_ofList, toList_join_segments, Text.trim_trimEnd]

theorem toList_join_replicate_empty (n : Nat) {xs : List String} (h : xs ≠ []) :
    (join (List.replicate n "" ++ xs)).toList = List.replicate n '/' ++ (join xs).toList := by
  induction n with
  | zero => rfl
  | succ n ih =>
    rw [List.replicate_succ, List.cons_append, join_cons "" (List.append_ne_nil_of_right_ne_nil _ h)]
    simp [ih, List.replicate_succ]

/-- Of the slashes in which two paths meet one separates them, and each further slash makes one more
segment, which is empty. -/
theorem segments_meet (n : Nat) {front back : String} (hf : segments front ≠ [])
    (hb : segments back ≠ []) :
    segments (.ofList (Text.trimEnd '/' front.toList) ++ slashes (n + 1) ++
      .ofList (Text.trimStart '/' back.toList)) =
        segments front ++ List.replicate n "" ++ segments back := by
  have hy : ∀ y ∈ List.replicate n "", '/' ∉ y.toList := by
    intro y hy
    simp [List.eq_of_mem_replicate hy]
  refine segments_of_trim_eq ((canonical_segments front).between (canonical_segments back) hf hb hy) ?_
  rw [List.append_assoc, join_append hf (List.append_ne_nil_of_right_ne_nil _ hb)]
  simp only [String.toList_append, String.toList_ofList, toList_slashes,
    toList_join_replicate_empty n hb, toList_join_segments]
  rw [Text.trim_between _ (mt segments_of_trim_eq_nil hf) (mt segments_of_trim_eq_nil hb)]
  simp [List.replicate_succ]

/-- Slashes around a path add no segment. -/
theorem segments_around (m : Nat) (path : String) (n : Nat) :
    segments (slashes m ++ path ++ slashes n) = segments path := by
  refine segments_of_trim_eq (canonical_segments path) ?_
  simp only [toList_join_segments, String.toList_append, toList_slashes]
  exact Text.trim_around '/' m path.toList n

theorem segments_append_slash (path : String) : segments (path ++ "/") = segments path := by
  have h := segments_around 0 path 1
  rwa [slashes, slashes, List.replicate_zero, String.ofList_nil, String.empty_append] at h

/-- What a path capture may have taken: the segments of a text in which no slash is trimmed. -/
def pieces (text : String) : List String :=
  if text = "" then [] else (text.toList.splitOn '/').map .ofList

theorem pieces_empty : pieces "" = [] := rfl

theorem pieces_ne_nil {text : String} (h : text ≠ "") : pieces text ≠ [] := by
  simp [pieces, h, List.splitOn_ne_nil]

@[simp] theorem join_pieces (text : String) : join (pieces text) = text := by
  by_cases h : text = ""
  · simp [h, pieces_empty]
  · rw [← String.toList_inj, toList_join]
    simp [pieces, h, Function.comp_def]

theorem slashless_pieces {text x : String} (h : x ∈ pieces text) : '/' ∉ x.toList := by
  unfold pieces at h
  split at h
  · simp at h
  · obtain ⟨cs, hcs, rfl⟩ := List.mem_map.mp h
    rw [String.toList_ofList]
    exact Text.not_mem_of_mem_splitOn hcs

theorem pieces_ne_singleton_empty (text : String) : pieces text ≠ [""] := by
  intro h
  have ht := join_pieces text
  rw [h, join_singleton] at ht
  rw [← ht, pieces_empty] at h
  cases h

/-- A text may stand for its pieces wherever it is joined with others. If it has none, all it leaves
is a slash at the end. -/
theorem segments_join_concat (xs : List String) (text : String) :
    segments (join (xs ++ [text])) = segments (join (xs ++ pieces text)) := by
  by_cases hx : xs = []
  · simp [hx]
  · by_cases ht : text = ""
    · rw [ht, pieces_empty, join_append hx (List.cons_ne_nil "" []), join_singleton,
        String.append_empty, segments_append_slash, List.append_nil]
    · rw [join_append hx (List.cons_ne_nil text []), join_append hx (pieces_ne_nil ht),
        join_singleton, join_pieces]

end UrlRouter.Url.Path
