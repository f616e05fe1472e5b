import UrlRouter.Proofs.Url.Path
import UrlRouter.Proofs.Url.Scheme
import UrlRouter.Url

namespace UrlRouter.Url

/-- The end of a url: a query behind a question mark, and behind a hash a fragment. -/
def tail (query fragment : Option String) : String :=
  query.elim "" ("?" ++ ·) ++ fragment.elim "" ("#" ++ ·)

theorem splitAt_append {c : Char} {before : List Char} (after : List Char) (h : c ∉ before) :
    splitAt c (before ++ c :: after) = (before, some after) := by
  simp only [splitAt, Text.cut?_char after h]

theorem splitAt_of_not_mem {c : Char} {cs : List Char} (h : c ∉ cs) :
    splitAt c cs = (cs, none) := by
  simp only [splitAt, Text.cut?_char_none h]

/-- The query may hold question marks and the fragment anything: the first hash ends the query, and
the first question mark in front of it the path. -/
theorem splitAt_fragment {path : String} {query : Option String} (fragment : Option String)
    (hp : '#' ∉ path.toList) (hq : ∀ q ∈ query, '#' ∉ q.toList) :
    splitAt '#' (path ++ tail query fragment).toList =
      ((path ++ tail query none).toList, fragment.map String.toList) := by
  have hb : '#' ∉ (path ++ tail query none).toList := by
    cases query with
    | none => simpa [tail] using hp
    | some q => simpa [tail, hp] using hq q rfl
  cases fragment with
  | none =>
    rw [splitAt_of_not_mem hb]
    rfl
  | some f =>
    have he : (path ++ tail query (some f)).toList =
        (path ++ tail query none).toList ++ '#' :: f.toList := by
      simp [tail]
    rw [he, splitAt_append _ hb]
    rfl

theorem splitAt_query {path : String} (query : Option String) (hp : '?' ∉ path.toList) :
    splitAt '?' (path ++ tail query none).toList = (path.toList, query.map String.toList) := by
  cases query with
  | none =>
    have he : (path ++ tail none none).toList = path.toList := by simp [tail]
    rw [he, splitAt_of_not_mem hp]
    rfl
  | some q =>
    have he : (path ++ tail (some q) none).toList = path.toList ++ '?' :: q.toList := by
      simp [tail]
    rw [he, splitAt_append _ hp]
    rfl

/-- Behind the scheme a url is a path, a query and a fragment in this order, and the address has of
them what was put there. -/
theorem Address.ofUrl_of_cut {url path : String} {scheme query fragment : Option String}
    (defaultScheme : String) (h : Scheme.cut url = (scheme, path ++ tail query fragment))
    (hm : '?' ∉ path.toList) (hp : '#' ∉ path.toList) (hq : ∀ q ∈ query, '#' ∉ q.toList) :
    Address.ofUrl url defaultScheme =
      { scheme := scheme.getD defaultScheme
        segments := Path.segments path
        query := (query.map Query.mapping).getD .empty } := by
  simp only [Address.ofUrl, h, splitAt_fragment fragment hp hq, splitAt_query query hm,
    String.ofList_toList, Option.map_map]
  cases query <;> simp

/-- A url without a mark has the default scheme. -/
theorem Address.ofUrl_unmarked {path : String} {query fragment : Option String}
    (defaultScheme : String) (hn : ¬ Scheme.Marked (path ++ tail query fragment))
    (hm : '?' ∉ path.toList) (hp : '#' ∉ path.toList) (hq : ∀ q ∈ query, '#' ∉ q.toList) :
    Address.ofUrl (path ++ tail query fragment) defaultScheme =
      { scheme := defaultScheme
        segments := Path.segments path
        query := (query.map Query.mapping).getD .empty } :=
  Address.ofUrl_of_cut defaultScheme (Scheme.cut_of_not_marked hn) hm hp hq

/-- Once a url names its scheme, further marks are text like any other. -/
theorem Address.ofUrl_absolute {scheme path : String} {query fragment : Option String}
    (defaultScheme : String) (hn : ¬ Scheme.Marked scheme)
    (hm : '?' ∉ path.toList) (hp : '#' ∉ path.toList) (hq : ∀ q ∈ query, '#' ∉ q.toList) :
    Address.ofUrl (scheme ++ "://" ++ (path ++ tail query fragment)) defaultScheme =
      { scheme := scheme
        segments := Path.segments path
        query := (query.map Query.mapping).getD .empty } :=
  Address.ofUrl_of_cut defaultScheme (Scheme.cut_append _ hn) hm hp hq

/-- Every text is cut at the first place of a character, or holds it nowhere. -/
theorem exists_eq_append (c : Char) (s : String) :
    ∃ (front : String) (back : Option String),
      s = front ++ back.elim "" (.singleton c ++ ·) ∧ c ∉ front.toList := by
  by_cases h : c ∈ s.toList
  · obtain ⟨front, back, hs, hn⟩ := List.eq_append_cons_of_mem h
    refine ⟨.ofList front, some (.ofList back), ?_, by simpa using hn⟩
    simp [← String.toList_inj, hs]
  · exact ⟨s, none, by simp, h⟩

/-- A hash in the query begins the fragment, so a tail can always be told with a query without one. -/
theorem exists_tail_eq (query fragment : Option String) :
    ∃ query' fragment', tail query fragment = tail query' fragment' ∧
      ∀ q ∈ query', '#' ∉ q.toList := by
  cases query with
  | none => exact ⟨none, fragment, rfl, by simp⟩
  | some q =>
    obtain ⟨front, back, rfl, hn⟩ := exists_eq_append '#' q
    cases back with
    | none => exact ⟨some front, fragment, by simp, by simpa using hn⟩
    | some b =>
      refine ⟨some front, some (b ++ tail none fragment), ?_, by simpa using hn⟩
      simp [← String.toList_inj, tail]

/-- No tail has a say in the scheme and the segments of a url which names its scheme. -/
theorem Address.ofUrl_tail {scheme path : String} (defaultScheme : String)
    (hn : ¬ Scheme.Marked scheme) (hm : '?' ∉ path.toList) (hp : '#' ∉ path.toList)
    (query fragment : Option String) :
    (Address.ofUrl (scheme ++ "://" ++ (path ++ tail query fragment)) defaultScheme).scheme = scheme ∧
      (Address.ofUrl (scheme ++ "://" ++ (path ++ tail query fragment)) defaultScheme).segments =
        Path.segments path := by
  obtain ⟨query', fragment', he, hq⟩ := exists_tail_eq query fragment
  rw [he, Address.ofUrl_absolute defaultScheme hn hm hp hq]
  exact ⟨rfl, rfl⟩

theorem Address.ofUrl_path {scheme path : String} (defaultScheme : String)
    (hn : ¬ Scheme.Marked scheme) (hm : '?' ∉ path.toList) (hp : '#' ∉ path.toList) :
    Address.ofUrl (scheme ++ "://" ++ path) defaultScheme =
      { scheme := scheme, segments := Path.segments path, query := .empty } := by
  have hpath : path = path ++ tail none none := by simp [tail]
  conv_lhs => rw [hpath]
  exact Address.ofUrl_absolute defaultScheme hn hm hp (by simp)

theorem Address.canonical_segments (url defaultScheme : String) :
    Path.Canonical (Address.ofUrl url defaultScheme).segments := by
  simp only [Address.ofUrl]
  exact Path.canonical_segments _

/-- The default scheme is of no account to a url which names its scheme. -/
theorem Address.ofUrl_of_marked {url : String} (h : Scheme.Marked url) (s t : String) :
    Address.ofUrl url s = Address.ofUrl url t := by
  obtain ⟨scheme, rest, rfl, hs⟩ := h.parts
  simp only [Address.ofUrl, Scheme.cut_append rest hs, Option.getD_some]

theorem marked_query_iff {path query : String} :
    Scheme.Marked (path ++ "?" ++ query) ↔ Scheme.Marked path ∨ Scheme.Marked query :=
  Scheme.marked_append_iff (c := '?') (by decide)

theorem marked_fragment_iff {front fragment : String} :
    Scheme.Marked (front ++ "#" ++ fragment) ↔ Scheme.Marked front ∨ Scheme.Marked fragment :=
  Scheme.marked_append_iff (c := '#') (by decide)

/-- A url without a scheme keeps the default as long as its query holds no mark. A query which holds
one, such as a url passed on as a parameter, is read as the end of a scheme and the begin of a path. -/
theorem Address.ofUrl_relative {path query fragment : String} (ht : ¬ Scheme.Marked path)
    (hm : '?' ∉ path.toList) (hp : '#' ∉ path.toList) (hq : '#' ∉ query.toList)
    (hf : ¬ Scheme.Marked fragment) :
    ((∀ d, Address.ofUrl (path ++ "?" ++ query ++ "#" ++ fragment) d =
        { scheme := d, segments := Path.segments path, query := Query.mapping query }) ↔
      ¬ Scheme.Marked query) ∧
    (∀ front back d, query = front ++ "://" ++ back → ¬ Scheme.Marked front →
      (Address.ofUrl (path ++ "?" ++ query ++ "#" ++ fragment) d).scheme =
        path ++ "?" ++ front) ∧
    ∀ d, Address.ofUrl (path ++ "#" ++ fragment) d = Address.ofUrl path d := by
  have he : path ++ "?" ++ query ++ "#" ++ fragment =
      path ++ tail (some query) (some fragment) := by
    simp [tail, String.append_assoc]
  refine ⟨⟨?_, ?_⟩, ?_, ?_⟩
  · intro h hn
    have hu : Scheme.Marked (path ++ "?" ++ query ++ "#" ++ fragment) :=
      marked_fragment_iff.mpr (.inl (marked_query_iff.mpr (.inr hn)))
    have hd := Address.ofUrl_of_marked hu "" "a"
    rw [h, h] at hd
    exact absurd (congrArg Address.scheme hd) (by simp)
  · intro hn d
    have hu : ¬ Scheme.Marked (path ++ "?" ++ query ++ "#" ++ fragment) := by
      rw [marked_fragment_iff, marked_query_iff]
      simp [ht, hn, hf]
    rw [he] at hu ⊢
    exact Address.ofUrl_unmarked d hu hm hp (by simpa using hq)
  · rintro front back d rfl hn
    have hs : ¬ Scheme.Marked (path ++ "?" ++ front) := by
      rw [marked_query_iff]
      simp [ht, hn]
    have hc := Scheme.cut_append (back ++ "#" ++ fragment) hs
    simp only [String.append_assoc] at hc ⊢
    simp only [Address.ofUrl, hc, Option.getD_some]
  · intro d
    have hpath : path = path ++ tail none none := by simp [tail]
    have hfragment : path ++ "#" ++ fragment = path ++ tail none (some fragment) := by
      simp [tail, String.append_assoc]
    have hu : ¬ Scheme.Marked (path ++ "#" ++ fragment) := by
      rw [marked_fragment_iff]
      simp [ht, hf]
    have hn := ht
    rw [hpath] at hn
    rw [hfragment] at hu ⊢
    rw [Address.ofUrl_unmarked d hu hm hp (by simp)]
    conv_rhs => rw [hpath]
    rw [Address.ofUrl_unmarked d hn hm hp (by simp)]

/-- Colons and slashes which do not make up the mark, and question marks behind the first one. -/
theorem Address.ofUrl_relative_post :
    (¬ Scheme.Marked "/post//1:/" ∧ '?' ∉ "/post//1:/".toList ∧ '#' ∉ "/post//1:/".toList ∧
      '#' ∉ "at=b:/c?".toList ∧ ¬ Scheme.Marked "?d#e") ∧
    (∀ d, Address.ofUrl ("/post//1:/" ++ "?" ++ "at=b:/c?" ++ "#" ++ "?d#e") d =
      { scheme := d, segments := ["post", "", "1:"], query := Query.mapping "at=b:/c?" }) ∧
    ∀ d, Address.ofUrl ("/post//1:/" ++ "#" ++ "?d#e") d = Address.ofUrl "/post//1:/" d := by
  have ht : ¬ Scheme.Marked "/post//1:/" := by decide
  have hm : '?' ∉ "/post//1:/".toList := by decide
  have hp : '#' ∉ "/post//1:/".toList := by decide
  have hq : '#' ∉ "at=b:/c?".toList := by decide
  have hf : ¬ Scheme.Marked "?d#e" := by decide
  have h := Address.ofUrl_relative ht hm hp hq hf
  have hs : Path.segments "/post//1:/" = ["post", "", "1:"] := by cbv
  rw [← hs]
  exact ⟨⟨ht, hm, hp, hq, hf⟩, h.1.mpr (by decide), h.2.2⟩

/-- Neither a query nor a fragment may be anything: a mark in either makes a scheme of what is in
front of it. -/
theorem Address.not_ofUrl_relative_of_any_tail :
    (¬ ∀ path query fragment d, ¬ Scheme.Marked path → '?' ∉ path.toList → '#' ∉ path.toList →
        '#' ∉ query.toList →
        Address.ofUrl (path ++ "?" ++ query ++ "#" ++ fragment) d =
          { scheme := d, segments := Path.segments path, query := Query.mapping query }) ∧
      ¬ ∀ path fragment d, ¬ Scheme.Marked path → '?' ∉ path.toList → '#' ∉ path.toList →
        Address.ofUrl (path ++ "#" ++ fragment) d = Address.ofUrl path d := by
  constructor
  · intro h
    have hd := h "/a" "u=http://b" "top" "app" (by decide) (by decide) (by decide) (by decide)
    exact absurd (congrArg Address.scheme hd) (by decide)
  · intro h
    have hd := h "/a" "x://b" "app" (by decide) (by decide) (by decide)
    exact absurd (congrArg Address.scheme hd) (by decide)

end UrlRouter.Url
