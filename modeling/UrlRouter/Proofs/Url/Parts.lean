import UrlRouter.Proofs.Url.Address

namespace UrlRouter.Url

/-- What a url is put together from. Each part is free of what would end it too early, so a part is
what it is wherever the url is cut. -/
structure Parts where
  scheme : Option String
  path : String
  query : Option String
  fragment : Option String
  scheme_unmarked : ∀ s ∈ scheme, ¬ Scheme.Marked s
  path_ends : '?' ∉ path.toList ∧ '#' ∉ path.toList
  query_ends : ∀ q ∈ query, '#' ∉ q.toList
  unmarked : scheme = none → ¬ Scheme.Marked (path ++ tail query fragment)

namespace Parts

/-- All that is behind the scheme. -/
def rest (x : Parts) : String :=
  x.path ++ tail x.query x.fragment

def url (x : Parts) : String :=
  x.scheme.elim "" (· ++ "://") ++ x.rest

theorem cut_url (x : Parts) : Scheme.cut x.url = (x.scheme, x.rest) := by
  rw [url]
  cases h : x.scheme with
  | none =>
    rw [Option.elim_none, String.empty_append]
    exact Scheme.cut_of_not_marked (x.unmarked h)
  | some s =>
    rw [Option.elim_some]
    exact Scheme.cut_append x.rest (x.scheme_unmarked s h)

theorem splitAt_rest (x : Parts) :
    splitAt '#' x.rest.toList =
      ((x.path ++ tail x.query none).toList, x.fragment.map String.toList) :=
  splitAt_fragment x.fragment x.path_ends.2 x.query_ends

/-- No two ways to put a url together lead to the same text. -/
theorem url_injective : Function.Injective url := by
  intro x y h
  -- The text is cut as an address cuts it, and each cut gives back what it lies between.
  have hcut := congrArg Scheme.cut h
  rw [cut_url, cut_url, Prod.mk.injEq] at hcut
  obtain ⟨hscheme, hrest⟩ := hcut
  have hhash := congrArg (fun s => splitAt '#' s.toList) hrest
  simp only [splitAt_rest, Prod.mk.injEq] at hhash
  obtain ⟨hbody, hfragment⟩ := hhash
  have hmark := congrArg (splitAt '?') hbody
  rw [splitAt_query x.query x.path_ends.1, splitAt_query y.query y.path_ends.1,
    Prod.mk.injEq] at hmark
  obtain ⟨hpath, hquery⟩ := hmark
  have hinj : Function.Injective (Option.map String.toList) :=
    Option.map_injective fun _ _ => String.toList_injective
  cases x
  cases y
  simp only [mk.injEq]
  exact ⟨hscheme, String.toList_injective hpath, hinj hquery, hinj hfragment⟩

theorem exists_rest_eq (s : String) :
    ∃ (path : String) (query fragment : Option String), s = path ++ tail query fragment ∧
      ('?' ∉ path.toList ∧ '#' ∉ path.toList) ∧ ∀ q ∈ query, '#' ∉ q.toList := by
  obtain ⟨body, fragment, rfl, hb⟩ := exists_eq_append '#' s
  obtain ⟨path, query, rfl, hp⟩ := exists_eq_append '?' body
  have hb : '#' ∉ path.toList ∧ '#' ∉ (query.elim "" (.singleton '?' ++ ·)).toList := by
    simpa using hb
  refine ⟨path, query, fragment, ?_, ⟨hp, hb.1⟩, ?_⟩
  · rw [tail, String.append_assoc]
    rfl
  · rintro q rfl
    simpa using hb.2

theorem url_surjective : Function.Surjective url := by
  intro s
  by_cases h : Scheme.Marked s
  · obtain ⟨scheme, rest, rfl, hs⟩ := h.parts
    obtain ⟨path, query, fragment, rfl, hp, hq⟩ := exists_rest_eq rest
    exact ⟨⟨some scheme, path, query, fragment, by simpa using hs, hp, hq, by simp⟩, rfl⟩
  · obtain ⟨path, query, fragment, rfl, hp, hq⟩ := exists_rest_eq s
    exact ⟨⟨none, path, query, fragment, by simp, hp, hq, fun _ => h⟩, String.empty_append⟩

/-- A segment is a piece of the path, so it holds nothing which is not in the path. -/
theorem plain_of_mem_segments (x : Parts) {s : String} (h : s ∈ Path.segments x.path) :
    '/' ∉ s.toList ∧ '?' ∉ s.toList ∧ '#' ∉ s.toList := by
  have hs := Path.subset_of_mem_segments h
  exact ⟨Path.slashless_segments h, fun hm => x.path_ends.1 (hs hm), fun hm => x.path_ends.2 (hs hm)⟩

end Parts

theorem Address.ofUrl_url (x : Parts) (defaultScheme : String) :
    Address.ofUrl x.url defaultScheme =
      { scheme := x.scheme.getD defaultScheme
        segments := Path.segments x.path
        query := (x.query.map Query.mapping).getD .empty } :=
  Address.ofUrl_of_cut defaultScheme x.cut_url x.path_ends.1 x.path_ends.2 x.query_ends

/-- Every url is put together from parts, in one way only, and its address has of these parts what
was put there, whatever marks they hold. -/
theorem Address.ofUrl_parts (defaultScheme : String) :
    (∀ x : Parts, Address.ofUrl x.url defaultScheme =
      { scheme := x.scheme.getD defaultScheme
        segments := Path.segments x.path
        query := (x.query.map Query.mapping).getD .empty }) ∧
    (∀ url, ∃! x : Parts, x.url = url) ∧
    ∀ url, ∀ s ∈ (Address.ofUrl url defaultScheme).segments,
      '/' ∉ s.toList ∧ '?' ∉ s.toList ∧ '#' ∉ s.toList := by
  refine ⟨fun x => Address.ofUrl_url x defaultScheme, ?_, ?_⟩
  · intro url
    obtain ⟨x, hx⟩ := Parts.url_surjective url
    exact ⟨x, hx, fun y hy => Parts.url_injective (hy.trans hx.symm)⟩
  · intro url s hs
    obtain ⟨x, rfl⟩ := Parts.url_surjective url
    rw [Address.ofUrl_url] at hs
    exact x.plain_of_mem_segments hs

/-- A scheme which ends like the begin of a mark, and further marks and question marks behind it. -/
theorem Address.ofUrl_parts_marks :
    ∃ x : Parts, x.url = "a:/://b://c/?u=://?v#?w#://" ∧
      x.scheme = some "a:/" ∧ x.path = "b://c/" ∧ x.query = some "u=://?v" ∧
      x.fragment = some "?w#://" ∧
      Address.ofUrl "a:/://b://c/?u=://?v#?w#://" "d" =
        { scheme := "a:/", segments := ["b:", "", "c"], query := Query.mapping "u=://?v" } ∧
      '/' ∉ "b:".toList ∧ '?' ∉ "b:".toList ∧ '#' ∉ "b:".toList := by
  obtain ⟨x, hx⟩ : ∃ x : Parts, x = ⟨some "a:/", "b://c/", some "u=://?v", some "?w#://",
    by decide, by decide, by decide, by simp⟩ := ⟨_, rfl⟩
  have hurl : x.url = "a:/://b://c/?u=://?v#?w#://" := by
    rw [hx]
    decide
  have hs : Path.segments "b://c/" = ["b:", "", "c"] := by cbv
  obtain ⟨haddress, -, hplain⟩ := Address.ofUrl_parts "d"
  have ha := haddress x
  rw [hurl, hx] at ha
  simp only [hs, Option.getD_some, Option.map_some] at ha
  have hmem : "b:" ∈ (Address.ofUrl "a:/://b://c/?u=://?v#?w#://" "d").segments := by
    rw [ha]
    exact List.mem_cons_self
  refine ⟨x, hurl, ?_, ?_, ?_, ?_, ha, hplain _ "b:" hmem⟩ <;> rw [hx]

end UrlRouter.Url
