import UrlRouter.Proofs.Mapping.Lookup
import UrlRouter.Proofs.Text.Cut
import UrlRouter.Url

namespace UrlRouter.Url.Query

/-- The texts between the ampersands of a query. -/
def pieces (query : String) : List String :=
  (query.toList.splitOn '&').map .ofList

/-- What stands in front of the first equals sign of the piece and what stands behind it decode to the
key and the value. -/
def Gives (piece : String) (parameter : String × String) : Prop :=
  ∃ key value, piece = key ++ "=" ++ value ∧ '=' ∉ key.toList ∧
    Percent.decode? key = some parameter.1 ∧ Percent.decode? value = some parameter.2

variable {piece : String} {parameter : String × String}

theorem parameter?_eq_some_iff : parameter? piece.toList = some parameter ↔ Gives piece parameter := by
  constructor
  · intro h
    obtain ⟨⟨key, value⟩, hc, h⟩ := Option.bind_eq_some_iff.mp h
    obtain ⟨k, hk, h⟩ := Option.bind_eq_some_iff.mp h
    obtain ⟨v, hv, h⟩ := Option.bind_eq_some_iff.mp h
    cases h
    refine ⟨.ofList key, .ofList value, ?_, ?_, hk, hv⟩
    · rw [← String.toList_inj, Text.eq_of_cut? hc]
      simp
    · rw [String.toList_ofList]
      intro hm
      obtain ⟨front, back, hf⟩ := List.append_of_mem hm
      apply Text.not_infix_of_cut? (List.cons_ne_nil '=' []) hc
      exact ⟨front, back, by simp [hf]⟩
  · intro h
    obtain ⟨key, value, rfl, hn, hk, hv⟩ := h
    have hc : Text.cut? ['='] (key ++ "=" ++ value).toList = some (key.toList, value.toList) := by
      simpa using Text.cut?_char value.toList hn
    simp only [parameter?, hc, Option.bind_eq_bind, Option.bind_some, String.ofList_toList, hk, hv]
    rfl

theorem parameters_eq (query : String) :
    parameters query = (pieces query).filterMap fun piece => parameter? piece.toList := by
  simp [parameters, pieces, List.filterMap_map]

theorem intercalate_pieces (query : String) : "&".intercalate (pieces query) = query := by
  rw [← String.toList_inj, String.toList_intercalate]
  simp [pieces, Function.comp_def]

theorem not_mem_of_mem_pieces {query : String} (h : piece ∈ pieces query) : '&' ∉ piece.toList := by
  obtain ⟨cs, hcs, rfl⟩ := List.mem_map.mp h
  rw [String.toList_ofList]
  exact Text.not_mem_of_mem_splitOn hcs

theorem pieces_of_not_mem (h : '&' ∉ piece.toList) : pieces piece = [piece] := by
  simp [pieces, List.splitOn_eq_singleton h]

theorem pieces_append (front back : String) :
    pieces (front ++ "&" ++ back) = pieces front ++ pieces back := by
  have hs := List.splitOn_append_cons_self (a := '&') front.toList back.toList
  simp [pieces, hs]

theorem parameters_append (front back : String) :
    parameters (front ++ "&" ++ back) = parameters front ++ parameters back := by
  simp only [parameters_eq, pieces_append, List.filterMap_append]

theorem mem_parameters_iff {query : String} :
    parameter ∈ parameters query ↔ ∃ piece ∈ pieces query, Gives piece parameter := by
  simp only [parameters_eq, List.mem_filterMap, parameter?_eq_some_iff]

/-- An empty query has one piece, and that is no parameter. -/
theorem parameters_intercalate (texts : List String) :
    parameters ("&".intercalate texts) = texts.flatMap parameters := by
  induction texts with
  | nil => rfl
  | cons text texts ih =>
    by_cases hn : texts = []
    · simp [hn]
    · rw [String.intercalate_cons_of_ne_nil hn, parameters_append, ih, List.flatMap_cons]

theorem Gives.parameters_eq (h : Gives piece parameter) (ha : '&' ∉ piece.toList) :
    parameters piece = [parameter] := by
  simp [Query.parameters_eq, pieces_of_not_mem ha, parameter?_eq_some_iff.mpr h]

theorem parameters_eq_nil (ha : '&' ∉ piece.toList) (hp : ∀ parameter, ¬ Gives piece parameter) :
    parameters piece = [] := by
  apply List.eq_nil_iff_forall_not_mem.mpr
  intro parameter hm
  obtain ⟨text, ht, hg⟩ := mem_parameters_iff.mp hm
  rw [pieces_of_not_mem ha, List.mem_singleton] at ht
  subst ht
  exact hp parameter hg

theorem get?_mapping_eq_some_iff {query key value : String} :
    (mapping query).get? key = some value ↔
      ∃ front piece back, pieces query = front ++ piece :: back ∧ Gives piece (key, value) ∧
        ∀ later ∈ back, ∀ other, ¬ Gives later (key, other) := by
  rw [mapping, Mapping.get?_ofList_eq_some_iff, parameters_eq]
  constructor
  · intro h
    obtain ⟨before, after, hs, hk⟩ := h
    obtain ⟨front, rest, hp, -, hrest⟩ := List.filterMap_eq_append_iff.mp hs
    obtain ⟨idle, piece, back, rfl, -, hg, rfl⟩ := List.filterMap_eq_cons_iff.mp hrest
    refine ⟨front ++ idle, piece, back, by simp [hp], parameter?_eq_some_iff.mp hg, ?_⟩
    intro later hl other ho
    apply hk
    exact List.mem_map.mpr
      ⟨(key, other), List.mem_filterMap.mpr ⟨later, hl, parameter?_eq_some_iff.mpr ho⟩, rfl⟩
  · intro h
    obtain ⟨front, piece, back, hp, hg, hlast⟩ := h
    have hread : parameter? piece.toList = some (key, value) := parameter?_eq_some_iff.mpr hg
    refine ⟨front.filterMap fun text => parameter? text.toList,
      back.filterMap fun text => parameter? text.toList, by simp [hp, hread], ?_⟩
    intro hk
    obtain ⟨⟨k, other⟩, hm, rfl⟩ := List.mem_map.mp hk
    obtain ⟨later, hl, ho⟩ := List.mem_filterMap.mp hm
    exact hlast later hl other (parameter?_eq_some_iff.mp ho)

/-- Under a key a query has the value of the last of its pieces which give that key one. The pieces
which give nothing leave no trace, and of two queries the second lies over the first. -/
theorem mapping_of_pieces :
    (∀ query, "&".intercalate (pieces query) = query ∧
      (∀ piece ∈ pieces query, '&' ∉ piece.toList) ∧
      ∀ key value, (mapping query).get? key = some value ↔
        ∃ front piece back, pieces query = front ++ piece :: back ∧ Gives piece (key, value) ∧
          ∀ later ∈ back, ∀ other, ¬ Gives later (key, other)) ∧
    (∀ front piece back, '&' ∉ piece.toList → (∀ parameter, ¬ Gives piece parameter) →
      mapping ("&".intercalate (front ++ piece :: back)) =
        mapping ("&".intercalate (front ++ back))) ∧
    ∀ front back, mapping (front ++ "&" ++ back) = (mapping front).overlay (mapping back) := by
  refine ⟨?_, ?_, ?_⟩
  · intro query
    exact ⟨intercalate_pieces query, fun _ => not_mem_of_mem_pieces, fun _ _ =>
      get?_mapping_eq_some_iff⟩
  · intro front piece back ha hp
    rw [mapping, mapping, parameters_intercalate, parameters_intercalate, List.flatMap_append,
      List.flatMap_append, List.flatMap_cons, parameters_eq_nil ha hp, List.nil_append]
  · intro front back
    rw [mapping, parameters_append, Mapping.ofList_append]
    rfl

/-- A key in two ways of writing, the second time with a value which is none and then without one. -/
theorem mapping_of_pieces_idle :
    '&' ∉ "a=%ff".toList ∧ (∀ parameter, ¬ Gives "a=%ff" parameter) ∧
      mapping ("&".intercalate (["%61=1"] ++ "a=%ff" :: ["a", "=2"])) =
        mapping ("&".intercalate (["%61=1"] ++ ["a", "=2"])) ∧
      (mapping ("&".intercalate (["%61=1"] ++ "a=%ff" :: ["a", "=2"]))).get? "a" = some "1" := by
  have ha : '&' ∉ "a=%ff".toList := by decide
  have hp : ∀ parameter, ¬ Gives "a=%ff" parameter := by
    intro parameter hg
    have hr := parameter?_eq_some_iff.mpr hg
    have hn : parameter? "a=%ff".toList = none := by decide
    rw [hn] at hr
    cases hr
  have h := mapping_of_pieces.2.1 ["%61=1"] "a=%ff" ["a", "=2"] ha hp
  refine ⟨ha, hp, h, ?_⟩
  rw [h]
  decide

end UrlRouter.Url.Query
