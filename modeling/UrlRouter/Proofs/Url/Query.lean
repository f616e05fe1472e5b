import Mathlib.Data.List.Forall2
import UrlRouter.Proofs.Url.Address
import UrlRouter.Proofs.Url.Percent
import UrlRouter.Proofs.Url.Pieces

namespace UrlRouter.Url.Query

open Percent (Encodes)

/-- A parameter as it stands in a query. -/
def pair (written : String × String) : String :=
  written.1 ++ "=" ++ written.2

/-- A query as it is put together from written keys and values. -/
def ofPairs (written : List (String × String)) : String :=
  "&".intercalate (written.map pair)

/-- The key and the value of a parameter, each written in one of its ways. -/
def Writes (parameter written : String × String) : Prop :=
  Encodes written.1 parameter.1 ∧ Encodes written.2 parameter.2

theorem toList_pair (written : String × String) :
    (pair written).toList = written.1.toList ++ '=' :: written.2.toList := by
  simp [pair]

theorem Writes.gives {parameter written : String × String} (h : Writes parameter written) :
    Gives (pair written) parameter :=
  ⟨written.1, written.2, rfl, h.1.not_mem (by decide) (by decide), h.1.decode?_eq, h.2.decode?_eq⟩

theorem Writes.not_mem_pair {parameter written : String × String} (h : Writes parameter written)
    {c : Char} (hc : c ∈ Percent.special) (hp : c ≠ '%') (he : c ≠ '=') :
    c ∉ (pair written).toList := by
  rw [toList_pair, List.mem_append, List.mem_cons, not_or, not_or]
  exact ⟨h.1.not_mem hc hp, he, h.2.not_mem hc hp⟩

/-- The query is not cut short by a hash of its own. -/
theorem hash_not_mem_ofPairs {parameters written : List (String × String)}
    (h : List.Forall₂ Writes parameters written) : '#' ∉ (ofPairs written).toList := by
  have hn : ∀ w ∈ written, '#' ∉ (pair w).toList := by
    induction h with
    | nil => simp
    | cons hw _ ih =>
      rw [List.forall_mem_cons]
      exact ⟨hw.not_mem_pair (by decide) (by decide) (by decide), ih⟩
  intro hm
  rw [ofPairs, String.toList_intercalate] at hm
  obtain ht | ⟨cs, hcs, ht⟩ := Text.of_mem_intercalate hm
  · simp at ht
  · simp only [List.map_map, List.mem_map, Function.comp_apply] at hcs
    obtain ⟨w, hw, rfl⟩ := hcs
    exact hn w hw ht

/-- No key and no value is cut, and none is joined with another. -/
theorem parameters_ofPairs {parameters written : List (String × String)}
    (h : List.Forall₂ Writes parameters written) :
    Query.parameters (ofPairs written) = parameters := by
  rw [ofPairs, parameters_intercalate]
  induction h with
  | nil => rfl
  | cons hw _ ih =>
    have ha := hw.not_mem_pair (c := '&') (by decide) (by decide) (by decide)
    rw [List.map_cons, List.flatMap_cons, hw.gives.parameters_eq ha, ih, List.singleton_append]

theorem exists_writes (parameters : List (String × String)) :
    ∃ written, List.Forall₂ Writes parameters written := by
  induction parameters with
  | nil => exact ⟨[], .nil⟩
  | cons p ps ih =>
    obtain ⟨key, hkey⟩ := Percent.exists_encodes p.1
    obtain ⟨value, hvalue⟩ := Percent.exists_encodes p.2
    obtain ⟨written, hw⟩ := ih
    exact ⟨(key, value) :: written, .cons ⟨hkey, hvalue⟩ hw⟩

/-- Any parameters can be sent through a url. In whichever way they are written, they are read back as
they were, and under each key the last one counts. -/
theorem parametersOf_ofPairs (parameters : List (String × String)) :
    (∃ written, List.Forall₂ Writes parameters written) ∧
    ∀ written, List.Forall₂ Writes parameters written → ∀ scheme path fragment,
      ¬ Scheme.Marked scheme → '?' ∉ path.toList → '#' ∉ path.toList → ∀ key value,
      (parametersOf (scheme ++ "://" ++ (path ++ tail (some (ofPairs written)) fragment))).get? key =
          some value ↔
        ∃ front back, parameters = front ++ (key, value) :: back ∧ key ∉ back.map Prod.fst := by
  refine ⟨exists_writes parameters, ?_⟩
  intro written hw scheme path fragment hs hm hp key value
  have hq : ∀ q ∈ some (ofPairs written), '#' ∉ q.toList := by
    simpa using hash_not_mem_ofPairs hw
  have ha := @Address.ofUrl_absolute scheme path (some (ofPairs written)) fragment "" hs hm hp hq
  rw [parametersOf, ha, Option.map_some, Option.getD_some, mapping, parameters_ofPairs hw]
  exact Mapping.get?_ofList_eq_some_iff

/-- Escapes in both cases, in one of them two for one character. Two of the keys are the same but for
the way they are written, and one is empty. -/
theorem parametersOf_ofPairs_escaped :
    ∃ parameters written url,
      parameters = [("é&", "1=+"), ("", ""), ("é&", "%?ü")] ∧
      written = [("%c3%A9%26", "1%3d+"), ("", ""), ("é%26", "%25?ü")] ∧
      List.Forall₂ Writes parameters written ∧
      url = "a:/" ++ "://" ++ ("/b" ++ tail (some (ofPairs written)) (some "x=#1")) ∧
      ¬ Scheme.Marked "a:/" ∧ '?' ∉ "/b".toList ∧ '#' ∉ "/b".toList ∧
      (parametersOf url).get? "é&" = some "%?ü" ∧ (parametersOf url).get? "" = some "" := by
  have hlower : Encodes "%c3%A9%26" "é&" :=
    .escape 0xc3 (.inl rfl) (.inl rfl) <| .escape 0xa9 (.inr rfl) (.inl rfl) <|
      .escape 0x26 (.inl rfl) (.inl rfl) .nil
  have hplain : Encodes "é%26" "é&" :=
    .plain 'é' (by decide) <| .escape 0x26 (.inl rfl) (.inl rfl) .nil
  have hsign : Encodes "1%3d+" "1=+" :=
    .plain '1' (by decide) <| .escape 0x3d (.inl rfl) (.inl rfl) <| .plain '+' (by decide) .nil
  have hpercent : Encodes "%25?ü" "%?ü" :=
    .escape 0x25 (.inl rfl) (.inl rfl) <| .plain '?' (by decide) <| .plain 'ü' (by decide) .nil
  have hempty : Encodes "" "" := .nil
  obtain ⟨parameters, hparameters⟩ : ∃ parameters : List (String × String),
    parameters = [("é&", "1=+"), ("", ""), ("é&", "%?ü")] := ⟨_, rfl⟩
  obtain ⟨written, hwritten⟩ : ∃ written : List (String × String),
    written = [("%c3%A9%26", "1%3d+"), ("", ""), ("é%26", "%25?ü")] := ⟨_, rfl⟩
  have hw : List.Forall₂ Writes parameters written := by
    rw [hparameters, hwritten]
    exact .cons ⟨hlower, hsign⟩ (.cons ⟨hempty, hempty⟩ (.cons ⟨hplain, hpercent⟩ .nil))
  have hs : ¬ Scheme.Marked "a:/" := by decide
  have hm : '?' ∉ "/b".toList := by decide
  have hp : '#' ∉ "/b".toList := by decide
  have h := (parametersOf_ofPairs parameters).2 written hw "a:/" "/b" (some "x=#1") hs hm hp
  refine ⟨parameters, written, _, hparameters, hwritten, hw, rfl, hs, hm, hp, ?_, ?_⟩
  · exact (h _ _).mpr ⟨[("é&", "1=+"), ("", "")], [], hparameters, by simp⟩
  · exact (h _ _).mpr ⟨[("é&", "1=+")], [("é&", "%?ü")], hparameters, by simp⟩

end UrlRouter.Url.Query
