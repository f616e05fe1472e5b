import Mathlib.Data.List.Perm.Basic
import UrlRouter.Extract.Reader
import UrlRouter.Proofs.Extract.Record

namespace UrlRouter.Extract

/-- A map of texts. -/
def Extracted.texts (m : Mapping String) : Extracted :=
  .map (m.map fun s => .datum (.text s)).entries

namespace Shape

/-- An entry under its key, as it goes into a map. -/
def readEntry (inner : Shape) (e : String × Value) : Except Fault (String × Extracted) :=
  (inner.readValue e.2).map fun x => (e.1, x)

/-- A map into which the entries are put one after the other, in the order they are visited in. -/
def gather (inner : Shape) (visited : List (String × Value)) : Except Fault Extracted :=
  (visited.mapM inner.readEntry).map fun xs => .map (Mapping.ofList xs).entries

/-- The map has the keys of the values and no others, and under each the reading of its value. -/
structure ReadsTo (inner : Shape) (vs : Values) (m : Mapping Extracted) : Prop where
  keys : m.keys = vs.keys
  readings : ∀ k v, vs.get? k = some v → ∃ x, m.get? k = some x ∧ inner.readValue v = .ok x

variable {inner : Shape} {vs : Values} {m n : Mapping Extracted} {visited : List (String × Value)}
  {xs : List (String × Extracted)} {x : Extracted}

theorem readEntry_eq_ok_iff {e : String × Value} {y : String × Extracted} :
    inner.readEntry e = .ok y ↔ y.1 = e.1 ∧ inner.readValue e.2 = .ok y.2 := by
  rw [readEntry, map_eq_ok_iff]
  constructor
  · intro h
    obtain ⟨x, hx, rfl⟩ := h
    exact ⟨rfl, hx⟩
  · intro h
    exact ⟨y.2, h.2, Prod.ext h.1 rfl⟩

theorem keys_of_readEntry (h : List.Forall₂ (fun e y => inner.readEntry e = .ok y) visited xs) :
    xs.map Prod.fst = visited.map Prod.fst := by
  induction h with
  | nil => rfl
  | cons h _ ih => rw [List.map_cons, List.map_cons, ih, (readEntry_eq_ok_iff.mp h).1]

theorem exists_mem_of_readEntry
    (h : List.Forall₂ (fun e y => inner.readEntry e = .ok y) visited xs) {k : String} {v : Value}
    (hv : (k, v) ∈ visited) : ∃ x, (k, x) ∈ xs ∧ inner.readValue v = .ok x := by
  induction h with
  | nil => cases hv
  | @cons e y _ _ h _ ih =>
    obtain ⟨hk, hx⟩ := readEntry_eq_ok_iff.mp h
    rcases List.mem_cons.mp hv with rfl | hv
    · exact ⟨y.2, List.mem_cons.mpr (.inl (Prod.ext hk.symm rfl)), hx⟩
    · obtain ⟨x, hm, hx⟩ := ih hv
      exact ⟨x, List.mem_cons_of_mem _ hm, hx⟩

theorem readsTo_of_readEntry
    (h : List.Forall₂ (fun e y => inner.readEntry e = .ok y) vs.entries m.entries) :
    inner.ReadsTo vs m where
  keys := keys_of_readEntry h
  readings := by
    intro k v hv
    obtain ⟨x, hm, hx⟩ := exists_mem_of_readEntry h ((Mapping.mem_entries_iff vs).mpr hv)
    exact ⟨x, (Mapping.mem_entries_iff m).mp hm, hx⟩

theorem ReadsTo.unique (hm : inner.ReadsTo vs m) (hn : inner.ReadsTo vs n) : m = n := by
  apply Mapping.ext_get?
  intro k
  cases hv : vs.get? k with
  | some v =>
    obtain ⟨x, hxm, hx⟩ := hm.readings k v hv
    obtain ⟨y, hyn, hy⟩ := hn.readings k v hv
    rw [hx] at hy
    cases hy
    rw [hxm, hyn]
  | none =>
    have hk : k ∉ vs.keys := by simp [Mapping.mem_keys_iff, hv]
    have hkm : k ∉ m.keys := hm.keys ▸ hk
    have hkn : k ∉ n.keys := hn.keys ▸ hk
    simp only [Mapping.mem_keys_iff, not_exists, ← Option.eq_none_iff_forall_ne_some] at hkm hkn
    rw [hkm, hkn]

theorem exists_readsTo_of_readEntry
    (h : List.Forall₂ (fun e y => inner.readEntry e = .ok y) vs.entries xs) :
    ∃ m, m.entries = xs ∧ inner.ReadsTo vs m := by
  obtain ⟨m, rfl⟩ := Mapping.exists_entries_eq (keys_of_readEntry h)
  exact ⟨m, rfl, readsTo_of_readEntry h⟩

theorem exists_readEntry (h : ∀ k v, vs.get? k = some v → ∃ x, inner.readValue v = .ok x) :
    ∃ xs, List.Forall₂ (fun e y => inner.readEntry e = .ok y) vs.entries xs := by
  apply exists_forall₂_iff.mpr
  intro e he
  obtain ⟨x, hx⟩ := h e.1 e.2 ((Mapping.mem_entries_iff vs).mp he)
  exact ⟨(e.1, x), readEntry_eq_ok_iff.mpr ⟨rfl, hx⟩⟩

theorem ReadsTo.readable (h : inner.ReadsTo vs m) {k : String} {v : Value}
    (hv : vs.get? k = some v) : ∃ x, inner.readValue v = .ok x := by
  obtain ⟨x, -, hx⟩ := h.readings k v hv
  exact ⟨x, hx⟩

theorem readsTo_iff :
    inner.ReadsTo vs m ↔
      List.Forall₂ (fun e y => inner.readEntry e = .ok y) vs.entries m.entries := by
  constructor
  · intro h
    obtain ⟨xs, hxs⟩ := exists_readEntry fun _ _ => h.readable
    obtain ⟨n, rfl, hn⟩ := exists_readsTo_of_readEntry hxs
    rwa [h.unique hn]
  · exact readsTo_of_readEntry

theorem extract_map_eq_ok_iff :
    vs.extract (.map inner) = .ok x ↔ ∃ m, inner.ReadsTo vs m ∧ x = .map m.entries := by
  have he : vs.extract (.map inner) = (vs.entries.mapM inner.readEntry).map .map := rfl
  rw [he, map_eq_ok_iff]
  constructor
  · intro h
    obtain ⟨xs, hxs, rfl⟩ := h
    obtain ⟨m, rfl, hm⟩ := exists_readsTo_of_readEntry (mapM_eq_ok_iff.mp hxs)
    exact ⟨m, hm, rfl⟩
  · intro h
    obtain ⟨m, hm, rfl⟩ := h
    exact ⟨m.entries, mapM_eq_ok_iff.mpr (readsTo_iff.mp hm), rfl⟩

/-- Whatever the order of the visits, the readings are the same in another order. -/
theorem gather_eq_ok_iff (hp : visited.Perm vs.entries) :
    inner.gather visited = .ok x ↔ ∃ m, inner.ReadsTo vs m ∧ x = .map m.entries := by
  rw [gather, map_eq_ok_iff]
  constructor
  · intro h
    obtain ⟨xs, hxs, rfl⟩ := h
    obtain ⟨ys, hys, hperm⟩ := List.perm_comp_forall₂ hp.symm (mapM_eq_ok_iff.mp hxs)
    obtain ⟨m, rfl, hm⟩ := exists_readsTo_of_readEntry hys
    exact ⟨m, hm, by rw [Mapping.ofList_of_perm hperm.symm]⟩
  · intro h
    obtain ⟨m, hm, rfl⟩ := h
    obtain ⟨xs, hxs, hperm⟩ := List.perm_comp_forall₂ hp (readsTo_iff.mp hm)
    exact ⟨xs, mapM_eq_ok_iff.mpr hxs, by rw [Mapping.ofList_of_perm hperm]⟩

theorem readsTo_texts (vs : Values) :
    (scalar (.plain .text)).ReadsTo vs (vs.map fun v => .datum (.text v.display)) where
  keys := by simp [Mapping.keys, Mapping.map]
  readings := by
    intro k v hv
    exact ⟨_, by rw [Mapping.get?_map, hv]; rfl, rfl⟩

theorem extract_texts (vs : Values) :
    vs.extract (.map (.scalar (.plain .text))) = .ok (.texts (vs.map Value.display)) := by
  rw [extract_map_eq_ok_iff]
  exact ⟨_, readsTo_texts vs, by simp [Extracted.texts, Mapping.map]⟩

theorem extract_rebuilt {shown : Mapping String} {inserted : List (String × String)}
    (hp : inserted.Perm shown.entries) :
    Values.extract (.ofList (inserted.map fun (k, s) => (k, .text s)))
      (.map (.scalar (.plain .text))) = .ok (.texts shown) := by
  have hm : (inserted.map fun (k, s) => (k, Value.text s)).Perm (shown.map Value.text).entries :=
    hp.map _
  have hs : (shown.map Value.text).map Value.display = shown := by
    apply Mapping.ext_get?
    intro k
    simp [Mapping.get?_map, Function.comp_def, Value.display]
  rw [Mapping.ofList_of_perm hm, extract_texts, hs]

/-- A map is made of all entries or of none, and in which order they are visited and put into it is of
no account. Texts can always be made, and values which are rebuilt of a map of texts give it back. -/
theorem extract_map_outcome (inner : Shape) (vs : Values) :
    ((∃ x, vs.extract (.map inner) = .ok x) ↔
      ∀ k v, vs.get? k = some v → ∃ x, inner.readValue v = .ok x) ∧
    (∀ x, vs.extract (.map inner) = .ok x ↔ ∃ m, inner.ReadsTo vs m ∧ x = .map m.entries) ∧
    (∀ visited, visited.Perm vs.entries →
      ∀ x, inner.gather visited = .ok x ↔ vs.extract (.map inner) = .ok x) ∧
    vs.extract (.map (.scalar (.plain .text))) = .ok (.texts (vs.map Value.display)) ∧
    ∀ (shown : Mapping String) (inserted : List (String × String)),
      inserted.Perm shown.entries →
        Values.extract (.ofList (inserted.map fun (k, s) => (k, .text s)))
          (.map (.scalar (.plain .text))) = .ok (.texts shown) := by
  refine ⟨?_, fun x => extract_map_eq_ok_iff, ?_, extract_texts vs, ?_⟩
  · simp only [extract_map_eq_ok_iff]
    constructor
    · intro h
      obtain ⟨x, m, hm, -⟩ := h
      exact fun _ _ => hm.readable
    · intro h
      obtain ⟨xs, hxs⟩ := exists_readEntry h
      obtain ⟨m, -, hm⟩ := exists_readsTo_of_readEntry hxs
      exact ⟨_, m, hm, rfl⟩
  · intro visited hp x
    rw [gather_eq_ok_iff hp, extract_map_eq_ok_iff]
  · intro shown inserted hp
    exact extract_rebuilt hp

/-- A number and a text are read as numbers, with the entries in another order. A text which is no
number leaves no map, but one of texts. -/
theorem extract_map_outcome_numbers :
    (scalar (.plain (.integer ⟨false, .w8⟩))).gather [("page", .text "+4"), ("id", .int 12)] =
      .ok (.map [("id", .datum (.integer 12)), ("page", .datum (.integer 4))]) ∧
    (¬ ∃ x, Values.extract (.ofList [("id", .int 12), ("page", .text "four")])
      (.map (.scalar (.plain (.integer ⟨false, .w8⟩)))) = .ok x) ∧
    Values.extract (.ofList [("page", .text "four"), ("id", .text "12")])
      (.map (.scalar (.plain .text))) =
      .ok (.texts (.ofList [("id", "12"), ("page", "four")])) := by
  refine ⟨?_, ?_, ?_⟩
  · have hv := (extract_map_outcome (.scalar (.plain (.integer ⟨false, .w8⟩)))
      (.ofList [("id", .int 12), ("page", .text "+4")])).2.2.1
    exact (hv _ (.swap _ _ _) _).mpr rfl
  · have hs := (extract_map_outcome (.scalar (.plain (.integer ⟨false, .w8⟩)))
      (.ofList [("id", .int 12), ("page", .text "four")])).1
    rw [hs]
    intro h
    obtain ⟨x, hx⟩ := h "page" (.text "four") rfl
    cases hx
  · have ht := (extract_map_outcome (.scalar (.plain .text))
      (.ofList [("id", .int 12), ("page", .text "four")])).2.2.2.2
    exact ht (.ofList [("id", "12"), ("page", "four")]) [("page", "four"), ("id", "12")]
      (.swap _ _ _)

end Shape

end UrlRouter.Extract
