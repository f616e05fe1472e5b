import Mathlib.Data.List.Nodup
import UrlRouter.Value

namespace UrlRouter.Mapping

theorem lookup_cons_eq (k l : String) (x : α) (es : List (String × α)) :
    ((k, x) :: es).lookup l = if l = k then some x else es.lookup l := by
  by_cases h : l = k
  · simp [h]
  · simp [List.lookup_cons, beq_eq_false_iff_ne.mpr h, h]

/-- What a key leads to stands beside that key. -/
theorem mem_of_lookup {κ : Type} [BEq κ] [LawfulBEq κ] {k : κ} {x : α} {es : List (κ × α)}
    (h : es.lookup k = some x) : (k, x) ∈ es := by
  obtain ⟨front, back, rfl, -⟩ := List.lookup_eq_some_iff.mp h
  exact List.mem_append_right front List.mem_cons_self

/-- Where no key stands twice, looking a key up is finding its entry. -/
theorem lookup_eq_some_iff_mem {es : List (String × α)} (hn : (es.map Prod.fst).Nodup) {k : String}
    {x : α} : es.lookup k = some x ↔ (k, x) ∈ es := by
  constructor
  · exact mem_of_lookup
  · intro h
    obtain ⟨front, back, rfl⟩ := List.append_of_mem h
    rw [List.map_append, List.nodup_append] at hn
    refine List.lookup_eq_some_iff.mpr ⟨front, back, rfl, ?_⟩
    intro e he
    rw [bne_iff_ne]
    exact (hn.2.2 e.1 (List.mem_map_of_mem he) k (by simp)).symm

/-- Values which are made anew under their keys are found under these keys. -/
theorem lookup_map {κ : Type} [BEq κ] [LawfulBEq κ] (f : κ → α → β) (k : κ) (es : List (κ × α)) :
    (es.map fun (j, x) => (j, f j x)).lookup k = (es.lookup k).map (f k) := by
  induction es with
  | nil => rfl
  | cons e es ih =>
    obtain ⟨j, x⟩ := e
    rw [List.map_cons, List.lookup_cons, List.lookup_cons, ih]
    by_cases h : k = j
    · subst h
      simp
    · simp [beq_eq_false_iff_ne.mpr h]

theorem lookup_insertEntry (k l : String) (x : α) (es : List (String × α)) :
    (insertEntry k x es).lookup l = if l = k then some x else es.lookup l := by
  induction es with
  | nil => exact lookup_cons_eq k l x []
  | cons e es ih =>
    obtain ⟨j, y⟩ := e
    simp only [insertEntry]
    split
    · exact lookup_cons_eq k l x _
    · split
      · rename_i hk
        subst hk
        simp only [lookup_cons_eq]
        split <;> rfl
      · rename_i hk
        simp only [lookup_cons_eq, ih]
        by_cases h : l = j
        · simp [h, Ne.symm hk]
        · simp [h]

@[simp] theorem get?_empty (k : String) : (empty : Mapping α).get? k = none := rfl

theorem get?_insert (m : Mapping α) (k l : String) (x : α) :
    (m.insert k x).get? l = if l = k then some x else m.get? l :=
  lookup_insertEntry k l x m.entries

theorem nodup_keys (m : Mapping α) : (m.entries.map Prod.fst).Nodup := by
  refine List.pairwise_map.mpr (m.sorted.imp ?_)
  intro a b h he
  exact String.lt_irrefl b.1 (he ▸ h)

theorem mem_entries_iff {k : String} {x : α} (m : Mapping α) :
    (k, x) ∈ m.entries ↔ m.get? k = some x :=
  (lookup_eq_some_iff_mem m.nodup_keys).symm

/-- Mappings are told apart by what they hold, not by how they came about. -/
theorem ext_get? {m n : Mapping α} (h : ∀ k, m.get? k = n.get? k) : m = n := by
  have hm : ∀ e, e ∈ m.entries ↔ e ∈ n.entries := by
    rintro ⟨k, x⟩
    rw [mem_entries_iff, mem_entries_iff, h]
  have hp : m.entries.Perm n.entries :=
    (List.perm_ext_iff_of_nodup (.of_map _ m.nodup_keys) (.of_map _ n.nodup_keys)).mpr hm
  have he : m.entries = n.entries := by
    refine List.Perm.eq_of_pairwise ?_ m.sorted n.sorted hp
    intro a b _ _ hab hba
    exact absurd (String.lt_trans hab hba) (String.lt_irrefl a.1)
  cases m
  cases n
  cases he
  rfl

theorem isSome_lookup_iff {es : List (String × α)} {k : String} :
    (es.lookup k).isSome ↔ k ∈ es.map Prod.fst := by
  simp

theorem lookup_reverse {es : List (String × α)} (hn : (es.map Prod.fst).Nodup) (k : String) :
    es.reverse.lookup k = es.lookup k := by
  have hr : (es.reverse.map Prod.fst).Nodup := by
    rw [List.map_reverse]
    exact List.nodup_reverse.mpr hn
  ext x
  rw [lookup_eq_some_iff_mem hr, lookup_eq_some_iff_mem hn, List.mem_reverse]

/-- A run of insertions leaves under each key what was inserted there last. -/
theorem get?_foldl_insert (es : List (String × α)) (m : Mapping α) (k : String) :
    (es.foldl (fun m (k, x) => m.insert k x) m).get? k = (es.reverse.lookup k).or (m.get? k) := by
  induction es generalizing m with
  | nil => simp
  | cons e es ih =>
    obtain ⟨j, x⟩ := e
    rw [List.foldl_cons, ih, get?_insert, List.reverse_cons, List.lookup_append, lookup_cons_eq]
    cases es.reverse.lookup k with
    | some y => simp
    | none => split <;> simp

theorem get?_ofList (es : List (String × α)) (k : String) :
    (ofList es).get? k = es.reverse.lookup k := by
  rw [ofList, get?_foldl_insert]
  simp

theorem get?_ofList_eq_some_iff {es : List (String × α)} {k : String} {x : α} :
    (ofList es).get? k = some x ↔
      ∃ front back, es = front ++ (k, x) :: back ∧ k ∉ back.map Prod.fst := by
  have hkeys : ∀ back : List (String × α),
      (∀ e ∈ back, (k != e.1) = true) ↔ k ∉ back.map Prod.fst := by
    intro back
    simp only [bne_iff_ne, List.mem_map, not_exists, not_and]
    exact forall₂_congr fun e _ => ne_comm
  rw [get?_ofList, List.lookup_eq_some_iff]
  constructor
  · rintro ⟨back, front, he, hb⟩
    refine ⟨front.reverse, back.reverse, ?_, ?_⟩
    · rw [← List.reverse_inj, he]
      simp
    · rw [← hkeys]
      simpa using hb
  · rintro ⟨front, back, rfl, hb⟩
    refine ⟨back.reverse, front.reverse, by simp, ?_⟩
    rw [← hkeys] at hb
    simpa using hb

theorem get?_ofList_of_nodup {es : List (String × α)} (hn : (es.map Prod.fst).Nodup)
    (k : String) : (ofList es).get? k = es.lookup k := by
  rw [get?_ofList, lookup_reverse hn]

/-- The entries of a mapping make it again, in whatever order they are put in. -/
theorem ofList_of_perm {es : List (String × α)} {m : Mapping α} (h : es.Perm m.entries) :
    ofList es = m := by
  have hn : (es.map Prod.fst).Nodup := (h.map _).nodup_iff.mpr m.nodup_keys
  apply ext_get?
  intro k
  ext x
  rw [get?_ofList_of_nodup hn, lookup_eq_some_iff_mem hn, h.mem_iff, mem_entries_iff]

theorem mem_keys_iff {m : Mapping α} {k : String} : k ∈ m.keys ↔ ∃ x, m.get? k = some x := by
  simp [keys, ← mem_entries_iff]

theorem exists_entries_eq {m : Mapping α} {es : List (String × β)} (h : es.map Prod.fst = m.keys) :
    ∃ n : Mapping β, n.entries = es := by
  have hs : (es.map Prod.fst).Pairwise (· < ·) := h ▸ List.pairwise_map.mpr m.sorted
  exact ⟨⟨es, List.pairwise_map.mp hs⟩, rfl⟩

theorem get?_overlay (lower upper : Mapping α) (k : String) :
    (lower.overlay upper).get? k = (upper.get? k).or (lower.get? k) := by
  rw [overlay, get?_foldl_insert, lookup_reverse upper.nodup_keys]
  rfl

theorem ofList_append (front back : List (String × α)) :
    ofList (front ++ back) = (ofList front).overlay (ofList back) := by
  apply ext_get?
  intro k
  rw [get?_overlay, get?_ofList, get?_ofList, get?_ofList, List.reverse_append, List.lookup_append]

theorem get?_map (f : α → β) (m : Mapping α) (k : String) :
    (m.map f).get? k = (m.get? k).map f :=
  lookup_map (fun _ => f) k m.entries

end UrlRouter.Mapping

namespace UrlRouter.Values

theorem get?_ofMatch (query : Mapping String) (captures : Values) (k : String) :
    (ofMatch query captures).get? k =
      (captures.get? k).or ((query.get? k).map Value.text) := by
  rw [ofMatch, Mapping.get?_overlay, Mapping.get?_map]

end UrlRouter.Values
