namespace UrlRouter

/-- Finitely many keys with one value each. The entries are kept in the order of their keys, so
two mappings with the same values at the same keys are equal. -/
structure Mapping (α : Type u) where
  entries : List (String × α)
  sorted : entries.Pairwise fun a b => a.1 < b.1
  deriving DecidableEq

namespace Mapping

theorem before_or_after {k l : String} (hn : k ≠ l) (hk : ¬ k < l) : l < k :=
  Decidable.byContradiction fun h => hn (String.le_antisymm h hk)

def empty : Mapping α := ⟨[], .nil⟩

def insertEntry (k : String) (x : α) : List (String × α) → List (String × α)
  | [] => [(k, x)]
  | e :: es =>
    if k < e.1 then (k, x) :: e :: es
    else if k = e.1 then (k, x) :: es
    else e :: insertEntry k x es

theorem mem_insertEntry {k : String} {x : α} {es : List (String × α)} {e : String × α}
    (h : e ∈ insertEntry k x es) : e = (k, x) ∨ e ∈ es := by
  induction es with
  | nil => simpa [insertEntry] using h
  | cons d ds ih =>
    simp only [insertEntry] at h
    split at h
    · simpa using h
    · split at h
      · rcases List.mem_cons.mp h with rfl | h
        · exact .inl rfl
        · exact .inr (List.mem_cons_of_mem _ h)
      · rcases List.mem_cons.mp h with rfl | h
        · exact .inr List.mem_cons_self
        · exact (ih h).imp_right (List.mem_cons_of_mem _)

theorem insertEntry_sorted {k : String} {x : α} {es : List (String × α)}
    (h : es.Pairwise fun a b => a.1 < b.1) :
    (insertEntry k x es).Pairwise fun a b => a.1 < b.1 := by
  induction es with
  | nil => simp [insertEntry]
  | cons d ds ih =>
    obtain ⟨hd, hs⟩ := List.pairwise_cons.mp h
    simp only [insertEntry]
    split
    · rename_i hk
      refine List.pairwise_cons.mpr ⟨fun e he => ?_, h⟩
      rcases List.mem_cons.mp he with rfl | he
      · exact hk
      · exact String.lt_trans hk (hd e he)
    · split
      · rename_i hk
        exact List.pairwise_cons.mpr ⟨fun e he => hk ▸ hd e he, hs⟩
      · rename_i hk hne
        refine List.pairwise_cons.mpr ⟨fun e he => ?_, ih hs⟩
        rcases mem_insertEntry he with rfl | he
        · exact before_or_after hne hk
        · exact hd e he

/-- A key which is already there gets the new value. -/
def insert (m : Mapping α) (k : String) (x : α) : Mapping α :=
  ⟨insertEntry k x m.entries, insertEntry_sorted m.sorted⟩

def get? (m : Mapping α) (k : String) : Option α :=
  m.entries.lookup k

def contains (m : Mapping α) (k : String) : Bool :=
  (m.get? k).isSome

def keys (m : Mapping α) : List String :=
  m.entries.map Prod.fst

def size (m : Mapping α) : Nat :=
  m.entries.length

def isEmpty (m : Mapping α) : Bool :=
  m.entries.isEmpty

/-- Of equal keys in the list the last one counts. -/
def ofList (es : List (String × α)) : Mapping α :=
  es.foldl (fun m (k, x) => m.insert k x) empty

/-- Where both have a value, that of `upper` counts. -/
def overlay (lower upper : Mapping α) : Mapping α :=
  upper.entries.foldl (fun m (k, x) => m.insert k x) lower

def map (f : α → β) (m : Mapping α) : Mapping β :=
  ⟨m.entries.map fun (k, x) => (k, f x), List.pairwise_map.mpr m.sorted⟩

end Mapping

end UrlRouter
