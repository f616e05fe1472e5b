import UrlRouter.Extract.Reader
import UrlRouter.Proofs.Mapping.Lookup

namespace UrlRouter.Extract

variable {α β ε : Type} {xs : List α} {ys : List β}

theorem map_eq_ok_iff {f : α → β} {x : Except ε α} {b : β} :
    x.map f = .ok b ↔ ∃ a, x = .ok a ∧ b = f a := by
  cases x with
  | error fault => simp [Except.map]
  | ok a => simp [Except.map, eq_comm]

theorem mapM_eq_ok_iff {f : α → Except ε β} :
    xs.mapM f = .ok ys ↔ List.Forall₂ (fun a b => f a = .ok b) xs ys := by
  induction xs generalizing ys with
  | nil => simp [pure, Except.pure, eq_comm]
  | cons a xs ih =>
    rw [List.mapM_cons]
    constructor
    · intro h
      cases ha : f a with
      | error fault =>
        rw [ha] at h
        cases h
      | ok b =>
        cases hxs : xs.mapM f with
        | error fault =>
          rw [ha, hxs] at h
          cases h
        | ok bs =>
          rw [ha, hxs] at h
          cases h
          exact .cons ha (ih.mp hxs)
    · intro h
      cases h with
      | cons ha h =>
        rw [ha, ih.mpr h]
        rfl

theorem mapM_eq_error {f : α → Except ε β} {front : List α} {a : α} (back : List α)
    {fault : ε} (hfront : ∀ b ∈ front, ∃ y, f b = .ok y) (ha : f a = .error fault) :
    (front ++ a :: back).mapM f = .error fault := by
  induction front with
  | nil =>
    rw [List.nil_append, List.mapM_cons, ha]
    rfl
  | cons b front ih =>
    obtain ⟨⟨y, hy⟩, hfront⟩ := List.forall_mem_cons.mp hfront
    rw [List.cons_append, List.mapM_cons, hy, ih hfront]
    rfl

theorem exists_forall₂_iff {R : α → β → Prop} :
    (∃ ys, List.Forall₂ R xs ys) ↔ ∀ a ∈ xs, ∃ b, R a b := by
  induction xs with
  | nil => simp
  | cons a xs ih =>
    rw [List.forall_mem_cons, ← ih]
    constructor
    · intro h
      obtain ⟨ys, h⟩ := h
      cases h with
      | cons ha h => exact ⟨⟨_, ha⟩, _, h⟩
    · intro h
      obtain ⟨⟨b, hb⟩, bs, hbs⟩ := h
      exact ⟨b :: bs, .cons hb hbs⟩

theorem forall₂_congr_of_mem {R S : α → β → Prop}
    (h : ∀ a ∈ xs, ∀ b, R a b ↔ S a b) : List.Forall₂ R xs ys ↔ List.Forall₂ S xs ys := by
  induction xs generalizing ys with
  | nil => simp
  | cons a xs ih =>
    obtain ⟨ha, h⟩ := List.forall_mem_cons.mp h
    simp only [List.forall₂_cons_left_iff, ha, ih h]

namespace Record

variable {σ ρ : Type} {readItem : σ → Value → Except Fault ρ} {r : Record σ ρ}
  {entries : List (String × Value)} {x : String → ρ}

theorem mem_of_field? {k : String} {f : Field σ ρ} (ha : ∀ f ∈ r.fields, f.aliases = [])
    (h : r.field? k = some f) : f ∈ r.fields ∧ f.key = k := by
  have hm := List.mem_of_find?_eq_some h
  have hk := List.find?_some h
  have hk : k = f.key := by simpa [Field.answersTo, ha f hm] using hk
  exact ⟨hm, hk.symm⟩

theorem isSome_field? {f : Field σ ρ} (h : f ∈ r.fields) : (r.field? f.key).isSome := by
  rw [field?, List.find?_isSome]
  exact ⟨f, h, by simp [Field.answersTo]⟩

theorem fill_cons_of_none {k : String} {v : Value} (done : List (String × ρ))
    (hs : r.strict = false) (h : r.field? k = none) :
    fill readItem r done ((k, v) :: entries) = fill readItem r done entries := by
  simp [fill, h, hs]

theorem fill_cons_of_some {k : String} {v : Value} {f : Field σ ρ} {y : ρ}
    {done : List (String × ρ)} (h : r.field? k = some f) (hd : done.lookup f.key = none)
    (hy : readItem f.shape v = .ok y) :
    fill readItem r done ((k, v) :: entries) = fill readItem r ((f.key, y) :: done) entries := by
  simp [fill, h, hd, hy]

/-- What is done for one key is not done for the keys still to come. -/
theorem lookup_cons_of_not_mem {j : String} {keys : List String} {done : List (String × ρ)}
    (hj : j ∉ keys) (hd : ∀ k ∈ keys, done.lookup k = none) (y : ρ) :
    ∀ k ∈ keys, ((j, y) :: done).lookup k = none := by
  intro k hk
  have hne : k ≠ j := by
    intro he
    subst he
    exact hj hk
  rw [Mapping.lookup_cons_eq, if_neg hne, hd k hk]

/-- What is made of the entry under a key, if the record has a field for it. -/
def reading? (readItem : σ → Value → Except Fault ρ) (r : Record σ ρ)
    (entries : List (String × Value)) (k : String) : Option ρ :=
  (r.field? k).bind fun f => (entries.lookup k).bind fun v => (readItem f.shape v).toOption

theorem reading?_cons_of_ne {j k : String} (h : k ≠ j) (v : Value) :
    reading? readItem r ((j, v) :: entries) k = reading? readItem r entries k := by
  rw [reading?, Mapping.lookup_cons_eq, if_neg h, reading?]

theorem reading?_of_mem (hn : (entries.map Prod.fst).Nodup) {k : String} {v : Value} {f : Field σ ρ}
    {y : ρ} (hf : r.field? k = some f) (he : (k, v) ∈ entries) (hy : readItem f.shape v = .ok y) :
    reading? readItem r entries k = some y := by
  rw [← Mapping.lookup_eq_some_iff_mem hn] at he
  simp [reading?, hf, he, hy, Except.toOption]

/-- If every entry of a field is read well, so are all together, and the entries of which no field is
made leave no trace. -/
theorem fill_of_reads (hs : r.strict = false) (ha : ∀ f ∈ r.fields, f.aliases = [])
    (hn : (entries.map Prod.fst).Nodup)
    (hx : ∀ e ∈ entries, ∀ f, r.field? e.1 = some f → ∃ y, readItem f.shape e.2 = .ok y)
    (done : List (String × ρ)) (hd : ∀ k ∈ entries.map Prod.fst, done.lookup k = none) :
    ∃ filled, fill readItem r done entries = .ok filled ∧
      ∀ k, filled.lookup k = (done.lookup k).or (reading? readItem r entries k) := by
  induction entries generalizing done with
  | nil => exact ⟨done, rfl, fun k => by cases r.field? k <;> simp [reading?]⟩
  | cons e entries ih =>
    obtain ⟨j, v⟩ := e
    have hnj := hn
    rw [List.map_cons, List.nodup_cons] at hn
    rw [List.forall_mem_cons] at hx
    rw [List.map_cons, List.forall_mem_cons] at hd
    obtain ⟨hj, hn⟩ := hn
    obtain ⟨hv, hx⟩ := hx
    obtain ⟨hdj, hd⟩ := hd
    cases hf : r.field? j with
    | none =>
      obtain ⟨filled, hfill, hl⟩ := ih hn hx done hd
      refine ⟨filled, by rw [fill_cons_of_none done hs hf, hfill], ?_⟩
      intro k
      by_cases hk : k = j
      · subst hk
        simp [hl, reading?, hf]
      · rw [hl, reading?_cons_of_ne hk]
    | some f =>
      obtain ⟨-, rfl⟩ := mem_of_field? ha hf
      obtain ⟨y, hy⟩ := hv f hf
      obtain ⟨filled, hfill, hl⟩ := ih hn hx _ (lookup_cons_of_not_mem hj hd y)
      refine ⟨filled, by rw [fill_cons_of_some hf hdj hy, hfill], ?_⟩
      intro k
      rw [hl, Mapping.lookup_cons_eq]
      by_cases hk : k = f.key
      · subst hk
        rw [if_pos rfl, reading?_of_mem hnj hf List.mem_cons_self hy, hdj]
        rfl
      · rw [if_neg hk, reading?_cons_of_ne hk]

/-- There is no other reason for a lenient record to fail at an entry than that it cannot be read. -/
theorem exists_of_fill_error (hs : r.strict = false) (ha : ∀ f ∈ r.fields, f.aliases = [])
    (hn : (entries.map Prod.fst).Nodup) {done : List (String × ρ)}
    (hd : ∀ k ∈ entries.map Prod.fst, done.lookup k = none) {fault : Fault}
    (h : fill readItem r done entries = .error fault) :
    ∃ e ∈ entries, ∃ f, r.field? e.1 = some f ∧ readItem f.shape e.2 = .error fault := by
  induction entries generalizing done with
  | nil => cases h
  | cons e entries ih =>
    obtain ⟨j, v⟩ := e
    rw [List.map_cons, List.nodup_cons] at hn
    rw [List.map_cons, List.forall_mem_cons] at hd
    obtain ⟨hj, hn⟩ := hn
    obtain ⟨hdj, hd⟩ := hd
    cases hf : r.field? j with
    | none =>
      rw [fill_cons_of_none done hs hf] at h
      obtain ⟨e, he, hr⟩ := ih hn hd h
      exact ⟨e, List.mem_cons_of_mem _ he, hr⟩
    | some f =>
      obtain ⟨-, rfl⟩ := mem_of_field? ha hf
      cases hy : readItem f.shape v with
      | error other =>
        have he : other = fault := by simpa [fill, hf, hdj, hy] using h
        subst he
        exact ⟨_, List.mem_cons_self, f, hf, hy⟩
      | ok y =>
        rw [fill_cons_of_some hf hdj hy] at h
        obtain ⟨e, he, hr⟩ := ih hn (lookup_cons_of_not_mem hj hd y) h
        exact ⟨e, List.mem_cons_of_mem _ he, hr⟩

/-- A record is read if each of its fields has an entry which is read well, whatever else there is. -/
theorem read_of_reads (absent? : σ → Option ρ) (x : String → ρ) (hs : r.strict = false)
    (ha : ∀ f ∈ r.fields, f.aliases = []) (hn : (entries.map Prod.fst).Nodup)
    (hx : ∀ f ∈ r.fields, ∃ v, (f.key, v) ∈ entries ∧ readItem f.shape v = .ok (x f.key)) :
    r.read readItem absent? entries = .ok (r.fields.map fun f => (f.name, x f.key)) := by
  have hread : ∀ e ∈ entries, ∀ f, r.field? e.1 = some f →
      readItem f.shape e.2 = .ok (x e.1) := by
    rintro ⟨k, v⟩ he f hf
    obtain ⟨hm, rfl⟩ := mem_of_field? ha hf
    obtain ⟨w, hw, hr⟩ := hx f hm
    rw [← Mapping.lookup_eq_some_iff_mem hn] at he hw
    rw [he] at hw
    cases hw
    exact hr
  obtain ⟨filled, hfill, hl⟩ :=
    fill_of_reads hs ha hn (fun e he f hf => ⟨_, hread e he f hf⟩) [] (by simp)
  have hsettle : ∀ f ∈ r.fields, settle absent? filled f = .ok (f.name, x f.key) := by
    intro f hf
    obtain ⟨v, hv, -⟩ := hx f hf
    obtain ⟨g, hg⟩ := Option.isSome_iff_exists.mp (isSome_field? hf)
    simp [settle, hl, reading?_of_mem hn hg hv (hread _ hv g hg)]
  rw [read, hfill]
  refine mapM_eq_ok_iff.mpr ?_
  rw [List.forall₂_map_right_iff, List.forall₂_same]
  exact hsettle

/-- A step over an entry which succeeds has read it, unless no field is made of it. -/
theorem exists_fill_of_cons {k : String} {v : Value} {done filled : List (String × ρ)}
    (h : fill readItem r done ((k, v) :: entries) = .ok filled) :
    ∃ next, fill readItem r next entries = .ok filled ∧
      ∀ f, r.field? k = some f → ∃ y, readItem f.shape v = .ok y := by
  unfold fill at h
  cases hk : r.field? k with
  | none =>
    simp only [hk] at h
    split at h
    · cases h
    · exact ⟨done, h, fun f hf => nomatch hf⟩
  | some g =>
    simp only [hk] at h
    split at h
    · cases h
    · cases hv : readItem g.shape v with
      | error fault =>
        rw [hv] at h
        cases h
      | ok y =>
        rw [hv] at h
        refine ⟨_, h, ?_⟩
        intro f hf
        cases hf
        exact ⟨y, hv⟩

/-- No entry of a field is passed over, so a record which is read has no entry which cannot be. -/
theorem reads_of_fill {done filled : List (String × ρ)}
    (h : fill readItem r done entries = .ok filled) {k : String} {v : Value} {f : Field σ ρ}
    (he : (k, v) ∈ entries) (hf : r.field? k = some f) : ∃ y, readItem f.shape v = .ok y := by
  induction entries generalizing done with
  | nil => simp at he
  | cons e entries ih =>
    obtain ⟨next, h, hr⟩ := exists_fill_of_cons h
    rcases List.mem_cons.mp he with rfl | he
    · exact hr f hf
    · exact ih h he

theorem reads_of_read {absent? : σ → Option ρ} {fs : List (String × ρ)}
    (h : r.read readItem absent? entries = .ok fs) {k : String} {v : Value} {f : Field σ ρ}
    (he : (k, v) ∈ entries) (hf : r.field? k = some f) : ∃ y, readItem f.shape v = .ok y := by
  unfold read at h
  cases hfill : fill readItem r [] entries with
  | error fault =>
    rw [hfill] at h
    cases h
  | ok filled => exact reads_of_fill hfill he hf

end Record

end UrlRouter.Extract
