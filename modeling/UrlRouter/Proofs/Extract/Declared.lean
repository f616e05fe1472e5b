import UrlRouter.Extract.Reader
import UrlRouter.Proofs.Extract.Record

namespace UrlRouter.Extract

namespace Field

/-- The entry of the field can be read, if there is one. -/
def Readable (vs : Values) (f : Field Shape Extracted) : Prop :=
  ∀ v, vs.get? f.key = some v → ∃ x, f.shape.readValue v = .ok x

/-- The field has no entry and is not optional. -/
def Missing (vs : Values) (f : Field Shape Extracted) : Prop :=
  vs.get? f.key = none ∧ ∀ inner, f.shape ≠ .option inner

/-- A field is made of its entry. Without one it is none, if it is optional. -/
inductive Makes (vs : Values) (f : Field Shape Extracted) : String × Extracted → Prop where
  | present {v : Value} {x : Extracted} (h : vs.get? f.key = some v)
      (hx : f.shape.readValue v = .ok x) : Makes vs f (f.name, x)
  | absent {inner : Shape} (h : vs.get? f.key = none) (hs : f.shape = .option inner) :
      Makes vs f (f.name, .none)

variable {f : Field Shape Extracted} {vs : Values} {y : String × Extracted}

theorem Makes.readable (h : f.Makes vs y) : f.Readable vs := by
  intro v hv
  cases h with
  | present h hx =>
    rw [h] at hv
    cases hv
    exact ⟨_, hx⟩
  | absent h hs =>
    rw [h] at hv
    cases hv

theorem Makes.not_missing (h : f.Makes vs y) : ¬ f.Missing vs := by
  intro hm
  cases h with
  | present h hx =>
    rw [hm.1] at h
    cases h
  | absent h hs => exact hm.2 _ hs

theorem exists_makes_iff : (∃ y, f.Makes vs y) ↔ f.Readable vs ∧ ¬ f.Missing vs := by
  constructor
  · intro h
    obtain ⟨y, hy⟩ := h
    exact ⟨hy.readable, hy.not_missing⟩
  · intro h
    obtain ⟨hr, hm⟩ := h
    cases hv : vs.get? f.key with
    | some v =>
      obtain ⟨x, hx⟩ := hr v hv
      exact ⟨_, .present hv hx⟩
    | none =>
      obtain ⟨inner, hs⟩ : ∃ inner, f.shape = .option inner := by
        by_contra hn
        exact hm ⟨hv, fun inner hs => hn ⟨inner, hs⟩⟩
      exact ⟨_, .absent hv hs⟩

end Field

namespace Record

/-- A record whose fields have one key each, no two of them the same, and nothing which stands in for
an entry. Entries of which no field is made are passed over. -/
structure Declared (r : Record Shape Extracted) : Prop where
  lenient : r.strict = false
  keys : r.keys.Nodup
  aliases : ∀ f ∈ r.fields, f.aliases = []
  defaults : ∀ f ∈ r.fields, f.default = none

/-- Entries in any order which are those of the values for the fields of the record, and any others. -/
structure Visits (r : Record Shape Extracted) (vs : Values) (entries : List (String × Value)) :
    Prop where
  distinct : (entries.map Prod.fst).Nodup
  fields : ∀ f ∈ r.fields, entries.lookup f.key = vs.get? f.key

/-- What comes of reading a record. That an entry cannot be read is told even where a field is missing,
and of missing fields the first is told. -/
structure Outcome (r : Record Shape Extracted) (vs : Values) (result : Except Fault Extracted) :
    Prop where
  succeeds : (∃ x, result = .ok x) ↔
    (∀ f ∈ r.fields, f.Readable vs) ∧ ∀ f ∈ r.fields, ¬ f.Missing vs
  holds : ∀ x, result = .ok x ↔ ∃ ys, List.Forall₂ (Field.Makes vs) r.fields ys ∧ x = .record ys
  unreadable : (∃ f ∈ r.fields, ¬ f.Readable vs) → ∃ f ∈ r.fields, ∃ v fault,
    vs.get? f.key = some v ∧ f.shape.readValue v = .error fault ∧ result = .error fault
  missing : (∀ f ∈ r.fields, f.Readable vs) → ∀ front f back, r.fields = front ++ f :: back →
    f.Missing vs → (∀ g ∈ front, ¬ g.Missing vs) → result = .error (.missingField f.key)

variable {r : Record Shape Extracted} {vs : Values} {entries : List (String × Value)}
  {filled : List (String × Extracted)}

theorem Declared.field?_of_mem (hd : r.Declared) {f : Field Shape Extracted} (hf : f ∈ r.fields) :
    r.field? f.key = some f := by
  obtain ⟨g, hg⟩ := Option.isSome_iff_exists.mp (isSome_field? hf)
  obtain ⟨hm, hk⟩ := mem_of_field? hd.aliases hg
  rw [hg, List.inj_on_of_nodup_map hd.keys hm hf hk]

theorem Visits.get?_of_mem (h : r.Visits vs entries) (hd : r.Declared) {e : String × Value}
    (he : e ∈ entries) {f : Field Shape Extracted} (hf : r.field? e.1 = some f) :
    f ∈ r.fields ∧ vs.get? f.key = some e.2 := by
  obtain ⟨hm, hk⟩ := mem_of_field? hd.aliases hf
  refine ⟨hm, ?_⟩
  rw [← h.fields f hm, hk]
  exact (Mapping.lookup_eq_some_iff_mem h.distinct).mpr he

theorem settle_of_makes {f : Field Shape Extracted} (hd : f.default = none)
    (hl : filled.lookup f.key = (vs.get? f.key).bind fun v => (f.shape.readValue v).toOption)
    {y : String × Extracted} (h : f.Makes vs y) : settle Shape.absent? filled f = .ok y := by
  cases h with
  | present h hx => simp [settle, hl, h, hx, Except.toOption]
  | absent h hs => simp [settle, hl, h, hd, hs, Shape.absent?]

theorem settle_of_missing {f : Field Shape Extracted} (hd : f.default = none)
    (hl : filled.lookup f.key = (vs.get? f.key).bind fun v => (f.shape.readValue v).toOption)
    (hm : f.Missing vs) : settle Shape.absent? filled f = .error (.missingField f.key) := by
  have hs : f.shape.absent? = none := by
    cases hs : f.shape with
    | option inner => exact absurd hs (hm.2 inner)
    | _ => rfl
  simp [settle, hl, hm.1, hd, hs]

/-- Once all entries are read, the fields are settled one by one. -/
theorem Visits.exists_settled (h : r.Visits vs entries) (hd : r.Declared)
    (hr : ∀ f ∈ r.fields, f.Readable vs) :
    ∃ settled, Shape.readRecord r entries = r.fields.mapM settled ∧ ∀ f ∈ r.fields,
      (∀ y, f.Makes vs y → settled f = .ok y) ∧
      (f.Missing vs → settled f = .error (.missingField f.key)) := by
  have hx : ∀ e ∈ entries, ∀ f, r.field? e.1 = some f → ∃ y, f.shape.readValue e.2 = .ok y := by
    intro e he f hf
    obtain ⟨hm, hv⟩ := h.get?_of_mem hd he hf
    exact hr f hm e.2 hv
  obtain ⟨filled, hfill, hl⟩ := fill_of_reads hd.lenient hd.aliases h.distinct hx [] (by simp)
  refine ⟨settle Shape.absent? filled, ?_, ?_⟩
  · rw [Shape.readRecord, read, hfill]
    rfl
  · intro f hf
    have hlf : filled.lookup f.key =
        (vs.get? f.key).bind fun v => (f.shape.readValue v).toOption := by
      rw [hl, reading?, hd.field?_of_mem hf, h.fields f hf]
      rfl
    exact ⟨fun y hy => settle_of_makes (hd.defaults f hf) hlf hy,
      settle_of_missing (hd.defaults f hf) hlf⟩

theorem Visits.exists_read_error (h : r.Visits vs entries) (hd : r.Declared)
    (hr : ∃ f ∈ r.fields, ¬ f.Readable vs) :
    ∃ f ∈ r.fields, ∃ v fault, vs.get? f.key = some v ∧ f.shape.readValue v = .error fault ∧
      Shape.readRecord r entries = .error fault := by
  obtain ⟨f, hf, hr⟩ := hr
  cases hfill : fill Shape.readValue r [] entries with
  | error fault =>
    obtain ⟨e, he, g, hg, hx⟩ :=
      exists_of_fill_error hd.lenient hd.aliases h.distinct (by simp) hfill
    obtain ⟨hm, hv⟩ := h.get?_of_mem hd he hg
    refine ⟨g, hm, e.2, fault, hv, hx, ?_⟩
    rw [Shape.readRecord, read, hfill]
    rfl
  | ok filled =>
    exfalso
    apply hr
    intro v hv
    rw [← h.fields f hf] at hv
    exact reads_of_fill hfill (Mapping.mem_of_lookup hv) (hd.field?_of_mem hf)

theorem Visits.read_of_missing (h : r.Visits vs entries) (hd : r.Declared)
    (hr : ∀ f ∈ r.fields, f.Readable vs) {front back : List (Field Shape Extracted)}
    {f : Field Shape Extracted} (he : r.fields = front ++ f :: back) (hm : f.Missing vs)
    (hfront : ∀ g ∈ front, ¬ g.Missing vs) :
    Shape.readRecord r entries = .error (.missingField f.key) := by
  obtain ⟨settled, hread, hs⟩ := h.exists_settled hd hr
  rw [hread, he]
  apply mapM_eq_error
  · intro g hg
    have hgr : g ∈ r.fields := by simp [he, hg]
    obtain ⟨y, hy⟩ := Field.exists_makes_iff.mpr ⟨hr g hgr, hfront g hg⟩
    exact ⟨y, (hs g hgr).1 y hy⟩
  · exact (hs f (by simp [he])).2 hm

theorem exists_forall₂_makes_iff : (∃ ys, List.Forall₂ (Field.Makes vs) r.fields ys) ↔
    (∀ f ∈ r.fields, f.Readable vs) ∧ ∀ f ∈ r.fields, ¬ f.Missing vs := by
  simp only [exists_forall₂_iff, Field.exists_makes_iff, forall_and]

/-- Each field is settled in one way only, so what the fields are made of is all there is to say. -/
theorem Visits.read_eq_ok_iff (h : r.Visits vs entries) (hd : r.Declared)
    {ys : List (String × Extracted)} :
    Shape.readRecord r entries = .ok ys ↔ List.Forall₂ (Field.Makes vs) r.fields ys := by
  by_cases hr : ∀ f ∈ r.fields, f.Readable vs
  · obtain ⟨settled, hread, hs⟩ := h.exists_settled hd hr
    rw [hread, mapM_eq_ok_iff]
    apply forall₂_congr_of_mem
    intro f hf y
    constructor
    · intro hy
      by_cases hm : f.Missing vs
      · rw [(hs f hf).2 hm] at hy
        cases hy
      · obtain ⟨z, hz⟩ := Field.exists_makes_iff.mpr ⟨hr f hf, hm⟩
        rw [(hs f hf).1 z hz] at hy
        cases hy
        exact hz
    · exact (hs f hf).1 y
  · constructor
    · intro hy
      obtain ⟨f, hf, v, fault, hv, hx, hread⟩ := h.exists_read_error hd (by simpa using hr)
      rw [hread] at hy
      cases hy
    · intro hy
      exact absurd (exists_forall₂_makes_iff.mp ⟨ys, hy⟩).1 hr

theorem Visits.outcome (h : r.Visits vs entries) (hd : r.Declared) :
    r.Outcome vs ((Shape.readRecord r entries).map .record) := by
  have hok : ∀ x, (Shape.readRecord r entries).map Extracted.record = .ok x ↔
      ∃ ys, List.Forall₂ (Field.Makes vs) r.fields ys ∧ x = .record ys := by
    intro x
    simp only [map_eq_ok_iff, h.read_eq_ok_iff hd]
  refine ⟨?_, hok, ?_, ?_⟩
  · rw [← exists_forall₂_makes_iff]
    simp only [hok]
    constructor
    · intro hx
      obtain ⟨x, ys, hy, -⟩ := hx
      exact ⟨ys, hy⟩
    · intro hy
      obtain ⟨ys, hy⟩ := hy
      exact ⟨_, ys, hy, rfl⟩
  · intro hr
    obtain ⟨f, hf, v, fault, hv, hx, hread⟩ := h.exists_read_error hd hr
    exact ⟨f, hf, v, fault, hv, hx, by rw [hread]; rfl⟩
  · intro hr front f back he hm hfront
    rw [h.read_of_missing hd hr he hm hfront]
    rfl

theorem Visits.of_perm {ws : Values} (hp : entries.Perm ws.entries)
    (hw : ∀ f ∈ r.fields, ws.get? f.key = vs.get? f.key) : r.Visits vs entries := by
  have hn : (entries.map Prod.fst).Nodup := (hp.map Prod.fst).nodup_iff.mpr ws.nodup_keys
  refine ⟨hn, ?_⟩
  intro f hf
  rw [← hw f hf]
  ext v
  rw [Mapping.lookup_eq_some_iff_mem hn, hp.mem_iff, Mapping.mem_entries_iff]

/-- A record is made of the entries under its keys alone. Neither other entries nor the order in which
the entries were inserted and are visited has a say in whether it is made and of what. -/
theorem outcome_of_declared (hd : r.Declared) (vs : Values) :
    r.Outcome vs (vs.extract (.record r)) ∧
    (∀ visited, visited.Perm vs.entries →
      r.Outcome vs ((Shape.readRecord r visited).map .record)) ∧
    ∀ inserted : List (String × Value), (inserted.map Prod.fst).Nodup →
      (∀ f ∈ r.fields, ∀ v, (f.key, v) ∈ inserted ↔ vs.get? f.key = some v) →
      ∀ visited, visited.Perm (Mapping.ofList inserted).entries → ∀ x,
        (Shape.readRecord r visited).map .record = .ok x ↔ vs.extract (.record r) = .ok x := by
  have hvs : ∀ visited, visited.Perm vs.entries → r.Visits vs visited := by
    intro visited hp
    exact Visits.of_perm hp fun _ _ => rfl
  have hextract : r.Outcome vs (vs.extract (.record r)) := (hvs _ (.refl _)).outcome hd
  refine ⟨hextract, fun visited hp => (hvs visited hp).outcome hd, ?_⟩
  intro inserted hn hi visited hp x
  have hget : ∀ f ∈ r.fields, (Mapping.ofList inserted).get? f.key = vs.get? f.key := by
    intro f hf
    ext v
    rw [Mapping.get?_ofList_of_nodup hn, Mapping.lookup_eq_some_iff_mem hn, hi f hf]
  rw [((Visits.of_perm hp hget).outcome hd).holds, hextract.holds]

/-- Entries in three orders, of which one is of no field; and a number which is none, where the field
in front of it is missing. -/
theorem outcome_of_declared_params :
    ∃ r : Record Shape Extracted, r.Declared ∧ r.keys = ["id", "page"] ∧
      (Shape.readRecord r [("other", .int 7), ("id", .int 12), ("page", .text "4")]).map .record =
        .ok (Extracted.record
          [("id", .datum (.integer 12)), ("page", .some (.datum (.integer 4)))]) ∧
      Values.extract (.ofList [("page", .text "4")]) (.record r) = .error (.missingField "id") ∧
      ∃ f ∈ r.fields, ∃ v fault,
        (Mapping.ofList [("page", Value.text "two")]).get? f.key = some v ∧
        f.shape.readValue v = .error fault ∧
        (Shape.readRecord r [("page", .text "two")]).map Extracted.record = .error fault := by
  obtain ⟨r, hr⟩ : ∃ r : Record Shape Extracted, r = ⟨"Params",
      [⟨"id", "id", .scalar (.plain (.integer ⟨true, .w32⟩)), [], none⟩,
        ⟨"page", "page", .option (.scalar (.plain (.integer ⟨false, .w8⟩))), [], none⟩], false⟩ :=
    ⟨_, rfl⟩
  have hd : r.Declared := by
    subst hr
    exact ⟨rfl, by decide, by simp, by simp⟩
  have hinserted : ∀ f ∈ r.fields, ∀ v,
      (f.key, v) ∈ [("page", .text "4"), ("other", .int 7), ("id", .int 12)] ↔
        (Mapping.ofList [("id", Value.int 12), ("page", .text "4")]).get? f.key = some v := by
    have hid : (Mapping.ofList [("id", Value.int 12), ("page", .text "4")]).get? "id" =
        some (.int 12) := by decide
    have hpage : (Mapping.ofList [("id", Value.int 12), ("page", .text "4")]).get? "page" =
        some (.text "4") := by decide
    subst hr
    simp [hid, hpage, eq_comm]
  have hfull := (outcome_of_declared hd (.ofList [("id", .int 12), ("page", .text "4")])).2.2
    [("page", .text "4"), ("other", .int 7), ("id", .int 12)] (by decide) hinserted
    [("other", .int 7), ("id", .int 12), ("page", .text "4")] (by decide)
  have hmissing := (outcome_of_declared hd (.ofList [("page", .text "4")])).1.missing
  have hunreadable := ((outcome_of_declared hd (.ofList [("page", .text "two")])).2.1
    [("page", .text "two")] (by decide)).unreadable
  subst hr
  refine ⟨_, hd, rfl, (hfull _).mpr rfl, ?_, ?_⟩
  · refine hmissing ?_ [] _ _ rfl ⟨rfl, by simp⟩ (by simp)
    intro f hf v hv
    rcases List.mem_pair.mp hf with rfl | rfl
    · cases hv
    · cases hv
      exact ⟨_, rfl⟩
  · apply hunreadable
    refine ⟨_, List.mem_cons_of_mem _ List.mem_cons_self, ?_⟩
    intro h
    obtain ⟨x, hx⟩ := h (.text "two") rfl
    cases hx

end Record

end UrlRouter.Extract
