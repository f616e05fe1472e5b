import UrlRouter.Extract.Reader
import UrlRouter.Proofs.Mapping.Lookup

namespace UrlRouter.Extract

variable {α β : Type} {P : Fault → Prop}

/-- The faults which `x` can come to are among those of `P`. -/
def FailsIn (P : Fault → Prop) (x : Except Fault α) : Prop :=
  ∀ fault, x = .error fault → P fault

theorem FailsIn.ok (a : α) : FailsIn P (.ok a) := by
  intro fault h
  cases h

theorem FailsIn.error {fault : Fault} (h : P fault) : FailsIn P (.error fault : Except Fault α) := by
  intro other he
  cases he
  exact h

theorem FailsIn.map {x : Except Fault α} (h : FailsIn P x) (f : α → β) : FailsIn P (x.map f) := by
  cases x with
  | ok a => exact .ok (f a)
  | error fault => exact .error (h fault rfl)

theorem FailsIn.bind {x : Except Fault α} {f : α → Except Fault β} (h : FailsIn P x)
    (hf : ∀ a, FailsIn P (f a)) : FailsIn P (x >>= f) := by
  cases x with
  | ok a => exact hf a
  | error fault => exact .error (h fault rfl)

theorem FailsIn.mapM {xs : List α} {f : α → Except Fault β} (h : ∀ a ∈ xs, FailsIn P (f a)) :
    FailsIn P (xs.mapM f) := by
  induction xs with
  | nil => exact .ok []
  | cons a xs ih =>
    obtain ⟨ha, hxs⟩ := List.forall_mem_cons.mp h
    rw [List.mapM_cons]
    exact ha.bind fun b => (ih hxs).bind fun bs => .ok (b :: bs)

/-- A fault of reading some of these values, not one of the target. Only a text is unparsable, and
the fault names the very text. -/
def Fault.Of (values : List Value) : Fault → Prop
  | .wrongTarget _ => False
  | .unparsable text _ => .text text ∈ values
  | _ => True

theorem Fault.Of.kind_ne {values : List Value} {fault : Fault} (h : fault.Of values) :
    fault.kind ≠ .wrongTarget := by
  cases fault with
  | wrongTarget target => exact h.elim
  | _ => simp [kind]

theorem FailsIn.of_mem {x : Except Fault α} {v : Value} {values : List Value}
    (h : FailsIn (Fault.Of [v]) x) (hv : v ∈ values) : FailsIn (Fault.Of values) x := by
  intro fault he
  have hf := h fault he
  cases fault with
  | unparsable text target =>
    cases List.mem_singleton.mp hf
    exact hv
  | wrongTarget target => exact hf
  | _ => trivial

theorem readInteger_failsIn (t : IntegerType) (n : Int64) (v : Value) :
    FailsIn (Fault.Of [v]) (readInteger t n) := by
  rw [readInteger]
  split
  · exact .ok _
  · exact .error trivial

theorem Plain.read_failsIn (p : Plain) (v : Value) : FailsIn (Fault.Of [v]) (p.read v) := by
  cases p with
  | integer t =>
    cases v with
    | int n => exact readInteger_failsIn t n _
    | text s =>
      rw [Plain.read]
      split
      · exact .ok _
      · exact .error List.mem_cons_self
  | bool =>
    cases v with
    | int n => exact .error trivial
    | text s =>
      rw [Plain.read]
      split
      · exact .ok _
      · split
        · exact .ok _
        · exact .error List.mem_cons_self
  | text => exact .ok _

theorem Plain.readAsIs_failsIn (p : Plain) (v : Value) :
    FailsIn (Fault.Of [v]) (p.readAsIs v) := by
  fun_cases Plain.readAsIs p v with
  | case1 t n => exact readInteger_failsIn t n _
  | case2 s => exact .ok _
  | case3 => exact .error trivial

theorem readNonzero_failsIn (t : IntegerType) (v : Value) :
    FailsIn (Fault.Of [v]) (readNonzero t v) := by
  cases v with
  | int n =>
    rw [readNonzero]
    split
    · exact .ok _
    · exact .error trivial
  | text s =>
    rw [readNonzero]
    split
    · split
      · exact .ok _
      · exact .error trivial
    · exact .error List.mem_cons_self

theorem Choice.read_failsIn (c : Choice) (key : String) (v : Value) :
    FailsIn (Fault.Of [v]) (c.read key) := by
  rw [Choice.read]
  split
  · split
    · exact .ok _
    all_goals exact .error trivial
  · split
    · exact .ok _
    · exact .error trivial

theorem Scalar.read_failsIn (s : Scalar) (v : Value) : FailsIn (Fault.Of [v]) (s.read v) := by
  cases s with
  | plain p => exact (p.read_failsIn v).map _
  | nonzero t => exact readNonzero_failsIn t v
  | float t =>
    cases v with
    | int n => exact .ok _
    | text s =>
      rw [Scalar.read, readFloat]
      split
      · exact .ok _
      · exact .error List.mem_cons_self
  | char =>
    rw [Scalar.read, readChar]
    split
    · exact .ok _
    · exact .error trivial
  | choice c => exact c.read_failsIn v.display v

theorem readUntagged_failsIn (name : String) (v : Value) (variants : List (String × Plain)) :
    FailsIn (Fault.Of [v]) (readUntagged name v variants) := by
  induction variants with
  | nil => exact .error trivial
  | cons variant variants ih =>
    rw [readUntagged]
    split
    · exact .ok _
    · exact ih

theorem readBytes_failsIn (s : String) (v : Value) : FailsIn (Fault.Of [v]) (readBytes s) := by
  rw [readBytes]
  split
  · exact .error trivial
  · exact .ok _

/-- A single value is never refused for the sake of the target. -/
theorem Shape.readValue_failsIn : ∀ (shape : Shape) (v : Value),
    FailsIn (Fault.Of [v]) (shape.readValue v)
  | .scalar s, v => s.read_failsIn v
  | .option inner, v => (readValue_failsIn inner v).map _
  | .newtype _ inner, v => (readValue_failsIn inner v).map _
  | .bytes, .int _ => .error trivial
  | .bytes, .text s => readBytes_failsIn s _
  | .untagged name variants, v => readUntagged_failsIn name v variants
  | .identifier, _ | .anything, _ | .ignored, _ => .ok _
  | .unsupported _, _ | .unit, _ | .marker _, _ | .sequence, _ | .tuple _, _ | .namedTuple _, _
  | .map _, _ | .take _, _ | .record _, _ | .flattened _ _ _, _ | .tagged _ _ _, _ =>
    .error trivial

namespace Record

variable {σ ρ : Type} {values : List Value} {readItem : σ → Value → Except Fault ρ}

theorem fill_failsIn (h : ∀ s v, FailsIn (Fault.Of [v]) (readItem s v)) (r : Record σ ρ)
    {entries : List (String × Value)} (hs : ∀ e ∈ entries, e.2 ∈ values)
    (done : List (String × ρ)) :
    FailsIn (Fault.Of values) (fill readItem r done entries) := by
  induction entries generalizing done with
  | nil => exact .ok done
  | cons e entries ih =>
    obtain ⟨hv, hs⟩ := List.forall_mem_cons.mp hs
    rw [fill]
    split
    · split
      · exact .error trivial
      · exact ih hs done
    · rename_i f _
      split
      · exact .error trivial
      · split
        · rename_i fault hread
          exact .error ((h f.shape e.2).of_mem hv fault hread)
        · exact ih hs _

theorem read_failsIn (h : ∀ s v, FailsIn (Fault.Of [v]) (readItem s v)) (absent? : σ → Option ρ)
    (r : Record σ ρ) {entries : List (String × Value)} (hs : ∀ e ∈ entries, e.2 ∈ values) :
    FailsIn (Fault.Of values) (r.read readItem absent? entries) := by
  refine (fill_failsIn h r hs []).bind fun done => .mapM fun f _ => ?_
  rw [settle]
  split
  · exact .ok _
  · exact .error trivial

end Record

variable {values : List Value} {entries : List (String × Value)}

theorem Remainder.read_failsIn (rest : Remainder) (hs : ∀ e ∈ entries, e.2 ∈ values) :
    FailsIn (Fault.Of values) (rest.read entries) := by
  cases rest with
  | map p =>
    refine FailsIn.bind (.mapM fun e he => ?_) fun xs => .ok _
    exact ((p.readAsIs_failsIn e.2).of_mem (hs e he)).bind fun d => .ok _
  | record r =>
    exact (Record.read_failsIn Plain.readAsIs_failsIn _ r hs).bind fun xs => .ok _

theorem TaggedVariant.read_failsIn (t : TaggedVariant) (hs : ∀ e ∈ entries, e.2 ∈ values) :
    FailsIn (Fault.Of values) (t.read entries) := by
  rw [TaggedVariant.read]
  split
  · exact .ok _
  · exact (Record.read_failsIn Plain.readAsIs_failsIn _ _ hs).map _

namespace Shape

theorem readFlattened_failsIn (own : Record Shape Extracted) (restName : String)
    (rest : Remainder) (hs : ∀ e ∈ entries, e.2 ∈ values) :
    FailsIn (Fault.Of values) (readFlattened own restName rest entries) := by
  refine (Record.read_failsIn readValue_failsIn _ own hs).bind fun fields => ?_
  refine (rest.read_failsIn ?_).bind fun others => .ok _
  intro e he
  exact hs e (List.mem_of_mem_filter he)

theorem readTagged_failsIn (tag : String) (variants : List TaggedVariant) (vs : Values) :
    FailsIn (Fault.Of (vs.entries.map Prod.snd)) (readTagged tag variants vs) := by
  rw [readTagged]
  split
  · exact .error trivial
  · split
    · exact .error trivial
    · refine TaggedVariant.read_failsIn _ ?_
      intro e he
      exact List.mem_map_of_mem (List.mem_of_mem_filter he)

/-- The shapes which no mapping can be made into. -/
inductive Mapless : Shape → Prop where
  | scalar (s : Scalar) : Mapless (.scalar s)
  | identifier : Mapless .identifier
  | bytes : Mapless .bytes
  | sequence : Mapless .sequence
  | tuple (size : Nat) : Mapless (.tuple size)
  | namedTuple (name : String) : Mapless (.namedTuple name)
  | option {inner : Shape} (h : Mapless inner) : Mapless (.option inner)
  | newtype (name : String) {inner : Shape} (h : Mapless inner) : Mapless (.newtype name inner)

theorem Mapless.exists_wrongTarget {shape : Shape} (h : shape.Mapless) (vs : Values) :
    ∃ target, shape.read vs = .error (.wrongTarget target) := by
  induction h with
  | option h ih =>
    obtain ⟨target, ht⟩ := ih
    exact ⟨target, by rw [Shape.read, ht]; rfl⟩
  | newtype name h ih =>
    obtain ⟨target, ht⟩ := ih
    exact ⟨target, by rw [Shape.read, ht]; rfl⟩
  | scalar | identifier | bytes | sequence | tuple | namedTuple => exact ⟨_, rfl⟩

theorem readMap_failsIn (inner : Shape) (hs : ∀ e ∈ entries, e.2 ∈ values) :
    FailsIn (Fault.Of values)
      (entries.mapM fun (key, v) => do return (key, ← inner.readValue v)) := by
  refine .mapM fun e he => ?_
  exact ((inner.readValue_failsIn e.2).of_mem (hs e he)).bind fun x => .ok _

theorem read_failsIn_of_not_mapless (vs : Values) : ∀ {shape : Shape}, ¬ shape.Mapless →
    FailsIn (Fault.Of (vs.entries.map Prod.snd)) (shape.read vs)
  | .option inner, h => (read_failsIn_of_not_mapless vs fun hi => h (.option hi)).map _
  | .newtype name inner, h =>
    (read_failsIn_of_not_mapless vs fun hi => h (.newtype name hi)).map _
  | .map inner, _ => (readMap_failsIn inner fun _ => List.mem_map_of_mem).bind fun _ => .ok _
  | .take n, _ => by
    rw [Shape.read]
    split
    · exact .error trivial
    · exact .ok _
  | .record r, _ =>
    (Record.read_failsIn readValue_failsIn _ r fun _ => List.mem_map_of_mem).map _
  | .flattened own restName rest, _ =>
    readFlattened_failsIn own restName rest fun _ => List.mem_map_of_mem
  | .tagged _ tag variants, _ => readTagged_failsIn tag variants vs
  | .unsupported _, _ | .untagged _ _, _ => .error trivial
  | .anything, _ | .ignored, _ | .unit, _ | .marker _, _ => .ok _
  | .scalar s, h => absurd (.scalar s) h
  | .identifier, h => absurd .identifier h
  | .bytes, h => absurd .bytes h
  | .sequence, h => absurd .sequence h
  | .tuple size, h => absurd (.tuple size) h
  | .namedTuple name, h => absurd (.namedTuple name) h

end Shape

end UrlRouter.Extract

namespace UrlRouter.Values

open Extract

variable {vs : Values} {shape : Shape}

/-- That the target is wrong is known before there are any values, and it comes before all that may be
wrong with them. -/
theorem extract_wrongTarget_iff :
    (∃ fault, vs.extract shape = .error fault ∧ fault.kind = .wrongTarget) ↔ shape.Mapless := by
  constructor
  · rintro ⟨fault, h, hk⟩
    by_contra hm
    exact (Shape.read_failsIn_of_not_mapless vs hm fault h).kind_ne hk
  · intro hm
    obtain ⟨target, ht⟩ := hm.exists_wrongTarget vs
    exact ⟨.wrongTarget target, ht, rfl⟩

/-- What is said to be no number or no truth value is a text among the values, and never a number. -/
theorem exists_get?_of_unparsable {text target : String}
    (h : vs.extract shape = .error (.unparsable text target)) :
    ∃ k, vs.get? k = some (.text text) := by
  by_cases hm : shape.Mapless
  · obtain ⟨other, ho⟩ := hm.exists_wrongTarget vs
    cases h.symm.trans ho
  · have hf : Value.text text ∈ vs.entries.map Prod.snd :=
      Shape.read_failsIn_of_not_mapless vs hm _ h
    obtain ⟨⟨k, v⟩, he, rfl⟩ := List.mem_map.mp hf
    exact ⟨k, (Mapping.mem_entries_iff vs).mp he⟩

end UrlRouter.Values
