import UrlRouter.Extract.Reader
import UrlRouter.Proofs.Extract.Record
import UrlRouter.Proofs.Number.Numeral

namespace UrlRouter.Extract

variable {t : IntegerType} {n : Int64} {x : Extracted}

theorem readValue_integer_text {s : String} :
    Shape.readValue (.scalar (.plain (.integer t))) (.text s) = .ok x ↔
      ∃ m, t.parse? s = some m ∧ x = .datum (.integer m) := by
  simp only [Shape.readValue, Scalar.read, Plain.read]
  cases hp : t.parse? s with
  | none => simp [Except.map]
  | some m => simp [Except.map, eq_comm]

theorem readValue_integer_int :
    Shape.readValue (.scalar (.plain (.integer t))) (.int n) = .ok x ↔
      t.Holds n.toInt ∧ x = .datum (.integer n.toInt) := by
  simp only [Shape.readValue, Scalar.read, Plain.read, readInteger]
  by_cases h : t.Holds n.toInt
  · simp [h, Except.map, eq_comm]
  · simp [h, Except.map]

/-- What is read from a text into 64 bits is what a capture takes of it. -/
theorem readValue_i64_iff {s : String} :
    Shape.readValue (.scalar (.plain (.integer .i64))) (.text s) = .ok x ↔
      ∃ n, Value.Kind.int.read? s = some (.int n) ∧ x = .datum (.integer n.toInt) := by
  rw [readValue_integer_text]
  constructor
  · intro h
    obtain ⟨m, hm, hx⟩ := h
    obtain ⟨n, rfl⟩ := IntegerType.exists_toInt_of_parse? hm
    have hn := (IntegerType.parse?_eq_some_iff.mp hm).1
    exact ⟨n, Value.Kind.read?_int_iff_numeral.mpr ⟨n, hn, rfl⟩, hx⟩
  · intro h
    obtain ⟨n, hn, hx⟩ := h
    obtain ⟨-, m, hm, he⟩ := Value.Kind.read?_int_iff.mp hn
    cases he
    exact ⟨_, hm, hx⟩

/-- Integers are read as they are written or not at all: none is wrapped into the range of its type and
none is cut short. A capture takes exactly what is read into 64 bits, and takes every number back from
its own text. -/
theorem readValue_integer_exact (t : IntegerType) :
    (∀ s x, Shape.readValue (.scalar (.plain (.integer t))) (.text s) = .ok x ↔
      ∃ m ∈ t.range, Decimal.Numeral t.signed s.toList m ∧ x = .datum (.integer m)) ∧
    (∀ n x, Shape.readValue (.scalar (.plain (.integer t))) (.int n) = .ok x ↔
      n.toInt ∈ t.range ∧ x = .datum (.integer n.toInt)) ∧
    (∀ segment v, Value.Kind.int.read? segment = some v ↔
      ∃ n : Int64, Decimal.Numeral true segment.toList n.toInt ∧ v = .int n) ∧
    (∀ segment x, Shape.readValue (.scalar (.plain (.integer .i64))) (.text segment) = .ok x ↔
      ∃ n, Value.Kind.int.read? segment = some (.int n) ∧ x = .datum (.integer n.toInt)) ∧
    ∀ n, Value.Kind.int.read? (Value.int n).display = some (.int n) := by
  refine ⟨?_, ?_, ?_, ?_, Value.Kind.read?_display⟩
  · intro s x
    rw [readValue_integer_text]
    apply exists_congr
    intro m
    rw [IntegerType.parse?_eq_some_iff, and_assoc, and_left_comm]
  · intro n x
    rw [readValue_integer_int, IntegerType.holds_iff_mem_range]
  · intro segment v
    exact Value.Kind.read?_int_iff_numeral
  · intro segment x
    exact readValue_i64_iff

/-- A shape for one value: a scalar which is no float, as it is or within options and newtypes. -/
inductive Single : Shape → Prop where
  | scalar (s : Scalar) (h : ∀ t, s ≠ .float t) : Single (.scalar s)
  | option {inner : Shape} (h : Single inner) : Single (.option inner)
  | newtype {inner : Shape} (name : String) (h : Single inner) : Single (.newtype name inner)

/-- The text of a number is no word. -/
theorem repr_ne_of_letter {m : Int} {s : String} {c : Char} (hs : c ∈ s.toList)
    (hm : c ≠ '-') (hd : c.isDigit = false) : m.repr ≠ s := by
  intro he
  rw [← he] at hs
  rcases Decimal.mem_repr hs with h | h
  · exact hm h
  · rw [hd] at h
    cases h

theorem Plain.read_int_iff_display (p : Plain) (n : Int64) (d : Datum) :
    p.read (.int n) = .ok d ↔ p.read (.text (Value.int n).display) = .ok d := by
  cases p with
  | integer t =>
    simp only [Plain.read, readInteger, Value.display, IntegerType.parse?_repr]
    split
    · rfl
    · simp
  | bool =>
    have ht : n.toInt.repr ≠ "true" :=
      repr_ne_of_letter (c := 't') (by decide) (by decide) (by decide)
    have hf : n.toInt.repr ≠ "false" :=
      repr_ne_of_letter (c := 'f') (by decide) (by decide) (by decide)
    simp [Plain.read, Value.display, ht, hf]
  | text => rfl

theorem readNonzero_int_iff_display (t : IntegerType) (n : Int64) (x : Extracted) :
    readNonzero t (.int n) = .ok x ↔ readNonzero t (.text (Value.int n).display) = .ok x := by
  have hz : n.toInt = 0 ↔ n = 0 := by rw [← Int64.toInt_inj, Int64.toInt_zero]
  simp only [readNonzero, Value.display, IntegerType.parse?_repr]
  by_cases ht : t.Holds n.toInt
  · simp only [ht, true_and, if_true]
    by_cases hn : n = 0
    · simp [hn]
    · simp [hn, hz]
  · simp [ht]

theorem Scalar.read_int_iff_display {s : Scalar} (h : ∀ t, s ≠ .float t) (n : Int64)
    (x : Extracted) : s.read (.int n) = .ok x ↔ s.read (.text (Value.int n).display) = .ok x := by
  cases s with
  | plain p =>
    simp only [Scalar.read, map_eq_ok_iff, Plain.read_int_iff_display]
  | nonzero t => exact readNonzero_int_iff_display t n x
  | float t => exact absurd rfl (h t)
  | char => rfl
  | choice c => rfl

/-- A number which was captured and the same number in a query are all one to a field. -/
theorem Single.readValue_int_iff_display {shape : Shape} (h : Single shape) (n : Int64)
    (x : Extracted) :
    shape.readValue (.int n) = .ok x ↔ shape.readValue (.text (Value.int n).display) = .ok x := by
  induction h generalizing x with
  | scalar s h => exact Scalar.read_int_iff_display h n x
  | option _ ih => simp only [Shape.readValue, map_eq_ok_iff, ih]
  | newtype name _ ih => simp only [Shape.readValue, map_eq_ok_iff, ih]

/-- The largest byte, one more than it, and an enumeration whose keys are numbers. -/
theorem Single.readValue_int_iff_display_bounds :
    ∃ byte key : Shape, byte = .option (.newtype "Id" (.scalar (.nonzero ⟨false, .w8⟩))) ∧
      key = .newtype "Key" (.option (.scalar (.choice ⟨[⟨"MinusTwo", ["-2"], .unit⟩], none⟩))) ∧
      Single byte ∧ Single key ∧
      byte.readValue (.text "255") = .ok (.some (.newtype "Id" (.datum (.integer 255)))) ∧
      (∀ x, byte.readValue (.int 256) ≠ .ok x) ∧
      key.readValue (.int (-2)) = .ok (.newtype "Key" (.some (.variant "MinusTwo" .none))) := by
  obtain ⟨byte, hb⟩ : ∃ byte : Shape,
    byte = .option (.newtype "Id" (.scalar (.nonzero ⟨false, .w8⟩))) := ⟨_, rfl⟩
  obtain ⟨key, hk⟩ : ∃ key : Shape, key = .newtype "Key"
    (.option (.scalar (.choice ⟨[⟨"MinusTwo", ["-2"], .unit⟩], none⟩))) := ⟨_, rfl⟩
  have hbyte : Single byte := by
    rw [hb]
    exact .option (.newtype "Id" (.scalar _ (by simp)))
  have hkey : Single key := by
    rw [hk]
    exact .newtype "Key" (.option (.scalar _ (by simp)))
  refine ⟨byte, key, hb, hk, hbyte, hkey, ?_, ?_, ?_⟩
  · apply (hbyte.readValue_int_iff_display 255 _).mp
    rw [hb]
    rfl
  · intro x hx
    have hr := (hbyte.readValue_int_iff_display 256 x).mp hx
    rw [hb] at hr
    cases hr
  · apply (hkey.readValue_int_iff_display (-2) _).mpr
    rw [hk]
    rfl

end UrlRouter.Extract
