import UrlRouter.Number.Integer
import UrlRouter.Pattern

namespace UrlRouter

namespace Decimal

theorem natural?_toDigits (n : Nat) : natural? (Nat.toDigits 10 n) = some n := by
  have hd : (Nat.toDigits 10 n).all Char.isDigit = true :=
    List.all_eq_true.mpr fun c hc => Nat.isDigit_of_mem_toDigits (by decide) (by decide) hc
  simp [natural?, Nat.toDigits_ne_nil, hd]

/-- A text of digits is read without a sign, since neither sign is a digit. -/
theorem integer?_of_digits {cs : List Char} (signed : Bool) (h : ∀ c ∈ cs, c.isDigit) :
    integer? signed cs = (natural? cs).map Int.ofNat := by
  cases cs with
  | nil => rfl
  | cons c cs =>
    have hc : c.isDigit = true := h c List.mem_cons_self
    have hplus : c ≠ '+' := by
      intro he
      subst he
      exact absurd hc (by decide)
    have hminus : c ≠ '-' := by
      intro he
      subst he
      exact absurd hc (by decide)
    simp [integer?, hplus, hminus]

theorem toList_repr_of_nonneg {n : Int} (h : 0 ≤ n) :
    n.repr.toList = Nat.toDigits 10 n.toNat := by
  simp [Int.repr_eq_if, h]

theorem toList_repr_of_neg {n : Int} (h : n < 0) :
    n.repr.toList = '-' :: Nat.toDigits 10 (-n).toNat := by
  simp [Int.repr_eq_if, Int.not_le.mpr h]

/-- What a number is written as is read as that number, but for a minus where there is none. -/
theorem integer?_repr (signed : Bool) (n : Int) :
    integer? signed n.repr.toList = if signed = true ∨ 0 ≤ n then some n else none := by
  by_cases h : 0 ≤ n
  · rw [toList_repr_of_nonneg h, integer?_of_digits signed fun c hc =>
      Nat.isDigit_of_mem_toDigits (by decide) (by decide) hc, natural?_toDigits]
    simp [h, Int.toNat_of_nonneg h]
  · rw [toList_repr_of_neg (by omega)]
    cases signed with
    | false => simp [integer?, h]
    | true =>
      have hr : integer? true ('-' :: Nat.toDigits 10 (-n).toNat) =
          some (-((-n).toNat : Int)) := by
        simp only [integer?, natural?_toDigits]
        rfl
      rw [hr, Int.toNat_of_nonneg (by omega), Int.neg_neg]
      rfl

/-- A number is written with digits and perhaps a sign, so never with a mark of a url. -/
theorem mem_repr {n : Int} {c : Char} (h : c ∈ n.repr.toList) : c = '-' ∨ c.isDigit := by
  by_cases hn : 0 ≤ n
  · rw [toList_repr_of_nonneg hn] at h
    exact .inr (Nat.isDigit_of_mem_toDigits (by decide) (by decide) h)
  · rw [toList_repr_of_neg (by omega)] at h
    rcases List.mem_cons.mp h with rfl | h
    · exact .inl rfl
    · exact .inr (Nat.isDigit_of_mem_toDigits (by decide) (by decide) h)

theorem repr_ne_empty (n : Int) : n.repr ≠ "" := by
  intro h
  have hi := integer?_repr true n
  rw [h] at hi
  cases hi

end Decimal

namespace IntegerType

theorem holds_toInt (n : Int64) : i64.Holds n.toInt := by
  have hl := Int64.le_toInt n
  have hh := Int64.toInt_lt n
  simp only [Holds, low, high, i64, Width.bits, if_true]
  omega

theorem parse?_repr (t : IntegerType) (n : Int) :
    t.parse? n.repr = if t.Holds n then some n else none := by
  have hn : t.Holds n → t.signed = true ∨ 0 ≤ n := by
    intro h
    have hlow := h.1
    unfold low at hlow
    split at hlow
    · exact .inl ‹_›
    · exact .inr hlow
  rw [parse?, Decimal.integer?_repr]
  by_cases h : t.Holds n
  · simp [hn h, h]
  · split
    · simp [h]
    · simp

/-- What is parsed into 64 bits is a number of 64 bits. -/
theorem exists_toInt_of_parse? {s : String} {m : Int} (h : i64.parse? s = some m) :
    ∃ n : Int64, n.toInt = m := by
  obtain ⟨-, hm⟩ := Option.filter_eq_some_iff.mp h
  have hm : i64.Holds m := by simpa using hm
  simp only [Holds, low, high, i64, Width.bits, if_true] at hm
  exact ⟨.ofInt m, Int64.toInt_ofInt_of_le (by omega) (by omega)⟩

end IntegerType

theorem Value.Kind.read?_int_iff {segment : String} {v : Value} :
    int.read? segment = some v ↔ segment ≠ "" ∧
      ∃ n : Int64, IntegerType.i64.parse? segment = some n.toInt ∧ v = .int n := by
  by_cases h : segment = ""
  · simp [read?, h]
  · simp only [read?, String.isEmpty_iff, h, if_false, Option.map_eq_some_iff, ne_eq,
      not_false_eq_true, true_and]
    constructor
    · intro h
      obtain ⟨m, hm, hv⟩ := h
      obtain ⟨n, rfl⟩ := IntegerType.exists_toInt_of_parse? hm
      rw [Int64.ofInt_toInt] at hv
      exact ⟨n, hm, hv.symm⟩
    · intro h
      obtain ⟨n, hn, hv⟩ := h
      exact ⟨n.toInt, hn, by rw [Int64.ofInt_toInt, hv]⟩

/-- A number which was captured is captured again from its own text. -/
theorem Value.Kind.read?_display (n : Int64) :
    Value.Kind.int.read? (Value.int n).display = some (.int n) := by
  have hn : n.toInt.repr.isEmpty = false := by
    simpa using Decimal.repr_ne_empty n.toInt
  simp [Value.Kind.read?, Value.display, hn, IntegerType.parse?_repr, IntegerType.holds_toInt]

end UrlRouter
