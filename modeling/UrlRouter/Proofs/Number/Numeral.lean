import Mathlib.Algebra.Order.Ring.Int
import Mathlib.Data.List.Induction
import Mathlib.Data.Set.Basic
import UrlRouter.Proofs.Number.Decimal

namespace UrlRouter

namespace Decimal

/-- ASCII digits and the number they stand for, in which each digit counts ten times as much as the
one behind it. -/
inductive Digits : List Char → Nat → Prop where
  | single {d : Nat} (hd : d < 10) : Digits [d.digitChar] d
  | concat {cs : List Char} {n d : Nat} (h : Digits cs n) (hd : d < 10) :
      Digits (cs ++ [d.digitChar]) (10 * n + d)

/-- The ways to write a number. Zeros in front of it change nothing, any number may have a plus, and
only where numbers are signed there is a minus, even of a zero. -/
inductive Numeral (signed : Bool) : List Char → Int → Prop where
  | bare {cs : List Char} {n : Nat} (h : Digits cs n) : Numeral signed cs n
  | plus {cs : List Char} {n : Nat} (h : Digits cs n) : Numeral signed ('+' :: cs) n
  | minus {cs : List Char} {n : Nat} (hs : signed = true) (h : Digits cs n) :
      Numeral signed ('-' :: cs) (-n)

variable {cs : List Char} {signed : Bool}

theorem exists_digit {c : Char} (h : c.isDigit = true) : ∃ d, d < 10 ∧ c = d.digitChar := by
  rw [Char.isDigit_iff_toNat] at h
  have hlow : 48 ≤ c.toNat := h.1
  have hhigh : c.toNat ≤ 57 := h.2
  refine ⟨c.toNat - 48, by omega, ?_⟩
  apply Char.toNat_inj.mp
  rw [Nat.toNat_digitChar_of_lt_ten (by omega)]
  omega

theorem ofDigitChars_concat {d : Nat} (cs : List Char) (hd : d < 10) :
    Nat.ofDigitChars 10 (cs ++ [d.digitChar]) 0 = 10 * Nat.ofDigitChars 10 cs 0 + d := by
  rw [Nat.ofDigitChars_append, Nat.ofDigitChars_cons_digitChar_of_lt_ten hd, Nat.ofDigitChars_nil]

theorem Digits.ne_nil {n : Nat} (h : Digits cs n) : cs ≠ [] := by
  cases h with
  | single hd => simp
  | concat h hd => simp

theorem Digits.isDigit {n : Nat} (h : Digits cs n) : ∀ c ∈ cs, c.isDigit = true := by
  induction h with
  | single hd => simpa using hd
  | concat h hd ih =>
    intro c hc
    rcases List.mem_append.mp hc with hc | hc
    · exact ih c hc
    · rw [List.mem_singleton.mp hc, Nat.isDigit_digitChar]
      exact decide_eq_true hd

theorem Digits.ofDigitChars_eq {n : Nat} (h : Digits cs n) : Nat.ofDigitChars 10 cs 0 = n := by
  induction h with
  | single hd => simpa using ofDigitChars_concat [] hd
  | concat h hd ih => rw [ofDigitChars_concat _ hd, ih]

/-- Digits are read from the left but told from the right, so the induction is on the reversed text. -/
theorem digits_of_isDigit (hn : cs ≠ []) (h : ∀ c ∈ cs, c.isDigit = true) :
    Digits cs (Nat.ofDigitChars 10 cs 0) := by
  induction cs using List.reverseRecOn with
  | nil => exact absurd rfl hn
  | append_singleton cs c ih =>
    obtain ⟨d, hd, rfl⟩ := exists_digit (h c (by simp))
    rw [ofDigitChars_concat cs hd]
    by_cases hc : cs = []
    · subst hc
      simpa using Digits.single hd
    · exact .concat (ih hc fun c hc => h c (by simp [hc])) hd

theorem natural?_eq_some_iff {n : Nat} : natural? cs = some n ↔ Digits cs n := by
  constructor
  · intro h
    unfold natural? at h
    split at h
    · cases h
    · rename_i hn
      split at h
      · rename_i hd
        cases h
        exact digits_of_isDigit (by simpa using hn) (List.all_eq_true.mp hd)
      · cases h
  · intro h
    have hd : cs.all Char.isDigit = true := List.all_eq_true.mpr h.isDigit
    simp [natural?, h.ne_nil, hd, h.ofDigitChars_eq]

theorem integer?_eq_some_iff {n : Int} : integer? signed cs = some n ↔ Numeral signed cs n := by
  constructor
  · intro h
    unfold integer? at h
    split at h
    · obtain ⟨m, hm, rfl⟩ := Option.map_eq_some_iff.mp h
      exact .plus (natural?_eq_some_iff.mp hm)
    · rename_i cs
      split at h
      · rename_i hs
        obtain ⟨m, hm, he⟩ := Option.bind_eq_some_iff.mp (by simpa using h)
        cases he
        exact .minus hs (natural?_eq_some_iff.mp hm)
      · cases h
    · obtain ⟨m, hm, rfl⟩ := Option.map_eq_some_iff.mp h
      exact .bare (natural?_eq_some_iff.mp hm)
  · intro h
    cases h with
    | bare h => rw [integer?_of_digits signed h.isDigit, natural?_eq_some_iff.mpr h]; rfl
    | plus h => rw [integer?, natural?_eq_some_iff.mpr h]; rfl
    | minus hs h => rw [integer?, if_pos hs, natural?_eq_some_iff.mpr h]; rfl

theorem Numeral.ne_nil {n : Int} (h : Numeral signed cs n) : cs ≠ [] := by
  cases h with
  | bare h => exact h.ne_nil
  | plus h => simp
  | minus hs h => simp

end Decimal

namespace IntegerType

/-- The numbers which the bits of the type can tell apart, in two's complement if it is signed. -/
def range (t : IntegerType) : Set Int :=
  if t.signed then {n | -2 ^ (t.width.bits - 1) ≤ n ∧ n < 2 ^ (t.width.bits - 1)}
  else {n | 0 ≤ n ∧ n < 2 ^ t.width.bits}

theorem holds_iff_mem_range {t : IntegerType} {n : Int} : t.Holds n ↔ n ∈ t.range := by
  unfold Holds low high range
  cases t.signed with
  | false =>
    simp only [Bool.false_eq_true, if_false, Nat.one_shiftLeft, Int.le_sub_one_iff, Nat.cast_pow,
      Nat.cast_ofNat, Set.mem_ofPred_eq]
  | true =>
    simp only [if_true, Nat.one_shiftLeft, Int.le_sub_one_iff, Nat.cast_pow, Nat.cast_ofNat,
      Set.mem_ofPred_eq]

theorem parse?_eq_some_iff {t : IntegerType} {s : String} {n : Int} :
    t.parse? s = some n ↔ Decimal.Numeral t.signed s.toList n ∧ n ∈ t.range := by
  rw [parse?, Option.filter_eq_some_iff, Decimal.integer?_eq_some_iff, decide_eq_true_eq,
    holds_iff_mem_range]

example : parse? ⟨false, .w8⟩ "+000255" = some 255 ∧ parse? ⟨false, .w8⟩ "-0" = none ∧
    parse? ⟨true, .w8⟩ "-0128" = some (-128) ∧ parse? ⟨true, .w8⟩ "128" = none := by decide

end IntegerType

theorem Value.Kind.read?_int_iff_numeral {segment : String} {v : Value} :
    int.read? segment = some v ↔
      ∃ n : Int64, Decimal.Numeral true segment.toList n.toInt ∧ v = .int n := by
  rw [read?_int_iff]
  constructor
  · intro h
    obtain ⟨-, n, hn, hv⟩ := h
    exact ⟨n, (IntegerType.parse?_eq_some_iff.mp hn).1, hv⟩
  · intro h
    obtain ⟨n, hn, hv⟩ := h
    have hs : segment ≠ "" := by
      intro he
      subst he
      exact hn.ne_nil rfl
    have hr := IntegerType.holds_iff_mem_range.mp (IntegerType.holds_toInt n)
    exact ⟨hs, n, IntegerType.parse?_eq_some_iff.mpr ⟨hn, hr⟩, hv⟩

end UrlRouter
