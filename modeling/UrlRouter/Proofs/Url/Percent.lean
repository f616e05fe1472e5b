import Mathlib.Data.List.Basic
import UrlRouter.Url

namespace UrlRouter.Url.Percent

/-- The hex digit of a number, in either case. -/
def Digit (n : Nat) (c : Char) : Prop :=
  c = n.digitChar ∨ c = n.digitChar.toUpper

/-- The characters which mean something in a query or end it. -/
def special : List Char := ['%', '&', '=', '#']

/-- The ways to write down bytes in a query. Any byte may be given by its number, and a character may
be given as it is, for all of its bytes, if it is not special. -/
inductive Spells : List Char → List UInt8 → Prop where
  | nil : Spells [] []
  | escape {cs : List Char} {bs : List UInt8} {high low : Char} (byte : UInt8)
      (hh : Digit (byte.toNat / 16) high) (hl : Digit (byte.toNat % 16) low) (h : Spells cs bs) :
      Spells ('%' :: high :: low :: cs) (byte :: bs)
  | plain {cs : List Char} {bs : List UInt8} (c : Char) (hc : c ∉ special) (h : Spells cs bs) :
      Spells (c :: cs) (String.utf8EncodeChar c ++ bs)

/-- The text stands in a query for another, by way of the bytes of that. -/
def Encodes (written text : String) : Prop :=
  Spells written.toList text.toByteArray.data.toList

theorem hexDigit?_of_digit {n : Nat} {c : Char} (hn : n < 16) (h : Digit n c) :
    hexDigit? c = some n := by
  have hd : ∀ n < 16, hexDigit? n.digitChar = some n ∧ hexDigit? n.digitChar.toUpper = some n := by
    decide
  rcases h with rfl | rfl
  · exact (hd n hn).1
  · exact (hd n hn).2

theorem not_special_of_digit {n : Nat} {c : Char} (hn : n < 16) (h : Digit n c) : c ∉ special := by
  have hd : ∀ n < 16, n.digitChar ∉ special ∧ n.digitChar.toUpper ∉ special := by
    decide
  rcases h with rfl | rfl
  · exact (hd n hn).1
  · exact (hd n hn).2

theorem escape?_of_digits {byte : UInt8} {high low : Char} (hh : Digit (byte.toNat / 16) high)
    (hl : Digit (byte.toNat % 16) low) : escape? high low = some byte := by
  have hlt := byte.toNat_lt
  have he : 16 * (byte.toNat / 16) + byte.toNat % 16 = byte.toNat := Nat.div_add_mod _ _
  rw [escape?, hexDigit?_of_digit (by omega) hh, hexDigit?_of_digit (by omega) hl]
  simp only [Option.bind_eq_bind, Option.bind_some, he, UInt8.ofNat_toNat]
  rfl

theorem bytes_cons_of_ne {c : Char} (hc : c ≠ '%') (cs : List Char) :
    bytes (c :: cs) = String.utf8EncodeChar c ++ bytes cs := by
  rw [bytes]
  rintro _ _ _ rfl _
  exact hc rfl

/-- Decoding undoes every way of spelling. -/
theorem Spells.bytes_eq {cs : List Char} {bs : List UInt8} (h : Spells cs bs) : bytes cs = bs := by
  induction h with
  | nil => rfl
  | escape byte hh hl _ ih => rw [bytes, escape?_of_digits hh hl, ih]
  | plain c hc _ ih =>
    have hne : c ≠ '%' := by
      rintro rfl
      exact hc (by decide)
    rw [bytes_cons_of_ne hne, ih]

/-- All special characters which are left are those in front of two digits. -/
theorem Spells.not_mem {cs : List Char} {bs : List UInt8} (h : Spells cs bs) {c : Char}
    (hc : c ∈ special) (hne : c ≠ '%') : c ∉ cs := by
  induction h with
  | nil => simp
  | escape byte hh hl _ ih =>
    have hlt := byte.toNat_lt
    have hhigh := not_special_of_digit (by omega) hh
    have hlow := not_special_of_digit (by omega) hl
    simp only [List.mem_cons, not_or]
    refine ⟨hne, ?_, ?_, ih⟩
    · rintro rfl
      exact hhigh hc
    · rintro rfl
      exact hlow hc
  | plain d hd _ ih =>
    rw [List.mem_cons, not_or]
    refine ⟨?_, ih⟩
    rintro rfl
    exact hd hc

theorem fromUTF8?_eq_some_iff {bs : ByteArray} {s : String} :
    String.fromUTF8? bs = some s ↔ bs = s.toByteArray := by
  rw [String.fromUTF8?]
  constructor
  · intro h
    split at h
    · cases h
      rfl
    · cases h
  · rintro rfl
    exact dif_pos s.isValidUTF8

theorem Encodes.decode?_eq {written text : String} (h : Encodes written text) :
    decode? written = some text := by
  have hb : text.toByteArray.data.toList.toByteArray = text.toByteArray := by
    rw [ByteArray.ext_iff, List.data_toByteArray]
  rw [decode?, Spells.bytes_eq h, fromUTF8?_eq_some_iff, hb]

/-- Every byte may be escaped, so there is no text which cannot be written. -/
theorem exists_encodes (text : String) : ∃ written, Encodes written text := by
  have hs : ∀ bs : List UInt8, ∃ cs, Spells cs bs := by
    intro bs
    induction bs with
    | nil => exact ⟨[], .nil⟩
    | cons byte bs ih =>
      obtain ⟨cs, hcs⟩ := ih
      exact ⟨_, .escape byte (.inl rfl) (.inl rfl) hcs⟩
  obtain ⟨cs, hcs⟩ := hs text.toByteArray.data.toList
  refine ⟨.ofList cs, ?_⟩
  rwa [Encodes, String.toList_ofList]

end UrlRouter.Url.Percent
