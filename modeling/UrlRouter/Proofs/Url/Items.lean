import UrlRouter.Proofs.Url.Percent

namespace UrlRouter.Url.Percent

/-- What a text is made of: bytes which are given by their numbers, and characters which stand for
bytes of their own. -/
inductive Item where
  | escaped (byte : UInt8)
  | plain (c : Char)

def Item.bytes : Item → List UInt8
  | .escaped byte => [byte]
  | .plain c => String.utf8EncodeChar c

/-- A text which begins with the number of a byte: a percent sign and two hex digits in either case. -/
inductive Escape : List Char → UInt8 → List Char → Prop where
  | intro {byte : UInt8} {high low : Char} (hh : Digit (byte.toNat / 16) high)
      (hl : Digit (byte.toNat % 16) low) (rest : List Char) :
      Escape ('%' :: high :: low :: rest) byte rest

/-- A text is read from the left. Where it does not begin with the number of a byte, its first character
is meant as it is, a percent sign too. -/
inductive Reads : List Char → List Item → Prop where
  | nil : Reads [] []
  | escaped {cs rest : List Char} {byte : UInt8} {items : List Item} (h : Escape cs byte rest)
      (hr : Reads rest items) : Reads cs (.escaped byte :: items)
  | plain {c : Char} {cs : List Char} {items : List Item}
      (h : ∀ byte rest, ¬ Escape (c :: cs) byte rest) (hr : Reads cs items) :
      Reads (c :: cs) (.plain c :: items)

/-- A text in UTF-8. -/
def utf8 (text : String) : List UInt8 :=
  text.toList.flatMap String.utf8EncodeChar

/-- The text with a number for every percent sign in it. -/
def guarded (text : String) : String :=
  .ofList (text.toList.flatMap fun c => if c = '%' then ['%', '2', '5'] else [c])

variable {cs rest : List Char} {byte : UInt8} {items : List Item}

theorem digit_of_range (low high base : Nat) {c : Char} (hl : low ≤ c.toNat) (hh : c.toNat ≤ high)
    (hd : ∀ m < high + 1 - low, Digit (m + base) (Char.ofNat (low + m))) :
    Digit (c.toNat - low + base) c := by
  have hc := hd (c.toNat - low) (by omega)
  rwa [Nat.add_sub_cancel' hl, Char.ofNat_toNat] at hc

theorem digit_of_hexDigit? {c : Char} {n : Nat} (h : hexDigit? c = some n) : n < 16 ∧ Digit n c := by
  have hdecimal : ∀ m < 10, Digit (m + 0) (Char.ofNat (48 + m)) := by unfold Digit; decide
  have hlower : ∀ m < 6, Digit (m + 10) (Char.ofNat (97 + m)) := by unfold Digit; decide
  have hupper : ∀ m < 6, Digit (m + 10) (Char.ofNat (65 + m)) := by unfold Digit; decide
  unfold hexDigit? at h
  split at h
  · rename_i hc
    obtain rfl : c.toNat - 48 = n := Option.some.inj h
    have hhigh : c.toNat ≤ 57 := hc.2
    exact ⟨by omega, digit_of_range 48 57 0 hc.1 hhigh hdecimal⟩
  · split at h
    · rename_i hc
      obtain rfl : c.toNat - 97 + 10 = n := Option.some.inj h
      have hhigh : c.toNat ≤ 102 := hc.2
      exact ⟨by omega, digit_of_range 97 102 10 hc.1 hhigh hlower⟩
    · split at h
      · rename_i hc
        obtain rfl : c.toNat - 65 + 10 = n := Option.some.inj h
        have hhigh : c.toNat ≤ 70 := hc.2
        exact ⟨by omega, digit_of_range 65 70 10 hc.1 hhigh hupper⟩
      · cases h

theorem escape_of_escape? {high low : Char} (h : escape? high low = some byte) (rest : List Char) :
    Escape ('%' :: high :: low :: rest) byte rest := by
  obtain ⟨m, hm, h⟩ := Option.bind_eq_some_iff.mp h
  obtain ⟨n, hn, h⟩ := Option.bind_eq_some_iff.mp h
  obtain ⟨hm, hhigh⟩ := digit_of_hexDigit? hm
  obtain ⟨hn, hlow⟩ := digit_of_hexDigit? hn
  obtain rfl : UInt8.ofNat (16 * m + n) = byte := Option.some.inj h
  have hb : (UInt8.ofNat (16 * m + n)).toNat = 16 * m + n :=
    UInt8.toNat_ofNat_of_lt' (show 16 * m + n < 256 by omega)
  refine .intro ?_ ?_ rest
  · rwa [hb, show (16 * m + n) / 16 = m by omega]
  · rwa [hb, show (16 * m + n) % 16 = n by omega]

theorem Escape.bytes_eq (h : Escape cs byte rest) : bytes cs = byte :: bytes rest := by
  cases h with
  | intro hh hl => rw [bytes, escape?_of_digits hh hl]

theorem not_escape {high low : Char} {remains : List Char} (h : escape? high low = none) :
    ¬ Escape ('%' :: high :: low :: rest) byte remains := by
  intro he
  cases he with
  | intro hh hl =>
    rw [escape?_of_digits hh hl] at h
    cases h

theorem Escape.unique {other : UInt8} {remains : List Char} (h : Escape cs byte rest)
    (ho : Escape cs other remains) : byte = other ∧ rest = remains := by
  cases h with
  | intro hh hl =>
    cases ho with
    | intro ih il =>
      have he := escape?_of_digits hh hl
      rw [escape?_of_digits ih il] at he
      exact ⟨(Option.some.inj he).symm, rfl⟩

theorem bytes_of_no_escape {c : Char} (h : ∀ byte rest, ¬ Escape (c :: cs) byte rest) :
    bytes (c :: cs) = String.utf8EncodeChar c ++ bytes cs := by
  by_cases hc : c = '%'
  · subst hc
    match cs with
    | [] => rfl
    | [_] => rfl
    | high :: low :: rest =>
      cases he : escape? high low with
      | some byte => exact absurd (escape_of_escape? he rest) (h byte rest)
      | none => rw [bytes, he]
  · exact bytes_cons_of_ne hc cs

theorem Reads.bytes_eq (h : Reads cs items) : bytes cs = items.flatMap Item.bytes := by
  induction h with
  | nil => rfl
  | escaped h _ ih => rw [h.bytes_eq, ih, List.flatMap_cons, Item.bytes, List.singleton_append]
  | plain h _ ih => rw [bytes_of_no_escape h, ih, List.flatMap_cons, Item.bytes]

theorem Reads.unique {others : List Item} (h : Reads cs items) (ho : Reads cs others) :
    items = others := by
  induction h generalizing others with
  | nil =>
    cases ho with
    | nil => rfl
    | escaped he _ => cases he
  | escaped h _ ih =>
    cases ho with
    | nil => cases h
    | escaped he ho =>
      obtain ⟨rfl, rfl⟩ := h.unique he
      rw [ih ho]
    | plain hn _ => exact absurd h (hn _ _)
  | plain h _ ih =>
    cases ho with
    | escaped he _ => exact absurd he (h _ _)
    | plain _ ho => rw [ih ho]

/-- Every text can be read, since the reader reads it. -/
theorem exists_reads (cs : List Char) : ∃ items, Reads cs items := by
  fun_induction bytes cs with
  | case1 => exact ⟨[], .nil⟩
  | case2 high low rest byte he ih =>
    obtain ⟨items, hr⟩ := ih
    exact ⟨_, .escaped (escape_of_escape? he rest) hr⟩
  | case3 high low rest he ih =>
    obtain ⟨items, hr⟩ := ih
    exact ⟨_, .plain (fun _ _ => not_escape he) hr⟩
  | case4 c rest hc ih =>
    obtain ⟨items, hr⟩ := ih
    refine ⟨_, .plain ?_ hr⟩
    intro byte remains h
    cases h with
    | intro hh hl => exact hc _ _ _ rfl rfl

theorem toByteArray_eq_utf8 (text : String) : text.toByteArray = (utf8 text).toByteArray := by
  rw [← String.utf8Encode_toList]
  rfl

theorem decode?_eq_some_iff {raw text : String} :
    decode? raw = some text ↔ bytes raw.toList = utf8 text := by
  rw [decode?, fromUTF8?_eq_some_iff, toByteArray_eq_utf8]
  constructor
  · intro h
    simpa using congrArg (fun bs => bs.data.toList) h
  · intro h
    rw [h]

theorem Reads.decode?_eq_some_iff {raw : String} (h : Reads raw.toList items) (text : String) :
    decode? raw = some text ↔ items.flatMap Item.bytes = utf8 text := by
  rw [Percent.decode?_eq_some_iff, h.bytes_eq]

theorem Reads.decode?_eq_none_iff {raw : String} (h : Reads raw.toList items) :
    decode? raw = none ↔ ∀ text, items.flatMap Item.bytes ≠ utf8 text := by
  rw [Option.eq_none_iff_forall_ne_some]
  exact forall_congr' fun text => not_congr (h.decode?_eq_some_iff text)

theorem flatMap_bytes_escaped (bs : List UInt8) :
    (bs.map Item.escaped).flatMap Item.bytes = bs := by
  simp [List.flatMap_map, Item.bytes]

theorem exists_reads_escaped (bs : List UInt8) :
    ∃ written : String, Reads written.toList (bs.map .escaped) := by
  have hs : ∃ cs, Reads cs (bs.map .escaped) := by
    induction bs with
    | nil => exact ⟨[], .nil⟩
    | cons byte bs ih =>
      obtain ⟨cs, h⟩ := ih
      exact ⟨_, .escaped (.intro (.inl rfl) (.inl rfl) cs) h⟩
  obtain ⟨cs, h⟩ := hs
  refine ⟨.ofList cs, ?_⟩
  rwa [String.toList_ofList]

theorem bytes_guarded (text : String) : bytes (guarded text).toList = utf8 text := by
  unfold guarded utf8
  rw [String.toList_ofList]
  induction text.toList with
  | nil => rfl
  | cons c cs ih =>
    rw [List.flatMap_cons, List.flatMap_cons, ← ih]
    by_cases hc : c = '%'
    · subst hc
      have he : Digit ((0x25 : UInt8).toNat / 16) '2' ∧ Digit ((0x25 : UInt8).toNat % 16) '5' :=
        ⟨.inl rfl, .inl rfl⟩
      exact (Escape.intro he.1 he.2 _).bytes_eq
    · rw [if_neg hc]
      exact bytes_cons_of_ne hc _

/-- What a text decodes to is told by its items, of which it has one list only. A text with a number for
every byte decodes to what these bytes are in UTF-8, and what was decoded is not decoded again. -/
theorem decode?_of_items :
    (∀ raw : String, ∃ items, Reads raw.toList items ∧
      (∀ others, Reads raw.toList others → others = items) ∧
      (∀ text, decode? raw = some text ↔ items.flatMap Item.bytes = utf8 text) ∧
      (decode? raw = none ↔ ∀ text, items.flatMap Item.bytes ≠ utf8 text)) ∧
    (∀ bs : List UInt8, (∃ written : String, Reads written.toList (bs.map .escaped)) ∧
      ∀ written : String, Reads written.toList (bs.map .escaped) →
        ∀ text, decode? written = some text ↔ bs = utf8 text) ∧
    (∀ text, decode? (guarded text) = some text) ∧
    decode? "%2541" = some "%41" := by
  refine ⟨?_, ?_, ?_, by decide⟩
  · intro raw
    obtain ⟨items, h⟩ := exists_reads raw.toList
    exact ⟨items, h, fun others ho => ho.unique h, h.decode?_eq_some_iff, h.decode?_eq_none_iff⟩
  · intro bs
    refine ⟨exists_reads_escaped bs, ?_⟩
    intro written h text
    rw [h.decode?_eq_some_iff, flatMap_bytes_escaped]
  · intro text
    exact decode?_eq_some_iff.mpr (bytes_guarded text)

/-- A character whose bytes are given in both cases, among signs which give none, and two bytes which
would be a character if it could be written longer than it has to be. -/
theorem decode?_of_items_mixed :
    Reads "%%C3%a9%4é".toList [.plain '%', .escaped 0xc3, .escaped 0xa9, .plain '%', .plain '4',
      .plain 'é'] ∧
    decode? "%%C3%a9%4é" = some "%é%4é" ∧
    Reads "%C0%80".toList (List.map .escaped [0xc0, 0x80]) ∧
    ∀ text, [0xc0, 0x80] ≠ utf8 text := by
  have hmixed : Reads "%%C3%a9%4é".toList [.plain '%', .escaped 0xc3, .escaped 0xa9, .plain '%',
      .plain '4', .plain 'é'] := by
    rw [show "%%C3%a9%4é".toList = ['%', '%', 'C', '3', '%', 'a', '9', '%', '4', 'é'] by decide]
    apply Reads.plain fun _ _ => not_escape (by decide)
    apply Reads.escaped (escape_of_escape? (by decide) _)
    apply Reads.escaped (escape_of_escape? (by decide) _)
    apply Reads.plain fun _ _ => not_escape (by decide)
    exact .plain nofun (.plain nofun .nil)
  have hlong : Reads "%C0%80".toList (List.map .escaped [0xc0, 0x80]) := by
    rw [show "%C0%80".toList = ['%', 'C', '0', '%', '8', '0'] by decide]
    apply Reads.escaped (escape_of_escape? (by decide) _)
    exact .escaped (escape_of_escape? (by decide) _) .nil
  obtain ⟨items, -, hu, hsome, -⟩ := decode?_of_items.1 "%%C3%a9%4é"
  obtain rfl := hu _ hmixed
  refine ⟨hmixed, (hsome _).mpr (by decide), hlong, ?_⟩
  intro text h
  have hd := ((decode?_of_items.2.1 _).2 _ hlong text).mpr h
  rw [show decode? "%C0%80" = none by decide] at hd
  cases hd

end UrlRouter.Url.Percent
