import UrlRouter.Proofs.Pattern.Compiled

namespace UrlRouter.Segment

/-- A name which a capture can have. -/
def GoodName (name : String) : Prop :=
  name ≠ "" ∧ '<' ∉ name.toList ∧ '>' ∉ name.toList ∧ ':' ∉ name.toList

/-- A token which is written as a capture of one of the three kinds. -/
def Placeholder (token : String) : Prop :=
  ∃ name, GoodName name ∧
    (token = "<" ++ name ++ ">" ∨ token = "<int:" ++ name ++ ">" ∨ token = "<path:" ++ name ++ ">")

/-- What can be made of a token. -/
def Readable : Segment → Prop
  | .literal text => ¬ Placeholder text
  | .capture name _ | .path name => GoodName name

theorem isName_toList_iff {name : String} : isName name.toList = true ↔ GoodName name := by
  simp only [isName, GoodName, Bool.and_eq_true, Bool.not_eq_true', List.isEmpty_eq_false_iff,
    ne_eq, String.toList_eq_nil_iff, List.all_eq_true, bne_iff_ne]
  refine and_congr_right fun _ => ⟨fun h => ?_, fun h c hc => ?_⟩
  · exact ⟨fun hc => (h _ hc).1.1 rfl, fun hc => (h _ hc).1.2 rfl, fun hc => (h _ hc).2 rfl⟩
  · obtain ⟨hopen, hclose, hcolon⟩ := h
    refine ⟨⟨?_, ?_⟩, ?_⟩
    · rintro rfl
      exact hopen hc
    · rintro rfl
      exact hclose hc
    · rintro rfl
      exact hcolon hc

theorem isName_iff {cs : List Char} : isName cs = true ↔ GoodName (.ofList cs) := by
  rw [← isName_toList_iff, String.toList_ofList]

theorem not_isName_of_colon {cs : List Char} (h : ':' ∈ cs) : isName cs = false := by
  rw [Bool.eq_false_iff, ne_eq, isName_iff]
  intro hn
  exact hn.2.2.2 (by simpa using h)

theorem bracketed?_brackets (inside : List Char) :
    bracketed? ('<' :: inside ++ ['>']) = some inside := by
  simp [bracketed?]

/-- Only good names are taken from between the brackets. -/
theorem readable_of_placeholder? {inside : List Char} {s : Segment}
    (h : placeholder? inside = some s) : s.name? ≠ none ∧ s.Readable := by
  unfold placeholder? at h
  split at h
  · rename_i hn
    cases h
    exact ⟨Option.some_ne_none _, isName_iff.mp hn⟩
  · split at h
    · rename_i kind name hc
      split at h
      · cases h
      · rename_i hn
        have hn : GoodName (.ofList name) := by simpa [← isName_iff] using hn
        split at h
        · cases h
          exact ⟨Option.some_ne_none _, hn⟩
        · split at h
          · cases h
            exact ⟨Option.some_ne_none _, hn⟩
          · cases h
    · cases h

theorem placeholder?_name {name : String} (h : GoodName name) :
    placeholder? name.toList = some (.capture name .text) := by
  simp [placeholder?, isName_toList_iff.mpr h]

/-- A colon is in no name, so the first one is where the kind ends. -/
theorem placeholder?_kind {kind : List Char} {name : String} (hk : ':' ∉ kind) (h : GoodName name) :
    placeholder? (kind ++ ':' :: name.toList) =
      if kind = ['i', 'n', 't'] then some (.capture name .int)
      else if kind = ['p', 'a', 't', 'h'] then some (.path name)
      else none := by
  have hn : isName (kind ++ ':' :: name.toList) = false :=
    not_isName_of_colon (List.mem_append_right kind List.mem_cons_self)
  simp [placeholder?, hn, Text.cut?_char name.toList hk, isName_toList_iff.mpr h]

theorem toList_display (s : Segment) : s.display.toList =
    match s with
    | .literal text => text.toList
    | .capture name .text => '<' :: name.toList ++ ['>']
    | .capture name .int => '<' :: (['i', 'n', 't'] ++ ':' :: name.toList) ++ ['>']
    | .path name => '<' :: (['p', 'a', 't', 'h'] ++ ':' :: name.toList) ++ ['>'] := by
  match s with
  | .literal text => rfl
  | .capture name .text => simp [display]
  | .capture name .int => simp [display]
  | .path name => simp [display]

theorem ofToken_of_brackets {token : String} {inside : List Char} {s : Segment}
    (ht : token.toList = '<' :: inside ++ ['>']) (hs : placeholder? inside = some s) :
    ofToken token = s := by
  rw [ofToken, ht, bracketed?_brackets, Option.bind_some, hs, Option.getD_some]

/-- A capture with a good name is read as it was written. -/
theorem ofToken_display_of_name {s : Segment} {name : String} (hn : s.name? = some name)
    (h : GoodName name) : ofToken s.display = s := by
  have ht := toList_display s
  cases s with
  | literal text => cases hn
  | path other =>
    cases hn
    exact ofToken_of_brackets ht (placeholder?_kind (by decide) h)
  | capture other kind =>
    cases hn
    cases kind with
    | text => exact ofToken_of_brackets ht (placeholder?_name h)
    | int => exact ofToken_of_brackets ht (placeholder?_kind (by decide) h)

theorem eq_literal_of_no_name {s : Segment} (h : s.name? = none) : s = .literal s.display := by
  cases s with
  | literal text => rfl
  | capture name kind => cases h
  | path name => cases h

theorem placeholder_iff {token : String} :
    Placeholder token ↔ ∃ s : Segment, s.name? ≠ none ∧ s.Readable ∧ token = s.display := by
  constructor
  · rintro ⟨name, h, rfl | rfl | rfl⟩
    · exact ⟨.capture name .text, Option.some_ne_none _, h, rfl⟩
    · exact ⟨.capture name .int, Option.some_ne_none _, h, rfl⟩
    · exact ⟨.path name, Option.some_ne_none _, h, rfl⟩
  · rintro ⟨s, hn, hr, rfl⟩
    match s with
    | .literal text => exact absurd rfl hn
    | .capture name .text => exact ⟨name, hr, .inl rfl⟩
    | .capture name .int => exact ⟨name, hr, .inr (.inl rfl)⟩
    | .path name => exact ⟨name, hr, .inr (.inr rfl)⟩

theorem ofToken_of_placeholder {token : String} (h : Placeholder token) :
    (ofToken token).name? ≠ none := by
  obtain ⟨s, hn, hr, rfl⟩ := placeholder_iff.mp h
  cases s with
  | literal text => exact absurd rfl hn
  | capture name kind => rwa [ofToken_display_of_name rfl hr]
  | path name => rwa [ofToken_display_of_name rfl hr]

/-- What is no placeholder stands for itself, and whatever is taken for a capture is one. -/
theorem readable_ofToken (token : String) : (ofToken token).Readable := by
  cases h : (bracketed? token.toList).bind placeholder? with
  | some s =>
    obtain ⟨inside, -, hs⟩ := Option.bind_eq_some_iff.mp h
    rw [ofToken, h, Option.getD_some]
    exact (readable_of_placeholder? hs).2
  | none =>
    have hl : ofToken token = .literal token := by rw [ofToken, h, Option.getD_none]
    rw [hl]
    intro hp
    exact ofToken_of_placeholder hp (by rw [hl]; rfl)

/-- Reading a token and displaying a segment are inverse to each other on all tokens and on the
segments which can be read. -/
theorem ofToken_eq_iff {token : String} {s : Segment} :
    ofToken token = s ↔ s.Readable ∧ token = s.display := by
  constructor
  · rintro rfl
    exact ⟨readable_ofToken token, (display_ofToken token).symm⟩
  · rintro ⟨hr, rfl⟩
    cases s with
    | capture name kind => exact ofToken_display_of_name rfl hr
    | path name => exact ofToken_display_of_name rfl hr
    | literal text =>
      have hn : (ofToken text).name? = none := by
        by_contra hn
        exact hr (placeholder_iff.mpr
          ⟨_, hn, readable_ofToken text, (display_ofToken text).symm⟩)
      rw [display, eq_literal_of_no_name hn, display_ofToken]

/-- The grammar of tokens. A token in brackets is a capture if what is inside is a good name, or one
behind `int:` or `path:`; any other token is a literal. No token and no segment which can be read is
changed by way of the other. -/
theorem ofToken_grammar (token : String) :
    (∀ name, ofToken token = .capture name .text ↔ GoodName name ∧ token = "<" ++ name ++ ">") ∧
    (∀ name, ofToken token = .capture name .int ↔
      GoodName name ∧ token = "<int:" ++ name ++ ">") ∧
    (∀ name, ofToken token = .path name ↔ GoodName name ∧ token = "<path:" ++ name ++ ">") ∧
    (∀ text, ofToken token = .literal text ↔ ¬ Placeholder token ∧ text = token) ∧
    (ofToken token).display = token ∧
    ∀ s : Segment, ofToken s.display = s ↔ s.Readable := by
  refine ⟨fun name => ofToken_eq_iff, fun name => ofToken_eq_iff, fun name => ofToken_eq_iff, ?_,
    display_ofToken token, ?_⟩
  · intro text
    rw [ofToken_eq_iff, display, eq_comm (a := token)]
    constructor
    · rintro ⟨hr, rfl⟩
      exact ⟨hr, rfl⟩
    · rintro ⟨hr, rfl⟩
      exact ⟨hr, rfl⟩
  · intro s
    rw [ofToken_eq_iff, eq_self, and_true]

example : ["<", "<>", "<int>", "<int:>", "<int:a:b>", "<<a>>"].map ofToken =
    [.literal "<", .literal "<>", .capture "int" .text, .literal "<int:>", .literal "<int:a:b>",
      .literal "<<a>>"] := by
  decide

end UrlRouter.Segment
