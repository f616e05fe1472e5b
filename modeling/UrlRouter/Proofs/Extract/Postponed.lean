import UrlRouter.Proofs.Pattern.Loosened
import UrlRouter.Proofs.Router.Tail

namespace UrlRouter

namespace Extract

/-- A number of 64 bits. -/
def wide : Shape := .scalar (.plain (.integer .i64))

/-- The record which asks for one such number, by the name of its field. -/
def Record.single (title name : String) : Record Shape Extracted where
  name := title
  fields := [{ name, key := name, shape := wide }]

variable {vs : Values} {name : String} {v : Value}

theorem readValue_wide_text {s : String} {x : Extracted} : wide.readValue (.text s) = .ok x ↔
    ∃ n : Int64, IntegerType.i64.parse? s = some n.toInt ∧ x = .datum (.integer n.toInt) := by
  rw [wide, readValue_integer_text]
  constructor
  · intro h
    obtain ⟨m, hm, hx⟩ := h
    obtain ⟨n, rfl⟩ := IntegerType.exists_toInt_of_parse? hm
    exact ⟨n, hm, hx⟩
  · intro h
    obtain ⟨n, hn, hx⟩ := h
    exact ⟨_, hn, hx⟩

theorem mem_fields_single {title : String} {f : Field Shape Extracted} :
    f ∈ (Record.single title name).fields ↔ f = { name, key := name, shape := wide } := by
  simp [Record.single]

/-- One number is read from the entry under its name, whatever other entries there are. -/
theorem extract_single (title : String) (h : vs.get? name = some v) {x : Extracted}
    (hx : wide.readValue v = .ok x) :
    vs.extract (.record (.single title name)) = .ok (.record [(name, x)]) := by
  have hr : (Record.single title name).read Shape.readValue Shape.absent? vs.entries =
      .ok [(name, x)] := by
    refine Record.read_of_reads Shape.absent? (fun _ => x) rfl ?_ vs.nodup_keys ?_
    · intro f hf
      cases mem_fields_single.mp hf
      rfl
    · intro f hf
      cases mem_fields_single.mp hf
      exact ⟨v, (Mapping.mem_entries_iff vs).mpr h, hx⟩
  rw [Values.extract, Shape.read, Shape.readRecord, hr]
  rfl

theorem readValue_of_extract_single {title : String} (h : vs.get? name = some v) {x : Extracted}
    (hx : vs.extract (.record (.single title name)) = .ok x) : ∃ y, wide.readValue v = .ok y := by
  rw [Values.extract, Shape.read, Shape.readRecord] at hx
  cases hr : (Record.single title name).read Shape.readValue Shape.absent? vs.entries with
  | error fault =>
    rw [hr] at hx
    cases hx
  | ok fs =>
    have hf : (Record.single title name).field? name =
        some { name, key := name, shape := wide } := by
      simp [Record.field?, Record.single, Field.answersTo]
    exact Record.reads_of_read hr ((Mapping.mem_entries_iff vs).mpr h) hf

end Extract

namespace Pattern

variable {chosen : List String} {p : Pattern} {xs : List String} {captures texts : Values}

/-- A chosen number is captured as it stands in the url. -/
theorem WellFormed.text_at (hw : p.WellFormed)
    (ht : (p.loosened chosen).captures? xs = some texts) {i : Nat} {name : String}
    (hi : p.segments[i]? = some (.capture name .int)) (hc : name ∈ chosen) :
    ∃ x, xs[i]? = some x ∧ texts.get? name = some (.text x) := by
  have hl : (p.loosened chosen).segments[i]? = some (.capture name .text) := by
    simp only [Pattern.loosened, List.getElem?_map, hi, Option.map_some, Segment.loosened_of_mem hc]
  obtain ⟨x, v, hx, hr, hv⟩ := (hw.loosened chosen).read?_at ht hl
  obtain ⟨-, rfl⟩ := Value.Kind.read?_text_iff.mp hr
  exact ⟨x, hx, hv⟩

theorem WellFormed.numbered_iff (hw : p.WellFormed)
    (ht : (p.loosened chosen).captures? xs = some texts) (title : String) :
    Numbered chosen p.segments xs ↔ ∀ name ∈ chosen, .capture name .int ∈ p.segments →
      ∃ y, texts.extract (.record (.single title name)) = .ok y := by
  constructor
  · intro h name hc hm
    obtain ⟨i, hi⟩ := List.getElem?_of_mem hm
    obtain ⟨x, hx, hv⟩ := hw.text_at ht hi hc
    obtain ⟨n, hn⟩ := h i name x hi hc hx
    exact ⟨_, Extract.extract_single title hv (Extract.readValue_wide_text.mpr ⟨n, hn, rfl⟩)⟩
  · intro h i name x hi hc hx
    obtain ⟨y, hy, hv⟩ := hw.text_at ht hi hc
    obtain ⟨r, hr⟩ := h name hc (List.mem_of_getElem? hi)
    obtain ⟨z, hz⟩ := Extract.readValue_of_extract_single hv hr
    obtain ⟨n, hn, -⟩ := Extract.readValue_wide_text.mp hz
    rw [hy] at hx
    cases hx
    exact ⟨n, hn⟩

/-- Matching a number is the same as matching a text and reading the number from it later. -/
structure Postponed (p : Pattern) (chosen xs : List String) (title : String) : Prop where
  isSome_iff : (p.captures? xs).isSome ↔
    ∃ texts, (p.loosened chosen).captures? xs = some texts ∧
      ∀ name ∈ chosen, .capture name .int ∈ p.segments →
        ∃ x, texts.extract (.record (.single title name)) = .ok x
  number : ∀ captures texts, p.captures? xs = some captures →
    (p.loosened chosen).captures? xs = some texts →
    ∀ (i : Nat) name, p.segments[i]? = some (.capture name .int) → name ∈ chosen →
      ∃ x n, xs[i]? = some x ∧ texts.get? name = some (.text x) ∧
        captures.get? name = some (.int n) ∧
        texts.extract (.record (.single title name)) =
          .ok (.record [(name, .datum (.integer n.toInt))]) ∧
        captures.extract (.record (.single title name)) =
          .ok (.record [(name, .datum (.integer n.toInt))])
  other : ∀ captures texts, p.captures? xs = some captures →
    (p.loosened chosen).captures? xs = some texts →
    ∀ k, ¬ (k ∈ chosen ∧ .capture k .int ∈ p.segments) → texts.get? k = captures.get? k

theorem WellFormed.isSome_captures?_iff_loosened (hw : p.WellFormed) (title : String) :
    (p.captures? xs).isSome ↔ ∃ texts, (p.loosened chosen).captures? xs = some texts ∧
      ∀ name ∈ chosen, .capture name .int ∈ p.segments →
        ∃ x, texts.extract (.record (.single title name)) = .ok x := by
  have hl : (∃ texts, (p.loosened chosen).captures? xs = some texts) ↔
      ∃ es, taken? (p.segments.map (Segment.loosened chosen)) xs = some es := by
    rw [← Option.isSome_iff_exists, isSome_captures?_iff, Pattern.loosened]
  rw [isSome_captures?_iff, exists_taken?_iff_loosened hw.pathLast, ← hl]
  constructor
  · intro h
    obtain ⟨⟨texts, ht⟩, hn⟩ := h
    exact ⟨texts, ht, (hw.numbered_iff ht title).mp hn⟩
  · intro h
    obtain ⟨texts, ht, hx⟩ := h
    exact ⟨⟨texts, ht⟩, (hw.numbered_iff ht title).mpr hx⟩

theorem WellFormed.number_at (hw : p.WellFormed) (hc : p.captures? xs = some captures)
    (ht : (p.loosened chosen).captures? xs = some texts) (title : String) {i : Nat} {name : String}
    (hi : p.segments[i]? = some (.capture name .int)) (hm : name ∈ chosen) :
    ∃ x n, xs[i]? = some x ∧ texts.get? name = some (.text x) ∧
      captures.get? name = some (.int n) ∧
      texts.extract (.record (.single title name)) =
        .ok (.record [(name, .datum (.integer n.toInt))]) ∧
      captures.extract (.record (.single title name)) =
        .ok (.record [(name, .datum (.integer n.toInt))]) := by
  obtain ⟨x, hx, htext⟩ := hw.text_at ht hi hm
  obtain ⟨y, v, hy, hr, hint⟩ := hw.read?_at hc hi
  rw [hx] at hy
  cases hy
  obtain ⟨-, n, hn, rfl⟩ := Value.Kind.read?_int_iff.mp hr
  exact ⟨x, n, hx, htext, hint,
    Extract.extract_single title htext (Extract.readValue_wide_text.mpr ⟨n, hn, rfl⟩),
    Extract.extract_single title hint (Value.readValue_int n)⟩

/-- The captures which are not chosen take the same from the same places. -/
theorem WellFormed.get?_loosened (hw : p.WellFormed) (hc : p.captures? xs = some captures)
    (ht : (p.loosened chosen).captures? xs = some texts) {k : String}
    (hk : ¬ (k ∈ chosen ∧ .capture k .int ∈ p.segments)) : texts.get? k = captures.get? k := by
  have hl := hw.loosened chosen
  have hnames : names (p.loosened chosen).segments = names p.segments := names_loosened chosen _
  by_cases hn : k ∈ names p.segments
  · -- Only the segment of the name is read for it, and that one is the same in both patterns.
    obtain ⟨s, hs, hname⟩ := List.mem_filterMap.mp hn
    have hsame : s.loosened chosen = s := by
      refine Segment.loosened_eq_self ?_
      intro name hm he
      subst he
      cases hname
      exact hk ⟨hm, hs⟩
    obtain ⟨i, hi⟩ := List.getElem?_of_mem hs
    have hi' : (p.loosened chosen).segments[i]? = some s := by
      simp only [Pattern.loosened, List.getElem?_map, hi, Option.map_some, hsame]
    cases s with
    | literal text => cases hname
    | path name =>
      cases hname
      rw [hw.path_at hc hi, hl.path_at ht hi']
    | capture name kind =>
      cases hname
      obtain ⟨x, v, hx, hr, hv⟩ := hw.read?_at hc hi
      obtain ⟨y, w, hy, hr', hv'⟩ := hl.read?_at ht hi'
      rw [hx] at hy
      cases hy
      rw [hr] at hr'
      cases hr'
      rw [hv, hv']
  · have hcaptures := mt (hw.isSome_get?_iff hc k).mp hn
    have htexts := mt (hl.isSome_get?_iff ht k).mp (hnames ▸ hn)
    rw [Option.not_isSome_iff_eq_none] at hcaptures htexts
    rw [hcaptures, htexts]

/-- Any numbers of a compiled pattern may be taken as texts, which makes another compiled pattern, and
be read as numbers from its values. -/
theorem postponed_of_ofSource {source : String} (h : ofSource source = .ok p)
    (chosen xs : List String) (title : String) :
    (∃ source, ofSource source = .ok { p.loosened chosen with source }) ∧
      p.Postponed chosen xs title := by
  have hw := ofSource_wellFormed h
  refine ⟨⟨_, ofSource_loosened h chosen⟩, hw.isSome_captures?_iff_loosened title, ?_, ?_⟩
  · intro captures texts hc ht i name hi hm
    exact hw.number_at hc ht title hi hm
  · intro captures texts hc ht k hk
    exact hw.get?_loosened hc ht hk

/-- A negative number with zeros is read alike. One past the last is refused while matching, and as a
text it is refused when it is asked for. -/
theorem postponed_of_ofSource_signs :
    ∃ p captures texts, ofSource "<int:a>/<int:b>/<path:rest>" = .ok p ∧
      p.captures? ["-007", "+5", "x", ""] = some captures ∧
      (p.loosened ["a"]).captures? ["-007", "+5", "x", ""] = some texts ∧
      captures.get? "a" = some (.int (-7)) ∧ texts.get? "a" = some (.text "-007") ∧
      texts.extract (.record (.single "Params" "a")) =
        .ok (.record [("a", .datum (.integer (-7)))]) ∧
      texts.get? "b" = captures.get? "b" ∧
      (p.captures? ["9223372036854775808", "5", "x"]).isSome = false ∧
      ∃ late, (p.loosened ["a"]).captures? ["9223372036854775808", "5", "x"] = some late ∧
        ∀ x, late.extract (.record (.single "Params" "a")) ≠ .ok x := by
  obtain ⟨p, hp, hs⟩ : ∃ p, ofSource "<int:a>/<int:b>/<path:rest>" = .ok p ∧
      p.segments = [.capture "a" .int, .capture "b" .int, .path "rest"] :=
    ⟨⟨_, none, _⟩, by cbv, rfl⟩
  have hloosened : (p.loosened ["a"]).segments =
      [.capture "a" .text, .capture "b" .int, .path "rest"] := by
    rw [loosened, hs]
    rfl
  have hb : "b" ∉ ["a"] := by decide
  obtain ⟨-, h⟩ := postponed_of_ofSource hp ["a"] ["-007", "+5", "x", ""] "Params"
  obtain ⟨captures, hc⟩ : ∃ captures, p.captures? ["-007", "+5", "x", ""] = some captures := by
    rw [← Option.isSome_iff_exists, captures?, hs]
    decide
  obtain ⟨texts, ht, -⟩ := h.isSome_iff.mp (Option.isSome_of_mem hc)
  obtain ⟨x, n, hx, htext, hint, hread, -⟩ :=
    h.number captures texts hc ht 0 "a" (by rw [hs]; rfl) (by decide)
  cases hx
  have ha : (p.captures? ["-007", "+5", "x", ""]).bind (fun m => m.get? "a") =
      some (.int (-7)) := by
    rw [captures?, hs]
    decide
  rw [hc, Option.bind_some, hint, Option.some.injEq, Value.int.injEq] at ha
  subst ha
  obtain ⟨-, hlate⟩ := postponed_of_ofSource hp ["a"] ["9223372036854775808", "5", "x"] "Params"
  have hnone : (p.captures? ["9223372036854775808", "5", "x"]).isSome = false := by
    rw [captures?, hs]
    decide
  obtain ⟨late, hl⟩ : ∃ late,
      (p.loosened ["a"]).captures? ["9223372036854775808", "5", "x"] = some late := by
    rw [← Option.isSome_iff_exists, captures?, hloosened]
    decide
  refine ⟨p, captures, texts, hp, hc, ht, hint, htext, hread,
    h.other captures texts hc ht "b" (fun hk => hb hk.1), hnone, late, hl, ?_⟩
  intro x hx
  refine absurd (hlate.isSome_iff.mpr ⟨late, hl, ?_⟩) (by simp [hnone])
  intro name hm _
  cases List.mem_singleton.mp hm
  exact ⟨x, hx⟩

end Pattern

end UrlRouter
