import UrlRouter.Proofs.Extract.Integers
import UrlRouter.Proofs.Pattern.Rendering
import UrlRouter.Proofs.Router.FirstMatch
import UrlRouter.Proofs.Url.Address

namespace UrlRouter

variable {α : Type}

/-- The shape which a program gives to a field for a capture. -/
def Segment.shape? : Segment → Option Extract.Shape
  | .literal _ => none
  | .capture _ .int => some (.scalar (.plain (.integer .i64)))
  | .capture _ .text | .path _ => some (.scalar (.plain .text))

/-- A captured value as such a field holds it. -/
def Value.extracted : Value → Extract.Extracted
  | .int n => .datum (.integer n.toInt)
  | .text s => .datum (.text s)

theorem Value.readValue_int (n : Int64) :
    Extract.Shape.readValue (.scalar (.plain (.integer .i64))) (.int n) =
      .ok (Value.int n).extracted :=
  Extract.readValue_integer_int.mpr ⟨IntegerType.holds_toInt n, rfl⟩

theorem Value.readValue_text (s : String) :
    Extract.Shape.readValue (.scalar (.plain .text)) (.text s) = .ok (Value.text s).extracted := rfl

namespace Pattern

/-- The record asks for captures of the pattern, each by its name, and lets all other entries be. -/
structure Asked (p : Pattern) (record : Extract.Record Extract.Shape Extract.Extracted) : Prop where
  lenient : record.strict = false
  fields : ∀ f ∈ record.fields, f.aliases = [] ∧
    ∃ s ∈ p.segments, s.name? = some f.key ∧ s.shape? = some f.shape

variable {p : Pattern} {xs : List String} {captures : Values}

/-- What a capture took is read as it is into the field for it. -/
theorem WellFormed.readValue_of_captures? (hw : p.WellFormed) (h : p.captures? xs = some captures)
    {s : Segment} {name : String} {shape : Extract.Shape} (hs : s ∈ p.segments)
    (hn : s.name? = some name) (hshape : s.shape? = some shape) :
    ∃ v, captures.get? name = some v ∧ shape.readValue v = .ok v.extracted := by
  cases s with
  | literal text => cases hn
  | capture other kind =>
    cases hn
    obtain ⟨x, -, v, hr, hv⟩ := hw.read?_of_captures? h hs
    cases kind with
    | int =>
      cases hshape
      obtain ⟨n, rfl⟩ := Value.Kind.eq_int_of_read? hr
      exact ⟨_, hv, Value.readValue_int n⟩
    | text =>
      cases hshape
      obtain ⟨-, rfl⟩ := Value.Kind.read?_text_iff.mp hr
      exact ⟨_, hv, Value.readValue_text x⟩
  | path other =>
    cases hn
    cases hshape
    obtain ⟨front, hfront, hp⟩ := hw.pathLast.of_mem hs
    obtain ⟨ys, zs, -, -, -, hv⟩ := hw.path_of_captures? h hp hfront
    exact ⟨_, hv, Value.readValue_text _⟩

/-- Whichever record asks for captures, it can be made of the values and holds what was captured. -/
def Answered (p : Pattern) (captures values : Values) : Prop :=
  ∀ record, p.Asked record → ∃ taken : String → Value,
    (∀ f ∈ record.fields, captures.get? f.key = some (taken f.key)) ∧
    values.extract (.record record) =
      .ok (.record (record.fields.map fun f => (f.name, (taken f.key).extracted)))

/-- Entries beside the captures, under whatever keys, do not disturb the reading of a record. -/
theorem WellFormed.answered (hw : p.WellFormed) (h : p.captures? xs = some captures)
    {values : Values}
    (hv : ∀ k ∈ names p.segments, ∃ v, captures.get? k = some v ∧ values.get? k = some v) :
    p.Answered captures values := by
  intro record ha
  have hread : ∀ f ∈ record.fields, ∃ v, captures.get? f.key = some v ∧
      (f.key, v) ∈ values.entries ∧ f.shape.readValue v = .ok v.extracted := by
    intro f hf
    obtain ⟨-, s, hs, hn, hshape⟩ := ha.fields f hf
    obtain ⟨v, hc, hr⟩ := hw.readValue_of_captures? h hs hn hshape
    obtain ⟨w, hw, hvw⟩ := hv f.key (List.mem_filterMap.mpr ⟨s, hs, hn⟩)
    rw [hc] at hw
    cases hw
    exact ⟨v, hc, (Mapping.mem_entries_iff values).mpr hvw, hr⟩
  obtain ⟨taken, ht⟩ : ∃ taken : String → Value, ∀ k v, captures.get? k = some v → taken k = v :=
    ⟨fun k => (captures.get? k).getD (.text ""), fun k v hk => by simp [hk]⟩
  refine ⟨taken, ?_, ?_⟩
  · intro f hf
    obtain ⟨v, hc, -⟩ := hread f hf
    rw [ht f.key v hc, hc]
  · have hx : ∀ f ∈ record.fields, ∃ v, (f.key, v) ∈ values.entries ∧
        f.shape.readValue v = .ok (taken f.key).extracted := by
      intro f hf
      obtain ⟨v, hc, hm, hr⟩ := hread f hf
      exact ⟨v, hm, by rw [ht f.key v hc, hr]⟩
    have hr := Extract.Record.read_of_reads Extract.Shape.absent? (fun k => (taken k).extracted)
      ha.lenient (fun f hf => (ha.fields f hf).1) values.nodup_keys hx
    rw [Values.extract, Extract.Shape.read, Extract.Shape.readRecord, hr]
    rfl

end Pattern

theorem Route.takes_congr (route : Route α) {x y : Url.Address} (hs : x.scheme = y.scheme)
    (hx : x.segments = y.segments) : route.Takes x ↔ route.Takes y := by
  rw [Takes, Takes, hs, hx]

namespace Router

variable {r : Router α} {u v : String}

/-- Two urls lead nowhere, or both to one route whose captures take the same from both. -/
def LeadsAlike (r : Router α) (u v : String) : Prop :=
  r.destination? u = none ∧ r.destination? v = none ∨
    ∃ d e, r.destination? u = some d ∧ r.destination? v = some e ∧ e.index = d.index ∧
      e.route = d.route ∧ ∀ k ∈ Pattern.names d.route.pattern.segments, ∃ value,
        d.values.get? k = some value ∧ e.values.get? k = some value

theorem destination?_eq_none_congr (hs : (r.address u).scheme = (r.address v).scheme)
    (hx : (r.address u).segments = (r.address v).segments) (h : r.destination? u = none) :
    r.destination? v = none := by
  rw [destination?_eq_none_iff] at h ⊢
  intro route hr
  rw [← route.takes_congr hs hx]
  exact h route hr

/-- The values of a match are under each name of a capture what that capture took. -/
theorem Sound.captured_of_leads (h : r.Sound) {d : Destination α} (hd : r.destination? u = some d) :
    d.route.pattern.WellFormed ∧
      ∃ captures, d.route.pattern.captures? (r.address u).segments = some captures ∧
        ∀ k ∈ Pattern.names d.route.pattern.segments, ∃ value,
          captures.get? k = some value ∧ d.values.get? k = some value := by
  obtain ⟨-, hplace, -, -, captures, hc, hknown⟩ := h.destination?_eq_some_iff_leads.mp hd
  refine ⟨h.wellFormed d.route (List.mem_of_getElem? hplace), captures, hc, ?_⟩
  intro k hk
  have hget := hknown k
  rwa [if_pos hk] at hget

/-- The query alone has no say in the route and in its captures. -/
theorem Sound.leadsAlike (h : r.Sound) (hs : (r.address u).scheme = (r.address v).scheme)
    (hx : (r.address u).segments = (r.address v).segments) : r.LeadsAlike u v := by
  cases hd : r.destination? u with
  | none => exact .inl ⟨hd, destination?_eq_none_congr hs hx hd⟩
  | some d =>
    obtain ⟨hw, captures, hc, hk⟩ := h.captured_of_leads hd
    obtain ⟨-, hplace, hv, hfirst⟩ := destination?_eq_some_iff.mp hd
    have hadmits := (Route.values?_eq_some_iff.mp hv).1
    rw [hs] at hadmits
    rw [hx] at hc
    have he : r.destination? v =
        some ⟨d.index, d.route, v, Values.ofMatch (r.address v).query captures⟩ := by
      refine destination?_eq_some_iff.mpr ⟨rfl, hplace, ?_, ?_⟩
      · exact Route.values?_eq_some_iff.mpr ⟨hadmits, captures, hc, rfl⟩
      · intro i hi route hr
        rw [← route.takes_congr hs hx]
        exact hfirst i hi route hr
    refine .inr ⟨d, _, hd, he, rfl, rfl, ?_⟩
    intro k hkn
    obtain ⟨value, hvalue, hget⟩ := hk k hkn
    exact ⟨value, hget, by rw [Values.get?_ofMatch, hvalue, Option.some_or]⟩

/-- A query and a fragment have no say in where a url leads which names its scheme, and none in what
the captures take. Whatever the query holds, records which ask for captures are made of these. -/
theorem leadsAlike_of_tails (changes : List (Change α)) {scheme path : String}
    (hn : ¬ Url.Scheme.Marked scheme) (hm : '?' ∉ path.toList) (hp : '#' ∉ path.toList)
    (query fragment query' fragment' : Option String) :
    (empty.after changes).LeadsAlike (scheme ++ "://" ++ (path ++ Url.tail query fragment))
      (scheme ++ "://" ++ (path ++ Url.tail query' fragment')) ∧
    ∀ d, (empty.after changes).destination?
        (scheme ++ "://" ++ (path ++ Url.tail query fragment)) = some d →
      ∃ captures, d.route.pattern.captures? (Url.Path.segments path) = some captures ∧
        d.route.pattern.Answered captures d.values := by
  have h := sound_after changes
  have ht := Url.Address.ofUrl_tail (empty.after changes).defaultScheme hn hm hp
  obtain ⟨hs, hx⟩ := ht query fragment
  obtain ⟨hs', hx'⟩ := ht query' fragment'
  refine ⟨h.leadsAlike (hs.trans hs'.symm) (hx.trans hx'.symm), ?_⟩
  intro d hd
  obtain ⟨hw, captures, hc, hk⟩ := h.captured_of_leads hd
  rw [address, hx] at hc
  exact ⟨captures, hc, hw.answered hc hk⟩

/-- A query with the names of the captures, with an escape which is none, and with all the marks. -/
theorem leadsAlike_of_tails_shadowed :
    ∃ r : Router Unit, r = empty.after [.add "user/<int:id>/<path:rest>" ()] ∧
      ¬ Url.Scheme.Marked "app" ∧ '?' ∉ "user/7/a".toList ∧ '#' ∉ "user/7/a".toList ∧
      r.LeadsAlike ("app" ++ "://" ++ ("user/7/a" ++ Url.tail (some "id=x&rest=%zz#?://") none))
        ("app" ++ "://" ++ ("user/7/a" ++ Url.tail none (some "top"))) ∧
      ∃ d, r.destination?
          ("app" ++ "://" ++ ("user/7/a" ++ Url.tail (some "id=x&rest=%zz#?://") none)) = some d ∧
        ∃ captures, d.route.pattern.captures? ["user", "7", "a"] = some captures ∧
          d.route.pattern.Answered captures d.values ∧
          ∃ record, d.route.pattern.Asked record ∧ record.keys = ["id", "rest"] := by
  obtain ⟨r, hr⟩ : ∃ r : Router Unit, r = empty.after [.add "user/<int:id>/<path:rest>" ()] :=
    ⟨_, rfl⟩
  have hn : ¬ Url.Scheme.Marked "app" := by decide
  have hm : '?' ∉ "user/7/a".toList := by decide
  have hp : '#' ∉ "user/7/a".toList := by decide
  have h := leadsAlike_of_tails [Change.add "user/<int:id>/<path:rest>" ()] hn hm hp
    (some "id=x&rest=%zz#?://") none none (some "top")
  have hs : Url.Path.segments "user/7/a" = ["user", "7", "a"] := by cbv
  rw [← hr, hs] at h
  have hpattern : Pattern.ofSource "user/<int:id>/<path:rest>" =
      .ok ⟨"user/<int:id>/<path:rest>", none,
        [.literal "user", .capture "id" .int, .path "rest"]⟩ := by cbv
  have hroutes : r.routes = [⟨⟨"user/<int:id>/<path:rest>", none,
      [.literal "user", .capture "id" .int, .path "rest"]⟩, ()⟩] := by
    rw [hr, after_cons, changed_add_of_ok () hpattern]
    simp [after, empty, Pattern.withDefault_empty]
  have hsome : r.destination? ("app" ++ "://" ++ ("user/7/a" ++ Url.tail none (some "top"))) ≠
      none := by
    rw [ne_eq, ← Option.not_isSome_iff_eq_none, not_not, hr]
    decide +kernel
  obtain ⟨-, hnone⟩ | ⟨d, -, hd, -⟩ := id h.1
  · exact absurd hnone hsome
  obtain ⟨captures, hc, ha⟩ := h.2 d hd
  refine ⟨r, hr, hn, hm, hp, h.1, d, hd, captures, hc, ha, ?_⟩
  have hmem := List.mem_of_getElem? (destination?_eq_some_iff.mp hd).2.1
  rw [hroutes, List.mem_singleton] at hmem
  refine ⟨⟨"Params", [⟨"id", "id", .scalar (.plain (.integer .i64)), [], none⟩,
    ⟨"rest", "rest", .scalar (.plain .text), [], none⟩], false⟩, ⟨rfl, ?_⟩, rfl⟩
  simp [hmem, Segment.name?, Segment.shape?]

end Router

end UrlRouter
