import Mathlib.Data.Nat.Find
import UrlRouter.Proofs.Pattern.Compiled

namespace UrlRouter.Pattern

def nameAt? (ss : List Segment) (i : Nat) : Option String :=
  ss[i]?.bind Segment.name?

/-- A path capture with a segment behind it. -/
def Misplaced (ss : List Segment) (i : Nat) : Prop :=
  (∃ name, ss[i]? = some (.path name)) ∧ i + 1 < ss.length

/-- A capture whose name an earlier one has as well. -/
def Repeated (ss : List Segment) (i : Nat) : Prop :=
  ∃ name, nameAt? ss i = some name ∧ ∃ j < i, nameAt? ss j = some name

def Offends (ss : List Segment) (i : Nat) : Prop :=
  Misplaced ss i ∨ Repeated ss i

/-- An offence is reported with the name of the capture. That a path capture is in the wrong place
goes before the name which it has from another. -/
structure Raises (ss : List Segment) (i : Nat) (fault : Fault) : Prop where
  offends : Offends ss i
  misplaced : Misplaced ss i → ∃ name, nameAt? ss i = some name ∧ fault = .pathNotLast name
  repeated : ¬ Misplaced ss i → ∃ name, nameAt? ss i = some name ∧ fault = .repeatedName name

/-- The fault of the first offence which is not in front of `start`. -/
def FirstRaised (ss : List Segment) (start : Nat) (fault : Fault) : Prop :=
  ∃ i, start ≤ i ∧ Raises ss i fault ∧ ∀ j, start ≤ j → j < i → ¬ Offends ss j

variable {ss front rest : List Segment} {s : Segment} {taken : List String} {fault : Fault}

theorem Raises.of_misplaced {i : Nat} {name : String} (hm : Misplaced ss i)
    (hn : nameAt? ss i = some name) : Raises ss i fault ↔ fault = .pathNotLast name := by
  constructor
  · intro h
    obtain ⟨other, ho, rfl⟩ := h.misplaced hm
    rw [Option.some.inj (hn.symm.trans ho)]
  · intro h
    exact ⟨.inl hm, fun _ => ⟨name, hn, h⟩, fun hc => absurd hm hc⟩

theorem Raises.of_repeated {i : Nat} {name : String} (hm : ¬ Misplaced ss i) (hr : Repeated ss i)
    (hn : nameAt? ss i = some name) : Raises ss i fault ↔ fault = .repeatedName name := by
  constructor
  · intro h
    obtain ⟨other, ho, rfl⟩ := h.repeated hm
    rw [Option.some.inj (hn.symm.trans ho)]
  · intro h
    exact ⟨.inr hr, fun hc => absurd hc hm, fun _ => ⟨name, hn, h⟩⟩

theorem exists_raises {i : Nat} (h : Offends ss i) : ∃ fault, Raises ss i fault := by
  by_cases hm : Misplaced ss i
  · obtain ⟨name, hi⟩ := hm.1
    have hn : nameAt? ss i = some name := by simp [nameAt?, hi, Segment.name?]
    exact ⟨_, (Raises.of_misplaced hm hn).mpr rfl⟩
  · have hr : Repeated ss i := h.resolve_left hm
    have ⟨name, hn, _⟩ := hr
    exact ⟨_, (Raises.of_repeated hm hr hn).mpr rfl⟩

theorem firstRaised_of_offends {n : Nat} (h : Offends ss n) :
    FirstRaised ss n fault ↔ Raises ss n fault := by
  constructor
  · rintro ⟨i, hn, hi, hfirst⟩
    obtain rfl : n = i := by
      apply Nat.le_antisymm hn
      by_contra hlt
      exact hfirst n (Nat.le_refl n) (by omega) h
    exact hi
  · intro hi
    exact ⟨n, Nat.le_refl n, hi, fun j hj hlt => by omega⟩

theorem firstRaised_succ {n : Nat} (h : ¬ Offends ss n) :
    FirstRaised ss n fault ↔ FirstRaised ss (n + 1) fault := by
  constructor
  · rintro ⟨i, hn, hi, hfirst⟩
    have hne : n ≠ i := by
      intro he
      subst he
      exact h hi.offends
    exact ⟨i, by omega, hi, fun j hj hlt => hfirst j (by omega) hlt⟩
  · rintro ⟨i, hn, hi, hfirst⟩
    refine ⟨i, by omega, hi, fun j hj hlt => ?_⟩
    by_cases he : j = n
    · rwa [he]
    · exact hfirst j (by omega) hlt

theorem nameAt?_append (front : List Segment) (s : Segment) (rest : List Segment) :
    nameAt? (front ++ s :: rest) front.length = s.name? := by
  simp [nameAt?]

theorem misplaced_append_iff :
    Misplaced (front ++ s :: rest) front.length ↔ s.isPath = true ∧ rest ≠ [] := by
  have hl : front.length + 1 < (front ++ s :: rest).length ↔ rest ≠ [] := by
    rw [List.length_append, List.length_cons, ← List.length_pos_iff]
    omega
  rw [Misplaced, hl]
  cases s <;> simp [Segment.isPath]

theorem exists_nameAt?_iff {name : String} :
    (∃ j < front.length, nameAt? (front ++ rest) j = some name) ↔ name ∈ names front := by
  rw [names, List.mem_filterMap]
  constructor
  · rintro ⟨j, hj, hn⟩
    rw [nameAt?, List.getElem?_append_left hj] at hn
    obtain ⟨s, hs, hn⟩ := Option.bind_eq_some_iff.mp hn
    exact ⟨s, List.mem_of_getElem? hs, hn⟩
  · rintro ⟨s, hs, hn⟩
    obtain ⟨j, hs⟩ := List.getElem?_of_mem hs
    obtain ⟨hj, -⟩ := List.getElem?_eq_some_iff.mp hs
    refine ⟨j, hj, ?_⟩
    rw [nameAt?, List.getElem?_append_left hj, hs, Option.bind_some, hn]

theorem repeated_append_iff :
    Repeated (front ++ s :: rest) front.length ↔
      ∃ name, s.name? = some name ∧ name ∈ names front := by
  simp only [Repeated, nameAt?_append, exists_nameAt?_iff]

/-- The search from the left. What was read before is `front`, and `taken` are the names in it. -/
theorem fault?_eq_some_iff (ht : ∀ name, name ∈ taken ↔ name ∈ names front) :
    fault? taken ss = some fault ↔ FirstRaised (front ++ ss) front.length fault := by
  induction ss generalizing front taken with
  | nil =>
    simp only [fault?, List.append_nil, reduceCtorEq, false_iff]
    rintro ⟨i, hi, hr, -⟩
    rcases hr.offends with ⟨-, hl⟩ | ⟨name, hn, -⟩
    · omega
    · simp [nameAt?, List.getElem?_eq_none hi] at hn
  | cons s ss ih =>
    have hnext : front ++ s :: ss = (front ++ [s]) ++ ss := by simp
    have hlen : front.length + 1 = (front ++ [s]).length := by simp
    unfold fault?
    cases hs : s.name? with
    | none =>
      -- A literal cannot offend, and it takes no name from those behind it.
      have hp : s.isPath = false := Segment.isPath_of_no_name hs
      have ho : ¬ Offends (front ++ s :: ss) front.length := by
        simp [Offends, misplaced_append_iff, repeated_append_iff, hs, hp]
      rw [firstRaised_succ ho, hnext, hlen, ← ih]
      intro name
      simp [names, hs, ht]
    | some name =>
      have hn : nameAt? (front ++ s :: ss) front.length = some name := by rw [nameAt?_append, hs]
      have hm : Misplaced (front ++ s :: ss) front.length ↔ (s.isPath && !ss.isEmpty) = true := by
        simp [misplaced_append_iff]
      have hr : Repeated (front ++ s :: ss) front.length ↔ name ∈ taken := by
        simp [repeated_append_iff, hs, ht]
      simp only
      split
      · rename_i h
        rw [firstRaised_of_offends (.inl (hm.mpr h)), Raises.of_misplaced (hm.mpr h) hn]
        simp [eq_comm]
      · rename_i h
        split
        · rename_i h'
          rw [firstRaised_of_offends (.inr (hr.mpr h')), Raises.of_repeated (mt hm.mp h) (hr.mpr h') hn]
          simp [eq_comm]
        · rename_i h'
          have ho : ¬ Offends (front ++ s :: ss) front.length := not_or.mpr ⟨mt hm.mp h, mt hr.mp h'⟩
          rw [firstRaised_succ ho, hnext, hlen, ← ih]
          intro other
          simp [names, hs, ht, or_comm, eq_comm]

theorem fault?_nil_eq_some_iff :
    fault? [] ss = some fault ↔ ∃ i, Raises ss i fault ∧ ∀ j < i, ¬ Offends ss j := by
  have h : fault? [] ss = some fault ↔ FirstRaised ([] ++ ss) 0 fault :=
    fault?_eq_some_iff (by simp [names])
  rw [h]
  simp [FirstRaised]

theorem fault?_nil_eq_none_iff : fault? [] ss = none ↔ ∀ i, ¬ Offends ss i := by
  constructor
  · intro h i ho
    classical
    obtain ⟨fault, hr⟩ := exists_raises (Nat.find_spec ⟨i, ho⟩)
    have hs := fault?_nil_eq_some_iff.mpr ⟨_, hr, fun j hj => Nat.find_min ⟨i, ho⟩ hj⟩
    rw [h] at hs
    cases hs
  · intro h
    refine Option.eq_none_iff_forall_ne_some.mpr fun fault hs => ?_
    obtain ⟨i, hr, -⟩ := fault?_nil_eq_some_iff.mp hs
    exact h i hr.offends

theorem ofSource_eq_error_iff {source : String} :
    ofSource source = .error fault ↔ fault? [] (tokens source) = some fault := by
  rw [ofSource_eq]
  cases fault? [] (tokens source) <;> simp

theorem exists_ofSource_iff {source : String} :
    (∃ p, ofSource source = .ok p) ↔ fault? [] (tokens source) = none := by
  rw [ofSource_eq]
  cases fault? [] (tokens source) <;> simp

/-- A source is refused for the first of its segments which offends, and for no other reason. -/
theorem ofSource_first_offence (source : String) :
    ((∃ p, ofSource source = .ok p) ↔ ∀ i, ¬ Offends (tokens source) i) ∧
    ∀ fault, ofSource source = .error fault ↔
      ∃ i, Raises (tokens source) i fault ∧ ∀ j < i, ¬ Offends (tokens source) j :=
  ⟨exists_ofSource_iff.trans fault?_nil_eq_none_iff,
    fun _ => ofSource_eq_error_iff.trans fault?_nil_eq_some_iff⟩

/-- The second segment offends twice, and the third repeats a name as well. -/
example : ofSource "<a>/<path:a>/<int:a>" = .error (.pathNotLast "a") := by cbv

end UrlRouter.Pattern
