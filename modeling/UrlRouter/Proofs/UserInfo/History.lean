import Mathlib.Data.List.Induction
import UrlRouter.Proofs.Mapping.Lookup
import UrlRouter.UserInfo

namespace UrlRouter.UserInfo

variable {κ : Type} {Item : κ → Type}

/-- One use of the container by a program. -/
inductive Use (Item : κ → Type) where
  | put (k : κ) (x : Item k)
  | contains (k : κ)
  | get? (k : κ)
  | get (k : κ)
  | replace? (k : κ) (x : Item k)
  | replace (k : κ) (x : Item k)
  | take? (k : κ)
  | take (k : κ)

namespace Use

def kind : Use Item → κ
  | put k _ | contains k | get? k | get k | replace? k _ | replace k _ | take? k | take k => k

def takes : Use Item → Bool
  | take? _ | take _ => true
  | _ => false

/-- The item which is assigned if there is one already. -/
def assigned? : Use Item → Option (Sigma Item)
  | replace? k x | replace k x => some ⟨k, x⟩
  | _ => none

def looks : Use Item → Bool
  | contains _ | get? _ | get _ => true
  | _ => false

end Use

/-- Something happened, and nothing which would end it has happened since. -/
def Since (happens : List (Use Item) → Use Item → Prop) (ends : Use Item → Prop)
    (uses : List (Use Item)) : Prop :=
  ∃ before use later, uses = before ++ use :: later ∧ happens before use ∧ ∀ u ∈ later, ¬ ends u

/-- An item of the kind was put, and none was taken since. -/
def Present (uses : List (Use Item)) (k : κ) : Prop :=
  Since (fun _ use => ∃ x, use = .put k x) (fun use => use.takes ∧ use.kind = k) uses

/-- The item was put, or assigned when there was one, and since then no other was put or assigned and
none was taken. -/
def Held (uses : List (Use Item)) (k : κ) (x : Item k) : Prop :=
  Since (fun before use => use = .put k x ∨ use.assigned? = some ⟨k, x⟩ ∧ Present before k)
    (fun use => ¬ use.looks ∧ use.kind = k) uses

theorem since_append {happens : List (Use Item) → Use Item → Prop} {ends : Use Item → Prop}
    {uses : List (Use Item)} {use : Use Item} :
    Since happens ends (uses ++ [use]) ↔
      happens uses use ∨ Since happens ends uses ∧ ¬ ends use := by
  constructor
  · intro h
    obtain ⟨before, last, later, he, hh, hl⟩ := h
    -- what happened is the new use, or the new use is the last of those which came after it
    rcases List.eq_nil_or_concat later with rfl | ⟨later, latest, rfl⟩
    · obtain ⟨rfl, hu⟩ := List.append_inj' he rfl
      obtain rfl := List.singleton_inj.mp hu
      exact .inl hh
    · rw [List.concat_eq_append, ← List.cons_append, ← List.append_assoc] at he
      obtain ⟨rfl, hu⟩ := List.append_inj' he rfl
      obtain rfl := List.singleton_inj.mp hu
      rw [List.concat_eq_append, List.forall_mem_append, List.forall_mem_singleton] at hl
      exact .inr ⟨⟨before, last, later, rfl, hh, hl.1⟩, hl.2⟩
  · intro h
    rcases h with hh | ⟨⟨before, last, later, rfl, hh, hl⟩, he⟩
    · exact ⟨uses, use, [], rfl, hh, nofun⟩
    · refine ⟨before, last, later ++ [use], by simp, hh, ?_⟩
      rw [List.forall_mem_append, List.forall_mem_singleton]
      exact ⟨hl, he⟩

theorem not_since_nil {happens : List (Use Item) → Use Item → Prop} {ends : Use Item → Prop} :
    ¬ Since happens ends [] := by
  simp [Since]

theorem present_append {uses : List (Use Item)} {use : Use Item} {k : κ} :
    Present (uses ++ [use]) k ↔
      (∃ x, use = .put k x) ∨ Present uses k ∧ ¬ (use.takes ∧ use.kind = k) :=
  since_append

theorem held_append {uses : List (Use Item)} {use : Use Item} {k : κ} {x : Item k} :
    Held (uses ++ [use]) k x ↔
      (use = .put k x ∨ use.assigned? = some ⟨k, x⟩ ∧ Present uses k) ∨
        Held uses k x ∧ ¬ (¬ use.looks ∧ use.kind = k) :=
  since_append

theorem Use.not_looks_of_takes {use : Use Item} (h : use.takes) : ¬ use.looks := by
  cases use <;> simp_all [takes, looks]

theorem Use.of_assigned? {use : Use Item} {k : κ} {x : Item k}
    (h : use.assigned? = some ⟨k, x⟩) : ¬ use.looks ∧ use.kind = k := by
  cases use <;> simp_all [assigned?, looks, kind]

variable [DecidableEq κ]

def attend (u : UserInfo κ Item) : Use Item → UserInfo κ Item
  | .put k x => u.put k x
  | .replace? k x => (u.replace? k x).2
  | .replace k x => (u.replace k x).2
  | .take? k => (u.take? k).2
  | .take k => (u.take k).2
  | .contains _ | .get? _ | .get _ => u

def after (uses : List (Use Item)) : UserInfo κ Item :=
  uses.foldl attend empty

/-- There is an item of the kind, and whoever asks for it gets it. -/
structure Has (u : UserInfo κ Item) (k : κ) (x : Item k) : Prop where
  contains : u.contains k = true
  get? : u.get? k = some x
  get : u.get k = .ok x
  replace? : ∀ y, (u.replace? k y).1 = some x
  replace : ∀ y, (u.replace k y).1 = .ok x
  take? : (u.take? k).1 = some x
  take : (u.take k).1 = .ok x

/-- There is no item of the kind, and asking for one changes nothing. -/
structure Lacks (u : UserInfo κ Item) (k : κ) : Prop where
  contains : u.contains k = false
  get? : u.get? k = none
  get : u.get k = .error .absent
  replace? : ∀ x, u.replace? k x = (none, u)
  replace : ∀ x, u.replace k x = (.error .absent, u)
  take? : u.take? k = (none, u)
  take : u.take k = (.error .absent, u)

/-- Every box is filed under the kind of what is in it. -/
def Filed (u : UserInfo κ Item) : Prop :=
  ∀ entry ∈ u.boxes, entry.2.1 = entry.1

variable {u : UserInfo κ Item} {j k : κ} {x : Item k}

theorem open?_self (k : κ) (x : Item k) : open? k ⟨k, x⟩ = some x := by
  simp [open?]

theorem lookup_filter_ne (j k : κ) (boxes : List (κ × Sigma Item)) :
    (boxes.filter fun entry => entry.1 ≠ j).lookup k = if k = j then none else boxes.lookup k := by
  induction boxes with
  | nil => simp
  | cons entry boxes ih =>
    obtain ⟨i, box⟩ := entry
    by_cases hi : i = j
    · subst hi
      by_cases hk : k = i
      · simpa [hk] using ih
      · simpa [hk, List.lookup_cons, beq_eq_false_iff_ne.mpr hk] using ih
    · by_cases hk : k = i
      · simp [hk, hi]
      · simpa [hi, List.filter_cons, List.lookup_cons, beq_eq_false_iff_ne.mpr hk] using ih

@[simp] theorem box?_erase (u : UserInfo κ Item) (j k : κ) :
    (u.erase j).box? k = if k = j then none else u.box? k :=
  lookup_filter_ne j k u.boxes

@[simp] theorem box?_put (u : UserInfo κ Item) (j k : κ) (x : Item j) :
    (u.put j x).box? k = if k = j then some ⟨j, x⟩ else u.box? k := by
  have he : (u.erase j).boxes.lookup k = _ := box?_erase u j k
  by_cases hk : k = j
  · simp [box?, put, hk]
  · simp [box?, put, List.lookup_cons, beq_eq_false_iff_ne.mpr hk, he, hk]

@[simp] theorem box?_refill (u : UserInfo κ Item) (j k : κ) (x : Item j) :
    (u.refill j x).box? k = (u.box? k).map fun box => if k = j then ⟨j, x⟩ else box :=
  Mapping.lookup_map (fun i box => if i = j then (⟨j, x⟩ : Sigma Item) else box) k u.boxes

theorem get?_of_box?_eq {v : UserInfo κ Item} (h : u.box? k = v.box? k) : u.get? k = v.get? k := by
  rw [get?, get?, h]

/-- A use is of no account for the other kinds, nor is one which only looks. -/
theorem box?_attend (u : UserInfo κ Item) {use : Use Item} (h : ¬ use.looks → use.kind ≠ k) :
    (u.attend use).box? k = u.box? k := by
  have hr (j : κ) (hj : k ≠ j) (x : Item j) : (u.replace? j x).2.box? k = u.box? k := by
    unfold replace?
    split
    · simp [hj]
    · rfl
  cases use with
  | contains | get? | get => rfl
  | put j x =>
    have hj : k ≠ j := (h nofun).symm
    simp [attend, hj]
  | replace? j x | replace j x => exact hr j (h nofun).symm x
  | take? j | take j =>
    have hj : k ≠ j := (h nofun).symm
    simp [attend, UserInfo.take, UserInfo.take?, hj]

@[simp] theorem get?_put_self (u : UserInfo κ Item) (k : κ) (x : Item k) :
    (u.put k x).get? k = some x := by
  simp [get?, open?_self]

@[simp] theorem get?_erase_self (u : UserInfo κ Item) (k : κ) : (u.erase k).get? k = none := by
  simp [get?]

theorem get?_refill_self (h : (u.get? k).isSome) (x : Item k) :
    (u.refill k x).get? k = some x := by
  obtain ⟨y, hy⟩ := Option.isSome_iff_exists.mp h
  obtain ⟨box, hb, -⟩ := Option.bind_eq_some_iff.mp hy
  simp [get?, hb, open?_self]

theorem get?_replace? (u : UserInfo κ Item) (k : κ) (x : Item k) :
    (u.replace? k x).2.get? k = (u.get? k).map fun _ => x := by
  unfold replace?
  split
  · rename_i old h
    rw [get?_refill_self (by simp [h]), h]
    rfl
  · rename_i h
    rw [h]
    rfl

theorem isSome_get?_attend (u : UserInfo κ Item) (use : Use Item) (k : κ) :
    ((u.attend use).get? k).isSome ↔
      (∃ x, use = .put k x) ∨ (u.get? k).isSome ∧ ¬ (use.takes ∧ use.kind = k) := by
  by_cases h : ¬ use.looks ∧ use.kind = k
  · obtain ⟨h, hk⟩ := h
    cases use with
    | contains | get? | get => exact absurd rfl h
    | put j y =>
      obtain rfl : j = k := hk
      simp [attend]
    | replace? j y | replace j y =>
      obtain rfl : j = k := hk
      simp [attend, UserInfo.replace, get?_replace?, Use.takes]
    | take? j | take j =>
      obtain rfl : j = k := hk
      simp [attend, UserInfo.take, UserInfo.take?, Use.kind, Use.takes]
  · rw [get?_of_box?_eq (box?_attend u fun hl he => h ⟨hl, he⟩)]
    constructor
    · intro hs
      exact .inr ⟨hs, fun ht => h ⟨Use.not_looks_of_takes ht.1, ht.2⟩⟩
    · intro hs
      rcases hs with ⟨x, rfl⟩ | ⟨hs, -⟩
      · exact absurd ⟨nofun, rfl⟩ h
      · exact hs

theorem get?_attend_eq_some_iff (u : UserInfo κ Item) (use : Use Item) (k : κ) (x : Item k) :
    (u.attend use).get? k = some x ↔
      (use = .put k x ∨ use.assigned? = some ⟨k, x⟩ ∧ (u.get? k).isSome) ∨
        u.get? k = some x ∧ ¬ (¬ use.looks ∧ use.kind = k) := by
  by_cases h : ¬ use.looks ∧ use.kind = k
  · obtain ⟨h, hk⟩ := h
    cases use with
    | contains | get? | get => exact absurd rfl h
    | put j y =>
      obtain rfl : j = k := hk
      simp [attend, Use.assigned?, Use.kind, Use.looks]
    | replace? j y | replace j y =>
      obtain rfl : j = k := hk
      cases hg : u.get? j <;>
        simp [attend, UserInfo.replace, get?_replace?, Use.assigned?, Use.kind, Use.looks, hg]
    | take? j | take j =>
      obtain rfl : j = k := hk
      simp [attend, UserInfo.take, UserInfo.take?, Use.assigned?, Use.kind, Use.looks]
  · rw [get?_of_box?_eq (box?_attend u fun hl he => h ⟨hl, he⟩)]
    constructor
    · intro hx
      exact .inr ⟨hx, h⟩
    · intro hx
      rcases hx with (rfl | ⟨ha, -⟩) | ⟨hx, -⟩
      · exact absurd ⟨nofun, rfl⟩ h
      · exact absurd (Use.of_assigned? ha) h
      · exact hx

theorem after_append (uses : List (Use Item)) (use : Use Item) :
    after (uses ++ [use]) = (after uses).attend use :=
  List.foldl_append

theorem isSome_get?_after (uses : List (Use Item)) (k : κ) :
    ((after uses).get? k).isSome ↔ Present uses k := by
  induction uses using List.reverseRecOn with
  | nil => exact iff_of_false nofun not_since_nil
  | append_singleton uses use ih =>
    rw [after_append, isSome_get?_attend, ih, present_append]

theorem get?_after_eq_some_iff (uses : List (Use Item)) (k : κ) (x : Item k) :
    (after uses).get? k = some x ↔ Held uses k x := by
  induction uses using List.reverseRecOn with
  | nil => exact iff_of_false nofun not_since_nil
  | append_singleton uses use ih =>
    rw [after_append, get?_attend_eq_some_iff, ih, isSome_get?_after, held_append]

theorem Filed.put (h : u.Filed) (k : κ) (x : Item k) : (u.put k x).Filed := by
  intro entry he
  rcases List.mem_cons.mp he with rfl | he
  · rfl
  · exact h entry (List.mem_filter.mp he).1

theorem Filed.erase (h : u.Filed) (k : κ) : (u.erase k).Filed := by
  intro entry he
  exact h entry (List.mem_filter.mp he).1

theorem Filed.replace? (h : u.Filed) (k : κ) (x : Item k) : (u.replace? k x).2.Filed := by
  unfold UserInfo.replace?
  split
  · intro entry he
    obtain ⟨old, ho, rfl⟩ := List.mem_map.mp he
    by_cases hk : old.1 = k
    · simp [hk]
    · simpa [hk] using h old ho
  · exact h

theorem Filed.attend (h : u.Filed) (use : Use Item) : (u.attend use).Filed := by
  cases use with
  | contains | get? | get => exact h
  | put k x => exact h.put k x
  | replace? k x | replace k x => exact h.replace? k x
  | take? k | take k => exact h.erase k

theorem filed_after (uses : List (Use Item)) : (after uses).Filed := by
  induction uses using List.reverseRecOn with
  | nil => exact nofun
  | append_singleton uses use ih =>
    rw [after_append]
    exact ih.attend use

theorem mem_of_box?_eq {box : Sigma Item} (h : u.box? k = some box) : (k, box) ∈ u.boxes :=
  Mapping.mem_of_lookup h

/-- What is filed under its own kind is found there, so an item is missing only if its box is. -/
theorem Filed.isSome_get? (h : u.Filed) (k : κ) : (u.get? k).isSome = (u.box? k).isSome := by
  unfold UserInfo.get?
  cases hb : u.box? k with
  | none => rfl
  | some box =>
    have hk : box.1 = k := h _ (mem_of_box?_eq hb)
    simp [open?, hk]

theorem kinds_iff : k ∈ u.boxes.map Prod.fst ↔ u.contains k := by
  simp [UserInfo.contains, box?]

theorem erase_of_not_contains (h : u.contains k = false) : u.erase k = u := by
  have hk : k ∉ u.boxes.map Prod.fst := by simp [kinds_iff, h]
  have he : u.boxes.filter (fun entry => entry.1 ≠ k) = u.boxes := by
    apply List.filter_eq_self.mpr
    intro entry hm
    have hne : entry.1 ≠ k := fun he => hk (he ▸ List.mem_map_of_mem hm)
    simpa using hne
  cases u
  simpa [UserInfo.erase] using he

theorem take?_eq (u : UserInfo κ Item) (k : κ) : u.take? k = (u.get? k, u.erase k) := rfl

theorem Filed.has (h : u.Filed) (hx : u.get? k = some x) : u.Has k x where
  contains := by rw [UserInfo.contains, ← h.isSome_get?, hx]; rfl
  get? := hx
  get := by rw [UserInfo.get, hx]; rfl
  replace? y := by rw [UserInfo.replace?, hx]
  replace y := by rw [UserInfo.replace, UserInfo.replace?, hx]; rfl
  take? := hx
  take := by rw [UserInfo.take, take?_eq, hx]; rfl

/-- A box which is taken out has the item in it, so where there is no item none is taken out. -/
theorem Filed.lacks (h : u.Filed) (hx : u.get? k = none) : u.Lacks k := by
  have hc : u.contains k = false := by
    rw [UserInfo.contains, ← h.isSome_get?, hx]
    rfl
  have ht : u.take? k = (none, u) := by
    rw [take?_eq, hx, erase_of_not_contains hc]
  have hr : ∀ x, u.replace? k x = (none, u) := by
    intro x
    rw [UserInfo.replace?, hx]
  exact {
    contains := hc
    get? := hx
    get := by rw [UserInfo.get, hx]; rfl
    replace? := hr
    replace := fun x => by rw [UserInfo.replace, hr]; rfl
    take? := ht
    take := by rw [UserInfo.take, ht]; rfl }

/-- After any uses there is of each kind the item which was put or assigned last, unless one was taken
since. All accessors answer by it, and a use of one kind leaves the others as they are. -/
theorem after_history (uses : List (Use Item)) :
    (∀ k x, (after uses).Has k x ↔ Held uses k x) ∧
    (∀ k, (after uses).Lacks k ↔ ∀ x, ¬ Held uses k x) ∧
    (after uses).Filed ∧
    (∀ use k, use.kind ≠ k → ((after uses).attend use).box? k = (after uses).box? k) ∧
    ∃ kinds : List κ, kinds.Nodup ∧ (∀ k, k ∈ kinds ↔ ∃ x, Held uses k x) ∧
      (after uses).size = kinds.length := by
  have hf : (after uses).Filed := filed_after uses
  refine ⟨?_, ?_, hf, fun use k hk => box?_attend _ fun _ => hk, ?_⟩
  · intro k x
    rw [← get?_after_eq_some_iff]
    exact ⟨Has.get?, hf.has⟩
  · intro k
    simp only [← get?_after_eq_some_iff]
    rw [← Option.eq_none_iff_forall_ne_some]
    exact ⟨Lacks.get?, hf.lacks⟩
  · refine ⟨_, (after uses).distinct, ?_, (List.length_map _).symm⟩
    intro k
    rw [kinds_iff, UserInfo.contains, ← hf.isSome_get?, Option.isSome_iff_exists]
    simp only [get?_after_eq_some_iff]

/-- A number which is assigned when there is none yet is not there later; a text is taken twice. -/
theorem after_history_assigned :
    ∃ uses : List (Use fun isNumber : Bool => cond isNumber Nat String),
      uses = [.replace? true (7 : Nat), .put true (1 : Nat), .put false "a", .replace true (5 : Nat),
        .take? false, .take false, .get? true] ∧
      Held uses true (5 : Nat) ∧ (after uses).Has true (5 : Nat) ∧ (after uses).Lacks false := by
  obtain ⟨uses, hu⟩ : ∃ uses : List (Use fun isNumber : Bool => cond isNumber Nat String),
      uses = [.replace? true (7 : Nat), .put true (1 : Nat), .put false "a", .replace true (5 : Nat),
        .take? false, .take false, .get? true] := ⟨_, rfl⟩
  have hheld : Held uses true (5 : Nat) := by
    subst hu
    refine ⟨[_, _, _], .replace true (5 : Nat), [_, _, _], rfl, .inr ⟨rfl, ?_⟩, ?_⟩
    · exact ⟨[_], .put true (1 : Nat), [_], rfl, ⟨_, rfl⟩, by simp [Use.takes]⟩
    · simp [Use.kind, Use.looks]
  obtain ⟨hhas, hlacks, -⟩ := after_history uses
  refine ⟨uses, hu, hheld, (hhas _ _).mpr hheld, (hlacks _).mpr ?_⟩
  intro x hx
  have hg := ((hhas _ _).mpr hx).get?
  subst hu
  cases hg

end UrlRouter.UserInfo
