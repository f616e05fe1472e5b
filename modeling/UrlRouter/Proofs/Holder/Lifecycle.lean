import UrlRouter.Holder
import UrlRouter.Proofs.Router.Reachable

namespace UrlRouter

@[simp] theorem Lock.recover_acquire (l : Lock α) : recover l.acquire = l.value := by
  unfold acquire
  split <;> rfl

namespace Holder

/-- One use of a holder by a program. Its function acts on the world around the holder as well, and may
break off with an `ε`; one which was changing the value leaves it in some state even then. -/
inductive Use (ω ε α β : Type) where
  | fill (x : α)
  | isFilled
  | read (f : α → ω → Except ε β × ω)
  | update (f : α → ω → Except ε β × α × ω)

/-- What the program gets for it. There is no answer but that of the function. -/
inductive Reply (ε α β : Type) where
  | filled
  | handedBack (x : α)
  | isFilled (b : Bool)
  | unanswered
  | answered (outcome : Except ε β)

variable {ω ε α β : Type}

namespace Use

def filling? : Use ω ε α β → Option α
  | .fill x => some x
  | _ => none

/-- What becomes of a value, and of the world around it, when it is used. Only a function which is to
change the value does, and it does so however it ends. -/
def effect (t : α × ω) : Use ω ε α β → α × ω
  | .read f => (t.1, (f t.1 t.2).2)
  | .update f => (f t.1 t.2).2
  | .fill _ | .isFilled => t

end Use

def attend (s : Holder α × ω) : Use ω ε α β → Reply ε α β × Holder α × ω
  | .fill x =>
    match s.1.fill x with
    | (.ok _, h) => (.filled, h, s.2)
    | (.error y, h) => (.handedBack y, h, s.2)
  | .isFilled => (.isFilled s.1.isFilled, s)
  | .read f =>
    match s.1.read (f · s.2) with
    | some (outcome, w) => (.answered outcome, s.1, w)
    | none => (.unanswered, s)
  | .update f =>
    let run x := let (outcome, y, w) := f x s.2; ((outcome, w), y)
    match s.1.update run fun answer => !answer.1.isOk with
    | (some (outcome, w), h) => (.answered outcome, h, w)
    | (none, h) => (.unanswered, h, s.2)

def after (s : Holder α × ω) (uses : List (Use ω ε α β)) : Holder α × ω :=
  uses.foldl (fun s use => (attend s use).2) s

theorem after_cons (s : Holder α × ω) (use : Use ω ε α β) (uses : List (Use ω ε α β)) :
    after s (use :: uses) = after (attend s use).2 uses := rfl

theorem after_append (s : Holder α × ω) (uses later : List (Use ω ε α β)) :
    after s (uses ++ later) = after (after s uses) later :=
  List.foldl_append

/-- Nobody's function is run: the world stays as it is. -/
structure Idle (ε β : Type) (s : Holder α × ω) : Prop where
  isFilled : attend s (.isFilled : Use ω ε α β) = (.isFilled false, s)
  read : ∀ f : α → ω → Except ε β × ω, attend s (.read f) = (.unanswered, s)
  update : ∀ f : α → ω → Except ε β × α × ω, attend s (.update f) = (.unanswered, s)
  fill : ∀ x, (attend s (.fill x : Use ω ε α β)).1 = .filled

/-- Every function is run, on `x` and once, and its outcome is the answer. A value which comes now comes
too late. -/
structure Serves (ε β : Type) (s : Holder α × ω) (x : α) : Prop where
  isFilled : attend s (.isFilled : Use ω ε α β) = (.isFilled true, s)
  fill : ∀ y, attend s (.fill y : Use ω ε α β) = (.handedBack y, s)
  read : ∀ f : α → ω → Except ε β × ω,
    attend s (.read f) = (.answered (f x s.2).1, s.1, (f x s.2).2)
  update : ∀ f : α → ω → Except ε β × α × ω,
    ∃ h, attend s (.update f) = (.answered (f x s.2).1, h, (f x s.2).2.2)

theorem idle_empty (w : ω) : Idle ε β ((empty, w) : Holder α × ω) :=
  ⟨rfl, fun _ => rfl, fun _ => rfl, fun _ => rfl⟩

variable {s : Holder α × ω} {t : α × ω}

/-- A function which broke off leaves the lock poisoned, and behind the lock what it made of the value. -/
theorem attend_update {l : Lock α} (h : s.1.content = some l)
    (f : α → ω → Except ε β × α × ω) :
    attend s (.update f) = (.answered (f l.value s.2).1,
      ⟨some (l.release (f l.value s.2).2.1 (!(f l.value s.2).1.isOk))⟩, (f l.value s.2).2.2) := by
  simp [attend, Holder.update, h]

/-- The value is there, whether its lock is poisoned or not. -/
def Has (s : Holder α × ω) (t : α × ω) : Prop :=
  (∃ l, s.1.content = some l ∧ l.value = t.1) ∧ s.2 = t.2

theorem Has.serves (h : Has s t) : Serves ε β s t.1 := by
  obtain ⟨⟨l, hl, ht⟩, -⟩ := h
  rw [← ht]
  refine ⟨?_, fun y => ?_, fun f => ?_, fun f => ⟨_, attend_update hl f⟩⟩
  · simp [attend, Holder.isFilled, hl]
  · simp [attend, Holder.fill, Lock.fresh, hl]
  · simp [attend, Holder.read, hl]

theorem Has.attend (h : Has s t) (use : Use ω ε α β) : Has (attend s use).2 (use.effect t) := by
  have hs : Serves ε β s t.1 := h.serves
  obtain ⟨⟨l, hl, ht⟩, hw⟩ := h
  cases use with
  | fill y =>
    rw [hs.fill]
    exact ⟨⟨l, hl, ht⟩, hw⟩
  | isFilled =>
    rw [hs.isFilled]
    exact ⟨⟨l, hl, ht⟩, hw⟩
  | read f =>
    rw [hs.read, hw]
    exact ⟨⟨l, hl, ht⟩, rfl⟩
  | update f =>
    rw [attend_update hl, ht, hw]
    exact ⟨⟨_, rfl, rfl⟩, rfl⟩

theorem Has.after (h : Has s t) (uses : List (Use ω ε α β)) :
    Has (after s uses) (uses.foldl Use.effect t) := by
  induction uses generalizing s t with
  | nil => exact h
  | cons use uses ih => exact ih (h.attend use)

theorem attend_empty (w : ω) {use : Use ω ε α β} (h : use.filling? = none) :
    (attend (empty, w) use).2 = (empty, w) := by
  cases use with
  | fill x => cases h
  | isFilled => rfl
  | read f => rfl
  | update f => rfl

theorem after_empty (w : ω) {uses : List (Use ω ε α β)} (h : ∀ use ∈ uses, use.filling? = none) :
    after (empty, w) uses = (empty, w) := by
  induction uses with
  | nil => rfl
  | cons use uses ih =>
    obtain ⟨hu, h⟩ := List.forall_mem_cons.mp h
    rw [after, List.foldl_cons, attend_empty w hu]
    exact ih h

theorem has_filled (x : α) (w : ω) :
    Has (attend (empty, w) (.fill x : Use ω ε α β)).2 (x, w) :=
  ⟨⟨.fresh x, rfl, rfl⟩, rfl⟩

/-- Whatever is done with a new holder, it is idle until a value is put into it. From then on it serves
that value as the functions which were to change it have left it, in their order and also where they broke
off. -/
theorem lifecycle (w : ω) (uses : List (Use ω ε α β)) :
    ((∀ use ∈ uses, use.filling? = none) →
      after (empty, w) uses = (empty, w) ∧ Idle ε β (after (empty, w) uses)) ∧
    ∀ before x later, uses = before ++ .fill x :: later → (∀ use ∈ before, use.filling? = none) →
      (after (empty, w) uses).2 = (later.foldl Use.effect (x, w)).2 ∧
        Serves ε β (after (empty, w) uses) (later.foldl Use.effect (x, w)).1 := by
  constructor
  · intro h
    rw [after_empty w h]
    exact ⟨rfl, idle_empty w⟩
  · rintro before x later rfl h
    rw [after_append, after_empty w h, after_cons]
    have hs : Has (after (attend (empty, w) (.fill x : Use ω ε α β)).2 later)
        (later.foldl Use.effect (x, w)) := (has_filled x w).after later
    exact ⟨hs.2, hs.serves⟩

/-- Two routers come too late, one before and one after a function which added a route and broke off. The
world counts the functions which were run. -/
theorem lifecycle_broken_off :
    ∃ (size : Router Unit → Nat → Except String Nat × Nat)
      (grow : Router Unit → Nat → Except String Nat × Router Unit × Nat),
      (∀ r n, size r n = (.ok r.size, n + 1)) ∧
      (∀ r n, grow r n = (.error "open", r.changed (.add "a/<x>" ()), n + 1)) ∧
      attend (empty, 0) (.read size) = (.unanswered, empty, 0) ∧
      ∃ s, s = after (empty, 0)
          [.read size, .fill (.ofScheme "app"), .fill (.ofScheme "web"), .update grow] ∧ s.2 = 1 ∧
        attend s (.read size) = (.answered (.ok 1), s.1, 2) ∧
        attend s (.fill (.ofScheme "web") : Use Nat String (Router Unit) Nat) =
          (.handedBack (.ofScheme "web"), s) := by
  obtain ⟨size, hsize⟩ : ∃ size : Router Unit → Nat → Except String Nat × Nat,
      ∀ r n, size r n = (.ok r.size, n + 1) := ⟨_, fun _ _ => rfl⟩
  obtain ⟨grow, hgrow⟩ : ∃ grow : Router Unit → Nat → Except String Nat × Router Unit × Nat,
      ∀ r n, grow r n = (.error "open", r.changed (.add "a/<x>" ()), n + 1) := ⟨_, fun _ _ => rfl⟩
  have hidle := (lifecycle 0 [.isFilled, .update grow]).1 (by simp [Use.filling?])
  obtain ⟨hw, hs⟩ := (lifecycle 0
    [.read size, .fill (.ofScheme "app"), .fill (.ofScheme "web"), .update grow]).2
    [.read size] (.ofScheme "app") [.fill (.ofScheme "web"), .update grow] rfl (by simp [Use.filling?])
  have hone : ((Router.ofScheme "app").changed (.add "a/<x>" ()) : Router Unit).size = 1 := by
    decide +kernel
  simp only [List.foldl_cons, List.foldl_nil, Use.effect, hgrow] at hw hs
  have hread := hs.read size
  rw [hsize, hone, hw] at hread
  rw [hidle.1] at hidle
  exact ⟨size, grow, hsize, hgrow, hidle.2.read size, _, rfl, hw, hread, hs.fill (.ofScheme "web")⟩

end Holder

end UrlRouter
