namespace UrlRouter

/-- Items of several kinds, at most one of each. An item is kept in a box which knows the kind of what
is in it, beside the kind it is filed under. -/
structure UserInfo (κ : Type) (Item : κ → Type) where
  boxes : List (κ × Sigma Item)
  distinct : (boxes.map Prod.fst).Nodup

inductive UserInfo.Fault where
  | absent
  deriving DecidableEq

def UserInfo.Fault.message : UserInfo.Fault → String
  | .absent => "required type is not present in UserInfo container"

namespace UserInfo

variable {κ : Type} {Item : κ → Type} [DecidableEq κ]

def empty : UserInfo κ Item := ⟨[], .nil⟩

/-- What is in the box, if it is of the kind which is asked for. -/
def open? (k : κ) (box : Sigma Item) : Option (Item k) :=
  if h : box.1 = k then some (h ▸ box.2) else none

def box? (u : UserInfo κ Item) (k : κ) : Option (Sigma Item) :=
  u.boxes.lookup k

/-- The box is not opened. -/
def contains (u : UserInfo κ Item) (k : κ) : Bool :=
  (u.box? k).isSome

def get? (u : UserInfo κ Item) (k : κ) : Option (Item k) :=
  (u.box? k).bind (open? k)

def size (u : UserInfo κ Item) : Nat :=
  u.boxes.length

def isEmpty (u : UserInfo κ Item) : Bool :=
  u.boxes.isEmpty

def erase (u : UserInfo κ Item) (k : κ) : UserInfo κ Item where
  boxes := u.boxes.filter fun entry => entry.1 ≠ k
  distinct := u.distinct.sublist (List.filter_sublist.map _)

/-- A box which is filed under the same kind makes way. -/
def put (u : UserInfo κ Item) (k : κ) (x : Item k) : UserInfo κ Item where
  boxes := (k, ⟨k, x⟩) :: (u.erase k).boxes
  distinct := List.nodup_cons.mpr ⟨by simp [erase], (u.erase k).distinct⟩

/-- The box is taken out before it is opened. -/
def take? (u : UserInfo κ Item) (k : κ) : Option (Item k) × UserInfo κ Item :=
  let box := u.box? k
  (box.bind (open? k), u.erase k)

/-- Another item in the box which is filed under the kind. -/
def refill (u : UserInfo κ Item) (k : κ) (x : Item k) : UserInfo κ Item where
  boxes := u.boxes.map fun (j, box) => (j, if j = k then ⟨k, x⟩ else box)
  distinct := by
    rw [List.map_map]
    exact u.distinct

/-- Puts `x` in the place of the item which is there. Nothing is put where there is none. -/
def replace? (u : UserInfo κ Item) (k : κ) (x : Item k) : Option (Item k) × UserInfo κ Item :=
  match u.get? k with
  | some old => (some old, u.refill k x)
  | none => (none, u)

def demand : Option α → Except Fault α
  | some x => .ok x
  | none => .error .absent

def get (u : UserInfo κ Item) (k : κ) : Except Fault (Item k) :=
  demand (u.get? k)

def take (u : UserInfo κ Item) (k : κ) : Except Fault (Item k) × UserInfo κ Item :=
  let (x, rest) := u.take? k
  (demand x, rest)

def replace (u : UserInfo κ Item) (k : κ) (x : Item k) :
    Except Fault (Item k) × UserInfo κ Item :=
  let (old, changed) := u.replace? k x
  (demand old, changed)

def inspect (u : UserInfo κ Item) : String :=
  "UserInfo \x7b len: " ++ u.size.repr ++ " \x7d"

end UserInfo

end UrlRouter
