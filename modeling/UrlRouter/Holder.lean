namespace UrlRouter

/-- A value which is lent out to be changed. Once such a change was broken off the lock is poisoned, and
it stays so. -/
structure Lock (α : Type u) where
  value : α
  poisoned : Bool

namespace Lock

def fresh (x : α) : Lock α := ⟨x, false⟩

/-- A poisoned lock hands its value out as an error. -/
def acquire (l : Lock α) : Except α α :=
  if l.poisoned then .error l.value else .ok l.value

/-- The value is taken either way: a change which was broken off is left half done, not taken back. -/
def recover : Except α α → α
  | .ok x | .error x => x

def release (l : Lock α) (x : α) (brokeOff : Bool) : Lock α :=
  ⟨x, l.poisoned || brokeOff⟩

end Lock

/-- A place for one value: empty at first, filled once, and changed in place from then on. It is a cell
which can be set once, with a lock around what it holds. -/
structure Holder (α : Type u) where
  content : Option (Lock α)

namespace Holder

def empty : Holder α := ⟨none⟩

def isFilled (h : Holder α) : Bool :=
  h.content.isSome

/-- A value which comes too late is handed back, out of a lock of its own. -/
def fill (h : Holder α) (x : α) : Except α Unit × Holder α :=
  match h.content with
  | some _ => (.error (Lock.recover (Lock.fresh x).acquire), h)
  | none => (.ok (), ⟨some (.fresh x)⟩)

def read (h : Holder α) (f : α → β) : Option β :=
  h.content.map fun l => f (Lock.recover l.acquire)

/-- What `f` makes of the value stays, whatever `f` answers. `brokeOff` knows the answers of an `f` which
came to no end. -/
def update (h : Holder α) (f : α → β × α) (brokeOff : β → Bool := fun _ => false) :
    Option β × Holder α :=
  match h.content with
  | some l =>
    let (answer, changed) := f (Lock.recover l.acquire)
    (some answer, ⟨some (l.release changed (brokeOff answer))⟩)
  | none => (none, h)

end Holder

end UrlRouter
