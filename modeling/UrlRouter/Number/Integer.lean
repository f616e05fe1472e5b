namespace UrlRouter

inductive Width where
  | w8 | w16 | w32 | w64
  /-- As wide as an address, which is 64 bits. -/
  | pointer
  deriving DecidableEq

namespace Width

def bits : Width → Nat
  | .w8 => 8
  | .w16 => 16
  | .w32 => 32
  | .w64 | .pointer => 64

end Width

structure IntegerType where
  signed : Bool
  width : Width
  deriving DecidableEq

namespace IntegerType

def i64 : IntegerType := ⟨true, .w64⟩

def low (t : IntegerType) : Int :=
  if t.signed then -(1 <<< (t.width.bits - 1) : Nat) else 0

def high (t : IntegerType) : Int :=
  (1 <<< (if t.signed then t.width.bits - 1 else t.width.bits) : Nat) - 1

def Holds (t : IntegerType) (n : Int) : Prop :=
  t.low ≤ n ∧ n ≤ t.high

instance (t : IntegerType) (n : Int) : Decidable (t.Holds n) :=
  inferInstanceAs (Decidable (_ ∧ _))

/-- The type as texts are read into it: only the number of bits matters there. -/
def bitsName (t : IntegerType) : String :=
  (if t.signed then "i" else "u") ++ t.width.bits.repr

def name (t : IntegerType) : String :=
  match t.width with
  | .pointer => if t.signed then "isize" else "usize"
  | _ => t.bitsName

end IntegerType

namespace Decimal

/-- One or more ASCII digits, leading zeros allowed. -/
def natural? (cs : List Char) : Option Nat :=
  if cs.isEmpty then none
  else if cs.all Char.isDigit then some (Nat.ofDigitChars 10 cs 0)
  else none

/-- Digits after at most one sign. A minus is refused where negative numbers are, even before a zero. -/
def integer? (signed : Bool) : List Char → Option Int
  | '+' :: cs => (natural? cs).map Int.ofNat
  | '-' :: cs => if signed then (natural? cs).map fun n => -(n : Int) else none
  | cs => (natural? cs).map Int.ofNat

end Decimal

/-- Numbers outside the range of the type are refused, never wrapped into it. -/
def IntegerType.parse? (t : IntegerType) (s : String) : Option Int :=
  (Decimal.integer? t.signed s.toList).filter fun n => t.Holds n

end UrlRouter
