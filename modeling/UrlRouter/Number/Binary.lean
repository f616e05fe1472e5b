import UrlRouter.Number.Integer

namespace UrlRouter

/-- A binary floating point format: the bits of its significands, whose first bit is not stored, and
the bits of its exponents. -/
structure FloatType where
  precision : Nat
  exponentBits : Nat
  deriving DecidableEq

/-- A number as its bits without the sign, infinity included, or no number at all. -/
inductive Binary where
  | signed (negative : Bool) (magnitude : Nat)
  | nan
  deriving DecidableEq

namespace FloatType

def f32 : FloatType := ⟨24, 8⟩

def f64 : FloatType := ⟨53, 11⟩

def bits (t : FloatType) : Nat :=
  t.precision + t.exponentBits

def name (t : FloatType) : String :=
  "f" ++ t.bits.repr

def bias (t : FloatType) : Nat :=
  1 <<< (t.exponentBits - 1) - 1

/-- The exponent of the smallest positive number. -/
def lowest (t : FloatType) : Int :=
  2 - t.bias - t.precision

def infinity (t : FloatType) : Nat :=
  (1 <<< t.exponentBits - 1) <<< (t.precision - 1)

/-- The quotient rounded to the nearest natural number, of two to the even one. -/
def roundDiv (a d : Nat) : Nat :=
  let twice := 2 * (a % d)
  if twice < d then a / d
  else if d < twice then a / d + 1
  else a / d + a / d % 2

/-- The exponent of the largest power of two which is not above `a / d`. -/
def binade (a d : Nat) : Int :=
  let e : Int := a.log2 - d.log2
  if d <<< e.toNat ≤ a <<< (-e).toNat then e else e - 1

/-- The magnitude nearest to `a / d`. A significand which rounds up to the next power of two carries
into the exponent, and out of the largest exponent into infinity. -/
def nearest (t : FloatType) (a d : Nat) : Nat :=
  if a = 0 then 0
  else
    let unit := max (binade a d + 1 - t.precision) t.lowest
    let significand := roundDiv (a <<< (-unit).toNat) (d <<< unit.toNat)
    min ((unit - t.lowest).toNat <<< (t.precision - 1) + significand) t.infinity

/-- The magnitude nearest to `c * 10 ^ e`. Ten is more than the third power of two, so exponents far
out of the range of the format are settled without that power of ten. -/
def ofDecimal (t : FloatType) (c : Nat) (e : Int) : Nat :=
  if c = 0 then 0
  else if 0 ≤ e then
    if t.bias < c.log2 + 3 * e then t.infinity else t.nearest (c * Nat.pow 10 e.toNat) 1
  else
    if c.log2 + 1 + 3 * e < t.lowest then 0 else t.nearest c (Nat.pow 10 (-e).toNat)

def ofInt (t : FloatType) (n : Int) : Binary :=
  .signed (n < 0) (t.nearest n.natAbs 1)

/-- The bits in hex, as many digits as the format has. -/
def hex (t : FloatType) : Binary → String
  | .nan => "nan"
  | .signed negative magnitude =>
    let word := if negative then 1 <<< (t.bits - 1) + magnitude else magnitude
    .ofList ((Nat.toDigits 16 word).leftpad (t.bits / 4) '0')

end FloatType

namespace Decimal

def exponent? : List Char → Option Int
  | [] => some 0
  | c :: cs => if c = 'e' ∨ c = 'E' then integer? true cs else none

/-- A coefficient and a power of ten. Digits may be missing on one side of the point, not on both. -/
def scientific? (cs : List Char) : Option (Nat × Int) := do
  let whole := cs.takeWhile Char.isDigit
  let rest := cs.dropWhile Char.isDigit
  let (fraction, rest) := match rest with
    | '.' :: rest => (rest.takeWhile Char.isDigit, rest.dropWhile Char.isDigit)
    | _ => ([], rest)
  let coefficient ← natural? (whole ++ fraction)
  let exponent ← exponent? rest
  return (coefficient, exponent - fraction.length)

end Decimal

namespace FloatType

def magnitude? (t : FloatType) (cs : List Char) : Option (Bool → Binary) :=
  match String.ofList (cs.map Char.toLower) with
  | "inf" | "infinity" => some (.signed · t.infinity)
  | "nan" => some fun _ => .nan
  | _ => (Decimal.scientific? cs).map fun (c, e) => (.signed · (t.ofDecimal c e))

def parse? (t : FloatType) (s : String) : Option Binary :=
  match s.toList with
  | '+' :: cs => (t.magnitude? cs).map (· false)
  | '-' :: cs => (t.magnitude? cs).map (· true)
  | cs => (t.magnitude? cs).map (· false)

end FloatType

end UrlRouter
