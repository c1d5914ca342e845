/-!
# Binary floating-point numbers

A `Binary64` is a sign, a whole mantissa of at most 53 bits and a power of two, or one of the
values that are no number. Everything is exact arithmetic on naturals: `ofRatio` rounds a
quotient to the nearest representable number, a half going to the even mantissa, and the other
operations go through it.
-/
namespace ApiProjection

/-- A floating-point number with 53 significant bits and exponents down to −1074. -/
inductive Binary64
  | nan
  | infinite (negative : Bool)
  /-- The number `± mantissa · 2 ^ exponent`. -/
  | finite (negative : Bool) (mantissa : Nat) (exponent : Int)
  deriving DecidableEq, Repr, Inhabited

namespace Binary64

/-- The exponent of the smallest numbers. -/
def leastExponent : Int := -1074

/-- The exponent of the largest numbers. -/
def greatestExponent : Int := 971

/-- The quotient `n / d` rounded to a natural number, a half going to the even neighbour. -/
def roundHalfEven (n d : Nat) : Nat :=
  let q := n / d
  let r := n % d
  if 2 * r < d then q
  else if d < 2 * r then q + 1
  else if q % 2 = 0 then q else q + 1

/-- The quotient `n / d` divided by `b ^ e`, as numerator and denominator. -/
def scaleDown (b n d : Nat) (e : Int) : Nat × Nat :=
  if 0 ≤ e then (n, d * Nat.pow b e.toNat) else (n * Nat.pow b (-e).toNat, d)

/-- The exponent that gives `n / d` a mantissa of 53 bits, or the least one. -/
def exponentFor (n d : Nat) : Int :=
  let e : Int := n.log2 - d.log2 - 53
  let (n', d') := scaleDown 2 n d e
  max leastExponent (if Nat.pow 2 53 ≤ n' / d' then e + 1 else e)

/-- The number nearest to `± n / d`, for `d` not zero. -/
def ofRatio (negative : Bool) (n d : Nat) : Binary64 :=
  if n = 0 then .finite negative 0 leastExponent
  else
    let e := exponentFor n d
    let (n', d') := scaleDown 2 n d e
    let m := roundHalfEven n' d'
    let (m, e) := if m = Nat.pow 2 53 then (Nat.pow 2 52, e + 1) else (m, e)
    if greatestExponent < e then .infinite negative else .finite negative m e

/-- The number nearest to `± digits · 10 ^ exponent`. A number with more than 400 places on
either side of the point is out of range whatever its digits are. -/
def ofDecimal (negative : Bool) (digits : Nat) (exponent : Int) : Binary64 :=
  if digits = 0 then .finite negative 0 leastExponent
  else
    let places : Int := (Nat.toDigits 10 digits).length + exponent
    if 400 < places then .infinite negative
    else if places < -400 then .finite negative 0 leastExponent
    else if 0 ≤ exponent then ofRatio negative (digits * Nat.pow 10 exponent.toNat) 1
    else ofRatio negative digits (Nat.pow 10 (-exponent).toNat)

/-- The number nearest to a whole number. -/
def ofInt (n : Int) : Binary64 := ofRatio (n < 0) n.natAbs 1

/-- Whether the sign is a minus. -/
def isNegative : Binary64 → Bool
  | .nan => false
  | .infinite s => s
  | .finite s _ _ => s

def isFinite : Binary64 → Bool
  | .finite .. => true
  | _ => false

/-- The number with the other sign. -/
def neg : Binary64 → Binary64
  | .nan => .nan
  | .infinite s => .infinite !s
  | .finite s m e => .finite (!s) m e

/-- The magnitude of a finite number as numerator and denominator. -/
def magnitude (m : Nat) (e : Int) : Nat × Nat :=
  if 0 ≤ e then (m * Nat.pow 2 e.toNat, 1) else (m, Nat.pow 2 (-e).toNat)

/-- A finite number as a signed numerator and a denominator. -/
def ratio? : Binary64 → Option (Int × Nat)
  | .finite s m e =>
    let (n, d) := magnitude m e
    some (if s then -(n : Int) else n, d)
  | _ => none

/-- The whole number that a number without a fraction stands for. -/
def toInt? (x : Binary64) : Option Int :=
  match x.ratio? with
  | some (n, d) => if n % d = 0 then some (n / d) else none
  | none => none

/-- The nearest number to a signed quotient; a zero takes the given sign. -/
def ofSigned (zeroSign : Bool) (n : Int) (d : Nat) : Binary64 :=
  if n = 0 then .finite zeroSign 0 leastExponent else ofRatio (n < 0) n.natAbs d

def add : Binary64 → Binary64 → Binary64
  | .nan, _ | _, .nan => .nan
  | .infinite s, .infinite t => if s = t then .infinite s else .nan
  | .infinite s, _ | _, .infinite s => .infinite s
  | x@(.finite s ..), y@(.finite t ..) =>
    match x.ratio?, y.ratio? with
    | some (n, d), some (n', d') => ofSigned (s && t) (n * d' + n' * d) (d * d')
    | _, _ => .nan

def mul : Binary64 → Binary64 → Binary64
  | .nan, _ | _, .nan => .nan
  | .infinite s, y => match y with
    | .finite _ 0 _ => .nan
    | _ => .infinite (s != y.isNegative)
  | x, .infinite t => match x with
    | .finite _ 0 _ => .nan
    | _ => .infinite (x.isNegative != t)
  | x@(.finite s ..), y@(.finite t ..) =>
    match x.ratio?, y.ratio? with
    | some (n, d), some (n', d') => ofSigned (s != t) (n * n') (d * d')
    | _, _ => .nan

/-- The quotient of two finite numbers, the second not zero. -/
def div (x y : Binary64) : Binary64 :=
  match x.ratio?, y.ratio? with
  | some (n, d), some (n', d') =>
    if n' = 0 then .nan
    else ofSigned (x.isNegative != y.isNegative) (n * d' * n'.sign) (d * n'.natAbs)
  | _, _ => .nan

end Binary64
end ApiProjection
