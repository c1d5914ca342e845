import ApiProjection.Number.Binary64
/-!
# The shortest decimal text of a floating-point number

Every real number between the two midpoints around a floating-point number rounds to it. On the
decimal grids of 1, 2, … 17 digits `shortest` tries the two neighbours of the number; the first
grid with a neighbour inside that interval gives the digits, the nearer one if both are inside.
`Layout` decides how the digits are laid out; `Layout.standard` is the one in use everywhere.
-/
namespace ApiProjection.Binary64

/-- Whether `a / b ≤ c / d`. -/
def ratioLe (x y : Nat × Nat) : Bool := x.1 * y.2 ≤ y.1 * x.2

/-- The number of decimal digits of a natural number. -/
def digitCount (n : Nat) : Nat := (Nat.toDigits 10 n).length

/-- The place `p` with `10 ^ (p - 1) ≤ n / d < 10 ^ p`, for a positive quotient. -/
def decimalPlace (n d : Nat) : Int :=
  if d ≤ n then digitCount (n / d)
  else
    let below : Int := 1 - digitCount (d / n)
    if d ≤ n * Nat.pow 10 (-below).toNat then below + 1 else below

/-- Whether `digits · 10 ^ exponent` rounds to `m · 2 ^ e`. The interval ends half a step away,
a quarter below a power of two; its ends belong to it when the mantissa is even. -/
def readsBack (m : Nat) (e : Int) (digits : Nat) (exponent : Int) : Bool :=
  let lower := if m = Nat.pow 2 52 && leastExponent < e then 4 * m - 1 else 4 * m - 2
  let lo := magnitude lower (e - 2)
  let hi := magnitude (4 * m + 2) (e - 2)
  let x := if 0 ≤ exponent then (digits * Nat.pow 10 exponent.toNat, 1)
    else (digits, Nat.pow 10 (-exponent).toNat)
  if m % 2 = 0 then ratioLe lo x && ratioLe x hi
  else !ratioLe x lo && !ratioLe hi x

/-- The neighbour of `n / d` on the grid of multiples of `10 ^ k` that rounds to `m · 2 ^ e`. -/
def gridHit? (m : Nat) (e : Int) (n d : Nat) (k : Int) : Option Nat :=
  let (n', d') := scaleDown 10 n d k
  let below := n' / d'
  match readsBack m e below k, readsBack m e (below + 1) k with
  | true, true =>
    let twice := 2 * (n' % d')
    if twice < d' then some below
    else if d' < twice then some (below + 1)
    else some (if below % 2 = 0 then below else below + 1)
  | true, false => some below
  | false, true => some (below + 1)
  | false, false => none

/-- A factor of ten in the digits moved to the exponent, at most `fuel` times. -/
def stripZeros : Nat → Nat → Int → Nat × Int
  | fuel + 1, digits, k => if digits % 10 = 0 then stripZeros fuel (digits / 10) (k + 1) else (digits, k)
  | 0, digits, k => (digits, k)

/-- The fewest digits, with their power of ten, that read back as `m · 2 ^ e`, for `m` not zero. -/
def shortest (m : Nat) (e : Int) : Nat × Int :=
  let (n, d) := magnitude m e
  let place := decimalPlace n d
  let hit := (List.range 17).findSome? fun i =>
    let k := place - ((i + 1 : Nat) : Int)
    (gridHit? m e n d k).map (·, k)
  match hit with
  | some (digits, k) => stripZeros 18 digits k
  | none => (m, 0)

/-- How digits are laid out as text. -/
structure Layout where
  /-- The least place of the first digit that is written without an exponent. -/
  leastPlace : Int
  /-- The greatest such place. -/
  greatestPlace : Int
  /-- The least number of digits of an exponent. -/
  exponentDigits : Nat

/-- From 0.0001 up to below 10^16 a number is written with a point and at least one digit on
either side of it; any other has an exponent of two or more digits with its sign. -/
def Layout.standard : Layout := { leastPlace := -3, greatestPlace := 16, exponentDigits := 2 }

/-- The digits of `n` with zeros in front up to the given width. -/
def padded (width n : Nat) : List Char :=
  let ds := Nat.toDigits 10 n
  List.replicate (width - ds.length) '0' ++ ds

/-- Lays out a positive number given by its digits and their power of ten. -/
def Layout.write (l : Layout) (digits : Nat) (k : Int) : List Char :=
  let ds := Nat.toDigits 10 digits
  let place : Int := ds.length + k
  if l.leastPlace ≤ place && place ≤ l.greatestPlace then
    if place ≤ 0 then '0' :: '.' :: (List.replicate (-place).toNat '0' ++ ds)
    else if 0 ≤ k then ds ++ List.replicate k.toNat '0' ++ ['.', '0']
    else ds.take place.toNat ++ '.' :: ds.drop place.toNat
  else
    let x := place - 1
    let mantissa := match ds with
      | c :: rest@(_ :: _) => c :: '.' :: rest
      | _ => ds
    mantissa ++ 'e' :: (if x < 0 then '-' else '+') :: padded l.exponentDigits x.natAbs

/-- The text of a floating-point number. -/
def chars : Binary64 → List Char
  | .nan => "nan".toList
  | .infinite s => (if s then "-inf" else "inf").toList
  | .finite s m e =>
    let body := if m = 0 then ['0', '.', '0'] else
      let (digits, k) := shortest m e
      Layout.standard.write digits k
    if s then '-' :: body else body

/-- The text of a floating-point number, as a string. -/
def text (x : Binary64) : String := String.ofList x.chars

end ApiProjection.Binary64
