import StackGraph.Decimal.Binary64
/-!
# Shortest decimals

The decimal with the fewest digits that reads back as a given binary64 number, and its layout as
text.

`Binary64.shortest` takes the interval of reals that round to the number (the ends belong to it
exactly when the significand is even) and tests, for one digit, two digits and so on, the two
neighbours of the number on that decimal grid; the first grid with a hit wins, and of two hits the
nearer.
-/

namespace StackGraph

/-- The positive decimal `digits * 10 ^ exponent`. -/
structure Decimal where
  /-- The digits, read as one natural number. -/
  digits : Nat
  /-- The power of ten of the last digit. -/
  exponent : Int
deriving DecidableEq, Repr

namespace Decimal

/-- Zeros at the end of the digits moved into the exponent, at most `fuel` of them. -/
def trim : Nat → Decimal → Decimal
  | 0, d => d
  | fuel + 1, d =>
    if d.digits ≠ 0 ∧ d.digits % 10 = 0 then trim fuel ⟨d.digits / 10, d.exponent + 1⟩ else d

/-- Where a text form changes between plain and scientific notation. With `n` digits `d₁…dₙ` the
value is `0.d₁…dₙ * 10 ^ point`. -/
structure Layout where
  /-- The largest `point` written plainly. -/
  maxPoint : Int
  /-- The least `point` written plainly. -/
  minPoint : Int
  /-- Written after a plain form without fraction digits. -/
  integralSuffix : String

/-- Sixteen places before the point and four zeros after it are written out; anything further away
uses an exponent without a plus sign. -/
def Layout.config : Layout := ⟨16, -4, ".0"⟩

/-- The text of a positive decimal. -/
def text (layout : Layout) (d : Decimal) : String :=
  let ds := Nat.toDigits 10 d.digits
  let point : Int := ds.length + d.exponent
  if 0 < point ∧ point ≤ layout.maxPoint then
    let whole := ds.take point.toNat
    let fraction := ds.drop point.toNat
    let zeros := List.replicate (point.toNat - ds.length) '0'
    String.ofList (whole ++ zeros) ++
      (if fraction.isEmpty then layout.integralSuffix else "." ++ String.ofList fraction)
  else if layout.minPoint ≤ point ∧ point ≤ 0 then
    "0." ++ String.ofList (List.replicate (-point).toNat '0' ++ ds)
  else
    let fraction := ds.drop 1
    String.ofList (ds.take 1) ++ (if fraction.isEmpty then "" else "." ++ String.ofList fraction) ++
      "e" ++ toString (point - 1)

end Decimal

namespace Binary64

/-- The reals that round to `m * 2 ^ q`, times four and in units of `2 ^ q`: the two ends and
whether they belong to the interval. Below a power of two the gap is half as wide. -/
def interval (m : Nat) (q : Int) : Nat × Nat × Bool :=
  let low := if m = Nat.pow 2 52 ∧ q > minExponent then 4 * m - 1 else 4 * m - 2
  (low, 4 * m + 2, m % 2 = 0)

/-- The number of decimal digits before the point of `num / den`, negative for leading zeros: the
`point` with `10 ^ (point - 1) ≤ num / den < 10 ^ point`, searched downwards from a bound. -/
def pointOf (num den : Nat) : Nat → Int → Int
  | 0, p => p
  | fuel + 1, p =>
    if num * Nat.pow 10 (1 - p).toNat ≥ den * Nat.pow 10 (p - 1).toNat then p
    else pointOf num den fuel (p - 1)

/-- The neighbour of the value on the grid of `10 ^ unit` that lies in the rounding interval and is
nearest to the value, a tie going to the even digit. -/
def gridHit? (m : Nat) (q unit : Int) : Option Nat :=
  let (low, high, closed) := interval m q
  -- all quantities below are scaled by `4 * 2 ^ (-q)`, then by the denominator of `10 ^ unit`
  let up := Nat.pow 10 unit.toNat * Nat.pow 2 (-q).toNat * 4
  let down := Nat.pow 10 (-unit).toNat * Nat.pow 2 q.toNat
  let inside (k : Nat) : Bool :=
    let x := k * up
    if closed then low * down ≤ x && x ≤ high * down else low * down < x && x < high * down
  let value := 4 * m * down
  let floor := value / up
  let below := 2 * (value % up)
  match inside floor, inside (floor + 1) with
  | true, true =>
    if below < up then some floor
    else if below > up then some (floor + 1)
    else some (floor + floor % 2)
  | true, false => some floor
  | false, true => some (floor + 1)
  | false, false => none

/-- Grids of growing fineness, from one digit on. -/
def searchGrids (m : Nat) (q : Int) : Nat → Int → Decimal
  | 0, unit => ⟨(gridHit? m q unit).getD 0, unit⟩
  | fuel + 1, unit =>
    match gridHit? m q unit with
    | some digits => ⟨digits, unit⟩
    | none => searchGrids m q fuel (unit - 1)

/-- The decimal with the fewest digits that rounds to the magnitude of a finite number other than
zero. -/
def shortest (x : Binary64) : Decimal :=
  let (m, q) := x.decode
  let num := m * Nat.pow 2 q.toNat
  let den := Nat.pow 2 (-q).toNat
  -- a binary digit is worth a little more than 0.301 decimal digits
  let bound : Int := (Int.ofNat m.log2 + q + 1) * 301 / 1000 + 2
  let point := pointOf num den 10 bound
  Decimal.trim 20 (searchGrids m q 17 (point - 1))

/-- The text of a finite number: its sign, then its shortest decimal; zero is written with the
layout's suffix. -/
def text (layout : Decimal.Layout) (x : Binary64) : String :=
  (if x.negative then "-" else "") ++
    (if x.decode.1 = 0 then "0" ++ layout.integralSuffix else x.shortest.text layout)

end Binary64

end StackGraph
