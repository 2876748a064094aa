/-!
# Binary64 numbers

The values of the 64-bit binary floating-point format, kept as their bit patterns and computed with
exact natural-number arithmetic. A finite magnitude is `significand * 2 ^ exponent`, where the
exponent is at least `-1074` and the significand is below `2 ^ 53`.

`Binary64.ofRatio?` rounds a quotient of natural numbers to the nearest value, a tie going to the
even significand, and refuses a quotient beyond the largest finite value. `Binary64.ofDecimal?`
reads `digits * 10 ^ exponent` the same way.
-/

namespace StackGraph

/-- A binary64 number, given by its bit pattern: sign, eleven exponent bits, 52 fraction bits. -/
structure Binary64 where
  /-- The bit pattern. -/
  bits : UInt64
deriving DecidableEq, Repr, Inhabited

namespace Binary64

/-- Positive zero. -/
def zero : Binary64 := ⟨0⟩

/-- The least exponent of a unit in the last place. -/
def minExponent : Int := -1074

/-- The bit pattern of the magnitude `significand * 2 ^ exponent`. A significand of exactly
`2 ^ 53` carries into the exponent field, which is the pattern of the same value. -/
def pack (significand : Nat) (exponent : Int) : Nat :=
  (exponent - minExponent).toNat * Nat.pow 2 52 + significand

/-- The quotient `num / den`, rounded to an integer, a tie going to the even neighbour. -/
def roundQuotient (num den : Nat) : Nat :=
  let floor := num / den
  let twice := 2 * (num % den)
  if twice < den then floor
  else if twice > den then floor + 1
  else floor + floor % 2

/-- The magnitude nearest to `num / den`, or nothing if that lies beyond the finite values. The
denominator is positive. -/
def ofRatio? (num den : Nat) : Option Binary64 :=
  if num = 0 then some zero else
    let guess : Int := Int.ofNat num.log2 - Int.ofNat den.log2 - 52
    let scaled (q : Int) : Nat × Nat :=
      (num * Nat.pow 2 (-q).toNat, den * Nat.pow 2 q.toNat)
    let (a, b) := scaled guess
    let q := max (if a / b < Nat.pow 2 52 then guess - 1 else guess) minExponent
    let (a, b) := scaled q
    let bits := pack (roundQuotient a b) q
    if bits < 2047 * Nat.pow 2 52 then some ⟨bits.toUInt64⟩ else none

/-- The magnitude nearest to `digits * 10 ^ exponent`. Exponents that leave the finite range on
either side whatever the digits are settled without computing the power. -/
def ofDecimal? (digits : Nat) (exponent : Int) : Option Binary64 :=
  if digits = 0 then some zero
  else if exponent > 400 then none
  else if exponent + ((digits.log2 + 1 : Nat) : Int) < -400 then some zero
  else ofRatio? (digits * Nat.pow 10 exponent.toNat) (Nat.pow 10 (-exponent).toNat)

/-- Whether the sign bit is set. -/
def negative (x : Binary64) : Bool := x.bits.toNat ≥ Nat.pow 2 63

/-- The same magnitude with the other sign. -/
def neg (x : Binary64) : Binary64 := ⟨x.bits ^^^ 0x8000000000000000⟩

/-- The significand and exponent of the magnitude of a finite number. -/
def decode (x : Binary64) : Nat × Int :=
  let field := x.bits.toNat / Nat.pow 2 52 % 2048
  let fraction := x.bits.toNat % Nat.pow 2 52
  if field = 0 then (fraction, minExponent) else (Nat.pow 2 52 + fraction, Int.ofNat field - 1075)

/-- The value nearest to an integer. Integers of up to 1023 bits are in range; beyond, zero stands
in for the missing value. -/
def ofInt (i : Int) : Binary64 :=
  let magnitude := (ofRatio? i.natAbs 1).getD zero
  if i < 0 then magnitude.neg else magnitude

/-- The magnitude of a finite number as an integer, if it is one. -/
def toNat? (x : Binary64) : Option Nat :=
  let (m, q) := x.decode
  if q ≥ 0 then some (m * Nat.pow 2 q.toNat)
  else if m % Nat.pow 2 (-q).toNat = 0 then some (m / Nat.pow 2 (-q).toNat) else none

/-- Zero has the all-zero pattern. -/
theorem ofRatio?_zero (den : Nat) : ofRatio? 0 den = some zero := rfl

end Binary64

end StackGraph
