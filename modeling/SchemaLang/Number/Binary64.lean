/-
  This file defines binary floating point numbers of 64 bits and
  the rounding of an exact quotient to the nearest of them.

  A number is kept as its three fields, so every value of the type
  is a number of the format, and all arithmetic on it is exact
  arithmetic on naturals and integers.

  Key definitions include:
    * `Binary64`
    * `Binary64.significand`
    * `Binary64.scale`
    * `Binary64.same`
    * `Binary64.integer?`
    * `Binary64.ofRatio`
    * `Binary64.ofDecimal`
-/

namespace SchemaLang

/- The sign, the biased exponent and the fraction of a number. -/
structure Binary64 where
  negative : Bool
  exponent : Fin 2048
  fraction : Fin 4503599627370496
  deriving DecidableEq, Repr

namespace Binary64

------------------------------------------------------------
-- Values
------------------------------------------------------------

/- A zero of either sign. -/
def zero
    (negative : Bool) : Binary64 :=
  ⟨negative, 0, 0⟩

/- An infinity of either sign. -/
def infinity
    (negative : Bool) : Binary64 :=
  ⟨negative, 2047, 0⟩

/- The value that is not a number. -/
def undefined : Binary64 :=
  ⟨false, 2047, 2251799813685248⟩

/- Whether the value is a number other than the infinities. -/
def isFinite
    (x : Binary64) : Bool :=
  x.exponent.val != 2047

/- Whether the value is not a number. -/
def isUndefined
    (x : Binary64) : Bool :=
  x.exponent.val == 2047 && x.fraction.val != 0

/- Whether the value is a zero. -/
def isZero
    (x : Binary64) : Bool :=
  x.exponent.val == 0 && x.fraction.val == 0

/- Whether the value is less than zero. -/
def isNegative
    (x : Binary64) : Bool :=
  x.negative && !x.isUndefined && !x.isZero

/- The value with the other sign. -/
def negate
    (x : Binary64) : Binary64 :=
  { x with negative := !x.negative }

/-
  Equality of values: the two zeros are equal, and what is not a
  number equals nothing.
-/
def same
    (x y : Binary64) : Bool :=
  !x.isUndefined && !y.isUndefined && (x == y || (x.isZero && y.isZero))

/- The integer that is multiplied by a power of two. -/
def significand
    (x : Binary64) : Nat :=
  if x.exponent.val = 0 then x.fraction.val
  else x.fraction.val + Nat.pow 2 52

/- The exponent of that power of two. -/
def scale
    (x : Binary64) : Int :=
  (max x.exponent.val 1 : Nat) - 1075

/- The value as an integer, if it is one. -/
def integer?
    (x : Binary64) : Option Int :=
  if !x.isFinite then none
  else
    let sign : Int := if x.negative then -1 else 1
    let up := x.scale.toNat
    let down := (-x.scale).toNat
    if x.significand % Nat.pow 2 down = 0 then
      some (sign *
        ((x.significand / Nat.pow 2 down * Nat.pow 2 up : Nat) : Int))
    else none

------------------------------------------------------------
-- Rounding
------------------------------------------------------------

/-
  A quotient rounded to the nearest integer; a half goes to the
  even neighbour.
-/
def roundQuotient
    (num den : Nat) : Nat :=
  let quotient := num / den
  let rest := num % den
  if 2 * rest < den then quotient
  else if den < 2 * rest then quotient + 1
  else quotient + quotient % 2

/-
  The number whose exponent and fraction fields, read as one
  integer, are the given one. Magnitudes are in this order, so a
  significand that is rounded up carries into the exponent, and
  whatever lies above the greatest number is an infinity.
-/
def ofFields
    (negative : Bool)
    (fields : Nat) : Binary64 :=
  if h : fields / 4503599627370496 < 2047 then
    ⟨negative, ⟨fields / 4503599627370496, by omega⟩,
      ⟨fields % 4503599627370496, Nat.mod_lt _ (by decide)⟩⟩
  else infinity negative

/-
  The exponent of the unit in which a positive quotient has 53
  binary digits, but not less than that of the smallest number.
-/
def unitExponent
    (num den : Nat) : Int :=
  let guess : Int := (Nat.log2 num : Int) - Nat.log2 den - 53
  let reached :=
    den * Nat.pow 2 guess.toNat * Nat.pow 2 53 ≤
      num * Nat.pow 2 (-guess).toNat
  max (if reached then guess + 1 else guess) (-1074)

/- The number nearest to a quotient of naturals. -/
def ofRatio
    (negative : Bool)
    (num den : Nat) : Binary64 :=
  if num = 0 then zero negative
  else
    let unit := unitExponent num den
    let units :=
      roundQuotient (num * Nat.pow 2 (-unit).toNat)
        (den * Nat.pow 2 unit.toNat)
    ofFields negative ((unit + 1074).toNat * 4503599627370496 + units)

/-
  The number nearest to a coefficient times a power of ten. Powers
  that are out of reach for every coefficient of its length are
  not computed.
-/
def ofDecimal
    (negative : Bool)
    (coefficient : Nat)
    (power : Int) : Binary64 :=
  if coefficient = 0 then zero negative
  else if 400 < power then infinity negative
  else if power < -(400 + Nat.log2 coefficient : Nat) then zero negative
  else
    ofRatio negative (coefficient * Nat.pow 10 power.toNat)
      (Nat.pow 10 (-power).toNat)

/- The number nearest to a natural. -/
def ofNat
    (n : Nat) : Binary64 :=
  ofRatio false n 1

end Binary64

end SchemaLang
