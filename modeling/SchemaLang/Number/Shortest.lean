import SchemaLang.Number.Binary64

/-
  This file finds the shortest decimal that reads back as a given
  number. Every decimal between the midpoints to the neighbouring
  numbers reads back; a midpoint itself does when the significand
  is even. Grids of one, two, and up to seventeen digits are tried
  in turn, and on a grid only the two points next to the value
  have to be looked at.

  Key definitions include:
    * `Decimal`
    * `Decimal.Tie`
    * `Decimal.shortest`
-/

namespace SchemaLang

/- A coefficient and the power of ten it is multiplied by. -/
structure Decimal where
  coefficient : Nat
  power : Int
  deriving DecidableEq, Repr

namespace Decimal

/- Which of two equally near candidates is taken. -/
inductive Tie
  | even
  | up
  deriving DecidableEq, Repr

/-
  A positive value `units * 2 ^ scale` with the bounds of what
  reads back as it, in the same unit.
-/
structure Target where
  units : Nat
  low : Nat
  high : Nat
  scale : Int
  closed : Bool

namespace Target

/- The target of a finite number other than zero. -/
def ofBinary64
    (x : Binary64) : Target :=
  let m := x.significand
  let narrow := x.fraction.val == 0 && 1 < x.exponent.val
  { units := 4 * m
    low := if narrow then 4 * m - 1 else 4 * m - 2
    high := 4 * m + 2
    scale := x.scale - 2
    closed := m % 2 == 0 }

/- The factor of a point `c * 10 ^ power` over a common unit. -/
def pointFactor
    (target : Target)
    (power : Int) : Nat :=
  Nat.pow 10 power.toNat * Nat.pow 2 (-target.scale).toNat

/- The factor of the target's own unit over that common unit. -/
def unitFactor
    (target : Target)
    (power : Int) : Nat :=
  Nat.pow 2 target.scale.toNat * Nat.pow 10 (-power).toNat

/- Whether the point `c * 10 ^ power` reads back as the value. -/
def admits
    (target : Target)
    (power : Int)
    (c : Nat) : Bool :=
  let point := c * target.pointFactor power
  let low := target.low * target.unitFactor power
  let high := target.high * target.unitFactor power
  if target.closed then low ≤ point && point ≤ high
  else low < point && point < high

/- The greatest point of a grid that is not above the value. -/
def below
    (target : Target)
    (power : Int) : Nat :=
  target.units * target.unitFactor power / target.pointFactor power

/- The point of a grid to take, if one reads back. -/
def pick?
    (target : Target)
    (tie : Tie)
    (power : Int) : Option Nat :=
  let c := target.below power
  match target.admits power c, target.admits power (c + 1) with
  | false, false => none
  | true, false => some c
  | false, true => some (c + 1)
  | true, true =>
    let twice := 2 * (target.units * target.unitFactor power)
    let middle := (2 * c + 1) * target.pointFactor power
    if twice < middle then some c
    else if middle < twice then some (c + 1)
    else
      match tie with
      | .up => some (c + 1)
      | .even => some (c + c % 2)

/- Try the grid of a power, then those below it. -/
def search
    (target : Target)
    (tie : Tie) : Nat → Int → Decimal
  | 0, power => ⟨target.below power, power⟩
  | steps + 1, power =>
    match target.pick? tie power with
    | some c => ⟨c, power⟩
    | none => target.search tie steps (power - 1)

/- Move a power up while the value still reaches the next one. -/
def climb
    (target : Target) : Nat → Int → Int
  | 0, power => power
  | steps + 1, power =>
    if target.below (power + 1) = 0 then power
    else target.climb steps (power + 1)

/- The power of ten of the value's first digit. -/
def firstPower
    (target : Target) : Int :=
  let binary := (Nat.log2 target.units : Int) + target.scale
  target.climb 4 ((binary * 30103).fdiv 100000 - 1)

end Target

/- Divide out tens. -/
def strip : Nat → Decimal → Decimal
  | 0, d => d
  | steps + 1, d =>
    if d.coefficient % 10 = 0 then
      strip steps ⟨d.coefficient / 10, d.power + 1⟩
    else d

/- The shortest decimal for a finite number other than zero. -/
def shortest
    (tie : Tie)
    (x : Binary64) : Decimal :=
  let target := Target.ofBinary64 x
  strip 17 (target.search tie 17 target.firstPower)

end Decimal

end SchemaLang
