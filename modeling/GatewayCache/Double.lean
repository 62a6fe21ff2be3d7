/-
  GatewayCache.Double

  What doubles make of natural numbers.

  A double has 53 binary digits, and there is a largest one. A number between
  two doubles goes to the nearer one, of two equally near ones to the even one;
  half a unit above the largest double infinity begins.
-/

import GatewayCache.Text.Decimal

namespace GatewayCache.Double

/-- A quotient rounded to the nearest natural number, a half to the even one. -/
def roundDiv (num den : Nat) : Nat :=
  let q := num / den
  let r := num % den
  if den < 2 * r then q + 1
  else if 2 * r < den then q
  else q + q % 2

/-- The multiple of a power of two nearest to a number, of which 53 binary
    digits are kept. -/
def nearest (n : Nat) : Nat :=
  let unit := Nat.pow 2 (n.log2 - 52)
  roundDiv n unit * unit

/-- The smallest natural number that rounds to an infinite double: half a unit
    above the largest finite one. -/
def infiniteFrom : Nat := Nat.pow 2 1024 - Nat.pow 2 970

/-- Whether `mantissa · 10 ^ (raised - lowered)` rounds to a finite double. -/
def isFinite (mantissa raised lowered : Nat) : Bool :=
  if mantissa = 0 then true
  else
    -- Far from the bound the number of digits decides.
    let digits := (Text.Decimal.write mantissa).length
    if lowered + 310 < digits + raised then false
    else if digits + raised < lowered + 300 then true
    else mantissa * Nat.pow 10 (raised - lowered) < infiniteFrom * Nat.pow 10 (lowered - raised)

/-- Whether `mantissa · 10 ^ (raised - lowered)` is a finite double when the
    mantissa, the power of ten and their product are rounded one after the
    other. A power above `10 ^ 308` is infinite by itself. -/
def isFiniteByParts (mantissa raised lowered : Nat) : Bool :=
  mantissa = 0 || raised ≤ lowered
    || (raised - lowered ≤ 308
      && nearest mantissa * nearest (Nat.pow 10 (raised - lowered)) < infiniteFrom)

-- Odd numbers above two to the power of 53 lie halfway between two doubles.
example : nearest 9007199254740993 = 9007199254740992 := by decide +kernel
example : nearest 9007199254740995 = 9007199254740996 := by decide +kernel
-- Rounded at once the first one is the largest double, rounded by parts it is infinite.
example : isFinite 17976931348623158 292 0 = true := by decide +kernel
example : isFiniteByParts 17976931348623158 292 0 = false := by decide +kernel
example : isFiniteByParts 17976931348623157 292 0 = true := by decide +kernel

end GatewayCache.Double
