/-
  GatewayCache.Ratio

  Shares of a whole, written with six decimal places.

  A share is first rounded to a binary fraction of 53 digits, as machine
  numbers are, and then to six decimal places. Of two equally near values the
  even one is taken, both times.
-/

import GatewayCache.Double

namespace GatewayCache.Ratio

open Double (roundDiv)

/-- How far a quotient of at most one has to be shifted to have 53 binary
    digits before the point. -/
def shift (num den : Nat) : Nat :=
  -- With this shift the quotient has 53 or 54 binary digits.
  let s := 53 + den.log2 - num.log2
  if num * Nat.pow 2 s < den * Nat.pow 2 53 then s else s - 1

/-- Millionths of `part / whole`, for a part that is at most the whole. Of an
    empty whole there is no share. -/
def millionths (part whole : Nat) : Nat :=
  if part = 0 || whole = 0 then 0
  else
    let s := shift part whole
    roundDiv (roundDiv (part * Nat.pow 2 s) whole * 1000000) (Nat.pow 2 s)

/-- A share with six decimal places. -/
def text (part whole : Nat) : String :=
  let n := millionths part whole
  let frac := Text.Decimal.write (n % 1000000)
  String.ofList (Text.Decimal.write (n / 1000000) ++ '.' ::
    (List.replicate (6 - frac.length) '0' ++ frac))

example : text 1 3 = "0.333333" := by decide +kernel
example : text 2 3 = "0.666667" := by decide +kernel
example : text 5 5 = "1.000000" := by decide +kernel
example : text 0 0 = "0.000000" := by decide +kernel
example : text 1 128 = "0.007812" := by decide +kernel

end GatewayCache.Ratio
