/-
  GatewayCache.Json.Number

  Numbers, as JSON spells them.

  A natural number of at most 64 bits is kept. Other numbers are only told
  apart by size: one is huge if no finite double comes out when its digits, as
  many as 64 bits hold, are multiplied by their power of ten.
-/

import GatewayCache.Document
import GatewayCache.Double

namespace GatewayCache.Json

/-- The codes of ASCII digits. -/
def isDigitByte (b : UInt8) : Bool := 0x30 ≤ b.toNat && b.toNat ≤ 0x39

/-- The value of a run of digits. -/
def digitsValue (bs : List UInt8) : Nat := bs.foldl (fun n b => n * 10 + (b.toNat - 0x30)) 0

/-- At least one digit in front. -/
def scanDigits (bs : List UInt8) : Option (List UInt8 × List UInt8) :=
  let digits := bs.takeWhile isDigitByte
  if digits.isEmpty then none else some (digits, bs.drop digits.length)

/-- The whole part: a zero alone, or digits that do not start with a zero. -/
def scanWhole : List UInt8 → Option (List UInt8 × List UInt8)
  | 0x30 :: rest =>
      match rest with
      | b :: _ => if isDigitByte b then none else some ([0x30], rest)
      | [] => some ([0x30], rest)
  | bs => scanDigits bs

/-- The digits behind a point; none without a point. -/
def scanFraction : List UInt8 → Option (List UInt8 × List UInt8)
  | 0x2E :: rest => scanDigits rest
  | bs => some ([], bs)

/-- The exponent with its sign, `true` for negative; `none` without an `e`. -/
def scanExponent : List UInt8 → Option (Option (Bool × Nat) × List UInt8)
  | b :: rest =>
      if b = 0x65 ∨ b = 0x45 then
        let (negative, digits) := match rest with
          | 0x2B :: others => (false, others)
          | 0x2D :: others => (true, others)
          | others => (false, others)
        (scanDigits digits).map fun p => (some (negative, digitsValue p.1), p.2)
      else some (none, b :: rest)
  | [] => some (none, [])

/-- Goes on with a number by further digits while 64 bits hold it, and gives the
    digits that are left. -/
def gather (n : Nat) : List UInt8 → Nat × List UInt8
  | [] => (n, [])
  | b :: bs =>
      let more := n * 10 + (b.toNat - 0x30)
      if more ≤ Text.Decimal.word64 then gather more bs else (n, b :: bs)

/-- The value of a number from its parts. Of the whole part the digits count
    that 64 bits hold, and of the fraction those that they hold behind them;
    every other whole digit counts as a zero. -/
def numberValue (negative : Bool) (whole fraction : List UInt8) (exponent : Option (Bool × Nat)) :
    Document :=
  let (n, cut) := gather 0 whole
  if !negative && cut.isEmpty && fraction.isEmpty && exponent.isNone then .natural n
  else
    let (mantissa, unused) := gather n fraction
    let (raised, lowered) := match exponent with
      | none => (0, 0)
      | some (false, e) => (e, 0)
      | some (true, e) => (0, e)
    if Double.isFiniteByParts mantissa (raised + cut.length)
        (lowered + (fraction.length - unused.length)) then .number
    else .huge

/-- A number in front. -/
def scanNumber (bs : List UInt8) : Option (Document × List UInt8) := do
  let (negative, rest) := match bs with
    | 0x2D :: others => (true, others)
    | others => (false, others)
  let (whole, rest) ← scanWhole rest
  let (fraction, rest) ← scanFraction rest
  let (exponent, rest) ← scanExponent rest
  some (numberValue negative whole fraction exponent, rest)

end GatewayCache.Json
