/-
  GatewayCache.Yaml.Scalar

  What plain words stand for.

  A word between quotes is always text. A plain one may be null, a truth value
  or a number. Natural numbers are decimal, or hexadecimal, octal or binary
  behind `0x`, `0o` and `0b`; digits behind a leading zero are text.
-/

import GatewayCache.Document
import GatewayCache.Double
import GatewayCache.Text.Hex

namespace GatewayCache.Yaml

/-! ## Whole numbers -/

/-- The value of a digit of a base of at most sixteen. -/
def digit? (base : Nat) (c : Char) : Option Nat :=
  (Text.Hex.digitValue? c.toNat).bind fun d => if d < base then some d else none

/-- The value of digits of a base, at least one. -/
def digits? (base : Nat) : List Char → Option Nat
  | [] => none
  | cs => cs.foldlM (fun n c => (digit? base c).map (n * base + ·)) 0

/-- The natural number that a word without a sign spells. -/
def magnitude? : List Char → Option Nat
  | '0' :: 'x' :: cs => digits? 16 cs
  | '0' :: 'o' :: cs => digits? 8 cs
  | '0' :: 'b' :: cs => digits? 2 cs
  -- Digits behind a leading zero are text.
  | '0' :: _ :: _ => none
  | cs => digits? 10 cs

/-- A whole number of at most 128 bits. -/
def whole? : List Char → Option Document
  | '-' :: cs =>
      (magnitude? cs).bind fun n =>
        if n = 0 then some .negativeZero
        else if n ≤ Nat.pow 2 63 then some .number
        else if n ≤ Nat.pow 2 127 then some .huge
        else none
  | cs =>
      (magnitude? (match cs with | '+' :: others => others | _ => cs)).bind fun n =>
        if n ≤ Text.Decimal.word64 then some (.natural n)
        else if n < Nat.pow 2 128 then some .huge
        else none

/-! ## Other numbers -/

/-- Digits in front, and what stands behind them. -/
def splitDigits (cs : List Char) : List Char × List Char :=
  (cs.takeWhile Char.isDigit, cs.dropWhile Char.isDigit)

/-- The exponent that is all of a text: how far it raises and how far it lowers.
    Nothing is no exponent. -/
def exponent? : List Char → Option (Nat × Nat)
  | [] => some (0, 0)
  | c :: cs =>
      if c = 'e' ∨ c = 'E' then
        match cs with
        | '+' :: ds => (digits? 10 ds).map fun n => (n, 0)
        | '-' :: ds => (digits? 10 ds).map fun n => (0, n)
        | ds => (digits? 10 ds).map fun n => (n, 0)
      else none

/-- Whether a word without a sign spells a number with a fraction or an
    exponent that rounds to a finite one. -/
def spellsFinite (cs : List Char) : Bool :=
  let (whole, rest) := splitDigits cs
  let (fraction, rest) := match rest with
    | '.' :: others => splitDigits others
    | others => ([], others)
  match digits? 10 (whole ++ fraction), exponent? rest with
  | some mantissa, some (raised, lowered) =>
      Double.isFinite mantissa raised (lowered + fraction.length)
  | _, _ => false

/-- Digits behind a leading zero. -/
def isPadded : List Char → Bool
  | '0' :: c :: cs => (c :: cs).all Char.isDigit
  | _ => false

/-- A word without its sign. -/
def unsigned : List Char → List Char
  | c :: cs => if c = '+' ∨ c = '-' then cs else c :: cs
  | [] => []

/-- The words for numbers without bounds, and for no number. -/
def boundless : List String :=
  [".inf", ".Inf", ".INF", "+.inf", "+.Inf", "+.INF", "-.inf", "-.Inf", "-.INF", ".nan", ".NaN",
    ".NAN"]

/-- Whether a word spells a number that is not whole. -/
def isFractional (cs : List Char) : Bool :=
  boundless.contains (String.ofList cs)
    || (!isPadded (unsigned cs) && spellsFinite (unsigned cs))

/-! ## Words -/

def nullWords : List String := ["null", "Null", "NULL", "~"]
def trueWords : List String := ["true", "True", "TRUE"]
def falseWords : List String := ["false", "False", "FALSE"]

/-- What a plain word stands for. -/
def ofPlain (cs : List Char) : Document :=
  let s := String.ofList cs
  if cs.isEmpty then .absent
  else if nullWords.contains s then .null
  else if trueWords.contains s then .boolean true
  else if falseWords.contains s then .boolean false
  else (whole? cs).getD (if isFractional cs then .number else .text s)

end GatewayCache.Yaml
