/-
  GatewayCache.Json.Quoted

  Texts between double quotes, as JSON spells them.

  Writing escapes the quote, the backslash and the control characters. Reading
  takes every escape of the format. A quoted text is first cut into units, and
  only then put together: a text with half a surrogate pair can be skipped, but
  it cannot be put together.
-/

import GatewayCache.Text.Hex
import GatewayCache.Text.Utf8

namespace GatewayCache.Json

/-! ## Writing -/

/-- The bytes that a byte is written as between quotes. -/
def escapeByte (b : UInt8) : List UInt8 :=
  if b = 0x22 then [0x5C, 0x22]
  else if b = 0x5C then [0x5C, 0x5C]
  else if b = 0x08 then [0x5C, 0x62]
  else if b = 0x0C then [0x5C, 0x66]
  else if b = 0x0A then [0x5C, 0x6E]
  else if b = 0x0D then [0x5C, 0x72]
  else if b = 0x09 then [0x5C, 0x74]
  else if b.toNat < 0x20 then
    [0x5C, 0x75, 0x30, 0x30, UInt8.ofNat (Text.Hex.lowerDigit (b.toNat / 16)).toNat,
      UInt8.ofNat (Text.Hex.lowerDigit (b.toNat % 16)).toNat]
  else [b]

/-- A text between quotes. -/
def quoted (s : String) : List UInt8 :=
  0x22 :: ((Text.Utf8.encode s).flatMap escapeByte ++ [0x22])

/-! ## Reading -/

/-- A byte of a quoted text, or a code that an escape spells. -/
inductive Unit16 where
  | byte (b : UInt8)
  | code (n : Nat)
deriving DecidableEq, Repr

/-- The byte that a one-letter escape stands for. -/
def shortEscape? (b : UInt8) : Option UInt8 :=
  if b = 0x22 ∨ b = 0x5C ∨ b = 0x2F then some b
  else if b = 0x62 then some 0x08
  else if b = 0x66 then some 0x0C
  else if b = 0x6E then some 0x0A
  else if b = 0x72 then some 0x0D
  else if b = 0x74 then some 0x09
  else none

/-- The value of four hexadecimal digits. -/
def hexCode? (a b c d : UInt8) : Option Nat := do
  let w ← Text.Hex.digitValue? a.toNat
  let x ← Text.Hex.digitValue? b.toNat
  let y ← Text.Hex.digitValue? c.toNat
  let z ← Text.Hex.digitValue? d.toNat
  some (w * 4096 + x * 256 + y * 16 + z)

/-- One more unit in front of what was read. -/
def prepend (u : Unit16) (r : Option (List Unit16 × List UInt8)) :
    Option (List Unit16 × List UInt8) :=
  r.map fun p => (u :: p.1, p.2)

/-- The units up to the closing quote, and what stands behind it. -/
def scanQuoted : List UInt8 → Option (List Unit16 × List UInt8)
  | [] => none
  | 0x22 :: rest => some ([], rest)
  | 0x5C :: 0x75 :: a :: b :: c :: d :: rest =>
      match hexCode? a b c d with
      | none => none
      | some n => prepend (.code n) (scanQuoted rest)
  | 0x5C :: e :: rest =>
      match shortEscape? e with
      | none => none
      | some b => prepend (.byte b) (scanQuoted rest)
  | b :: rest => if b.toNat < 0x20 ∨ b = 0x5C then none else prepend (.byte b) (scanQuoted rest)

/-- The bytes that units stand for. Two halves of a surrogate pair are one
    character, half a pair is none. -/
def bytesOfUnits : List Unit16 → Option (List UInt8)
  | [] => some []
  | .byte b :: us => (bytesOfUnits us).map (b :: ·)
  | .code n :: us =>
      if n < 0xD800 ∨ 0xDFFF < n then
        (bytesOfUnits us).map (String.utf8EncodeChar (Char.ofNat n) ++ ·)
      else if n < 0xDC00 then
        -- The upper half of a pair: the lower half has to follow as a code.
        match us with
        | .code m :: others =>
            if 0xDC00 ≤ m ∧ m ≤ 0xDFFF then
              let c := Char.ofNat (0x10000 + (n - 0xD800) * 1024 + (m - 0xDC00))
              (bytesOfUnits others).map (String.utf8EncodeChar c ++ ·)
            else none
        | _ => none
      else none

/-- The text that units stand for. -/
def textOfUnits? (us : List Unit16) : Option String :=
  (bytesOfUnits us).bind Text.Utf8.decode?

end GatewayCache.Json
