/-
  GatewayCache.Text.Form

  The media type application/x-www-form-urlencoded: names and values of a
  query.

  Pairs are separated by `&`, a name and its value by the first `=`. Inside
  either, `+` stands for a space and a percent sign with two hexadecimal
  digits for a byte. A percent sign without two digits stands for itself, and
  bytes that encode no text are repaired.
-/

import GatewayCache.Text.Cut
import GatewayCache.Text.Hex
import GatewayCache.Text.Utf8

namespace GatewayCache.Text.Form

/-! ## Reading -/

/-- The bytes with every percent escape undone. -/
def percentDecode : List UInt8 → List UInt8
  | [] => []
  | b :: rest =>
      if b = 0x25 then
        match rest with
        | h :: l :: others =>
            match Hex.digitValue? h.toNat, Hex.digitValue? l.toNat with
            | some x, some y => UInt8.ofNat (16 * x + y) :: percentDecode others
            -- A lone percent sign stays, and reading goes on right behind it.
            | _, _ => b :: percentDecode (h :: l :: others)
        | others => b :: percentDecode others
      else b :: percentDecode rest

/-- The text of a name or a value. -/
def readComponent (bs : List UInt8) : String :=
  Utf8.read (percentDecode (bs.map fun b => if b = 0x2B then 0x20 else b))

/-- The name and the value of one piece; the value is empty when there is no
    equals sign. -/
def readPair (bs : List UInt8) : String × String :=
  let halves := cut 0x3D bs
  (readComponent halves.1, readComponent (halves.2.getD []))

/-- The pairs of a query in order. Empty pieces are skipped. -/
def read (bs : List UInt8) : List (String × String) :=
  ((bs.splitOn 0x26).filter fun piece => !piece.isEmpty).map readPair

/-! ## Writing -/

/-- The bytes that stand for themselves: ASCII letters and digits, `*`, `-`,
    `.` and `_`. -/
def isPlain (b : UInt8) : Bool :=
  let n := b.toNat
  (0x30 ≤ n && n ≤ 0x39) || (0x41 ≤ n && n ≤ 0x5A) || (0x61 ≤ n && n ≤ 0x7A)
    || n == 0x2A || n == 0x2D || n == 0x2E || n == 0x5F

/-- The characters that stand for one byte. -/
def writeByte (b : UInt8) : List Char :=
  if isPlain b then [Char.ofNat b.toNat]
  else if b = 0x20 then ['+']
  else ['%', Hex.upperDigit (b.toNat / 16), Hex.upperDigit (b.toNat % 16)]

/-- The written form of a name or a value. -/
def writeComponent (s : String) : List Char := (Utf8.encode s).flatMap writeByte

/-- The written form of one pair. -/
def writePair (p : String × String) : List Char :=
  writeComponent p.1 ++ '=' :: writeComponent p.2

/-- The written form of a list of pairs. -/
def write (pairs : List (String × String)) : List Char :=
  List.intercalate ['&'] (pairs.map writePair)

end GatewayCache.Text.Form
