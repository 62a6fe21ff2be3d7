/-
  GatewayCache.Text.Base64

  Bytes as text in the standard base64 alphabet.

  Three bytes are written as four characters. A last group of one or two bytes
  is filled up with equals signs. Reading takes back exactly what writing
  produces: the bits that a filled-up group leaves over have to be zero.
-/

namespace GatewayCache.Text.Base64

/-- The character of a six-bit value. -/
def digit (n : Nat) : Char :=
  if n < 26 then Char.ofNat (0x41 + n)
  else if n < 52 then Char.ofNat (0x61 + (n - 26))
  else if n < 62 then Char.ofNat (0x30 + (n - 52))
  else if n = 62 then '+'
  else '/'

/-- The six-bit value of a character. -/
def digitValue? (c : Char) : Option Nat :=
  let n := c.toNat
  if 0x41 ≤ n ∧ n ≤ 0x5A then some (n - 0x41)
  else if 0x61 ≤ n ∧ n ≤ 0x7A then some (n - 0x61 + 26)
  else if 0x30 ≤ n ∧ n ≤ 0x39 then some (n - 0x30 + 52)
  else if n = 0x2B then some 62
  else if n = 0x2F then some 63
  else none

theorem digitValue?_digit {n : Nat} (h : n < 64) : digitValue? (digit n) = some n := by
  revert h; revert n; decide

/-! ## Writing -/

/-- The base64 text of bytes. -/
def encode : List UInt8 → List Char
  | [] => []
  | [a] =>
      let n := a.toNat
      [digit (n / 4), digit (n % 4 * 16), '=', '=']
  | [a, b] =>
      let n := a.toNat * 256 + b.toNat
      [digit (n / 1024), digit (n / 16 % 64), digit (n % 16 * 4), '=']
  | a :: b :: c :: rest =>
      let n := a.toNat * 65536 + b.toNat * 256 + c.toNat
      digit (n / 262144) :: digit (n / 4096 % 64) :: digit (n / 64 % 64) :: digit (n % 64)
        :: encode rest

/-! ## Reading -/

/-- The three bytes of a full group. -/
def readFull (a b c d : Char) : Option (List UInt8) := do
  let w ← digitValue? a
  let x ← digitValue? b
  let y ← digitValue? c
  let z ← digitValue? d
  let n := w * 262144 + x * 4096 + y * 64 + z
  some [UInt8.ofNat (n / 65536), UInt8.ofNat (n / 256 % 256), UInt8.ofNat (n % 256)]

/-- The bytes of the last group, which may be filled up. -/
def readLast (a b c d : Char) : Option (List UInt8) := do
  if d = '=' then
    let w ← digitValue? a
    let x ← digitValue? b
    if c = '=' then
      -- One byte takes the upper two bits of its second digit only.
      if x % 16 = 0 then some [UInt8.ofNat (w * 4 + x / 16)] else none
    else
      let y ← digitValue? c
      let n := w * 1024 + x * 16 + y / 4
      -- Two bytes leave the lower two bits of the third digit over.
      if y % 4 = 0 then some [UInt8.ofNat (n / 256), UInt8.ofNat (n % 256)] else none
  else readFull a b c d

/-- The bytes that a base64 text stands for. -/
def decode : List Char → Option (List UInt8)
  | [] => some []
  | [a, b, c, d] => readLast a b c d
  | a :: b :: c :: d :: rest => do
      let group ← readFull a b c d
      let others ← decode rest
      some (group ++ others)
  | _ => none

example : encode [0x68, 0x69] = "aGk=".toList := by decide
example : decode "aGVsbG8=".toList = some [0x68, 0x65, 0x6C, 0x6C, 0x6F] := by decide
example : decode "YR==".toList = none := by decide
example : decode "YQ".toList = none := by decide

end GatewayCache.Text.Base64
