/-
  GatewayCache.Text.Hex

  Hexadecimal digits: reading one digit of either case, writing bytes with
  two digits each.
-/

namespace GatewayCache.Text.Hex

/-- The value of a hexadecimal digit of either case, given by its code. -/
def digitValue? (code : Nat) : Option Nat :=
  if 0x30 ≤ code ∧ code ≤ 0x39 then some (code - 0x30)
  else if 0x61 ≤ code ∧ code ≤ 0x66 then some (code - 0x61 + 10)
  else if 0x41 ≤ code ∧ code ≤ 0x46 then some (code - 0x41 + 10)
  else none

/-- The lower-case digit of a value below sixteen. -/
def lowerDigit (n : Nat) : Char :=
  Char.ofNat (if n < 10 then 0x30 + n else 0x61 + n - 10)

/-- The upper-case digit of a value below sixteen. -/
def upperDigit (n : Nat) : Char :=
  Char.ofNat (if n < 10 then 0x30 + n else 0x41 + n - 10)

/-- Two lower-case digits for each byte. -/
def write (bs : List UInt8) : List Char :=
  bs.flatMap fun b => [lowerDigit (b.toNat / 16), lowerDigit (b.toNat % 16)]

theorem length_write (bs : List UInt8) : (write bs).length = 2 * bs.length := by
  induction bs with
  | nil => rfl
  | cons b bs ih =>
      rw [write, List.flatMap_cons, List.length_append, ← write, ih]
      simp only [List.length_cons, List.length_nil]
      omega

theorem digitValue?_lowerDigit {n : Nat} (h : n < 16) :
    digitValue? (lowerDigit n).toNat = some n := by
  revert h; revert n; decide

end GatewayCache.Text.Hex
