/-
  GatewayCache.Text.Decimal

  Natural numbers in decimal notation.

  A number is read from an optional plus sign and at least one ASCII digit,
  and only up to a given largest value. It is written without sign and without
  leading zeros.
-/

namespace GatewayCache.Text.Decimal

/-- The largest value of a 64-bit word. -/
def word64 : Nat := 18446744073709551615

/-- The value of a run of digits, the first digit the most significant. -/
def value (digits : List Char) : Nat := Nat.ofDigitChars 10 digits 0

/-- At least one ASCII digit, nothing else, and not above `largest`. -/
def readDigits (largest : Nat) (cs : List Char) : Option Nat :=
  if !cs.isEmpty && cs.all Char.isDigit && value cs ≤ largest then some (value cs) else none

/-- A decimal number not above `largest`, with an optional plus sign. -/
def read (largest : Nat) : List Char → Option Nat
  | '+' :: digits => readDigits largest digits
  | digits => readDigits largest digits

/-- A whole number of 64 bits, one of them for the sign, with an optional sign. -/
def readSigned : List Char → Option Int
  | '-' :: digits => (readDigits (Nat.pow 2 63) digits).map fun n => -Int.ofNat n
  | cs => (read (Nat.pow 2 63 - 1) cs).map Int.ofNat

/-- The decimal digits of a number. -/
def write (n : Nat) : List Char := Nat.toDigits 10 n

example : read word64 "18446744073709551615".toList = some word64 := by decide +kernel
example : read word64 "18446744073709551616".toList = none := by decide +kernel
example : read word64 "+060".toList = some 60 := by decide +kernel
example : read word64 "+".toList = none := by decide +kernel
example : readSigned "-9223372036854775808".toList = some (-9223372036854775808) := by
  decide +kernel
example : readSigned "9223372036854775808".toList = none := by decide +kernel

theorem value_write (n : Nat) : value (write n) = n := Nat.ofDigitChars_ten_toDigits

theorem write_injective {m n : Nat} (h : write m = write n) : m = n := by
  rw [← value_write m, ← value_write n, h]

theorem isDigit_of_mem_write {n : Nat} {c : Char} (h : c ∈ write n) : c.isDigit = true :=
  Nat.isDigit_of_mem_toDigits (by decide) (by decide) h

/-- No number above the bound is ever read. -/
theorem le_of_read {largest n : Nat} {cs : List Char} (h : read largest cs = some n) :
    n ≤ largest := by
  have digits : ∀ ds, readDigits largest ds = some n → n ≤ largest := by
    intro ds hd
    unfold readDigits at hd
    split at hd <;> simp_all
  unfold read at h
  split at h <;> exact digits _ h

end GatewayCache.Text.Decimal
