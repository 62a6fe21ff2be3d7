/-
  GatewayCache.Text.Blank

  Blank characters, and taking characters off both ends of a text.

  Blank means the Unicode property White_Space. The table lists every code
  point that has it.
-/

namespace GatewayCache.Text

/-! ## Blank characters -/

/-- The characters with the Unicode property White_Space. -/
def isBlank (c : Char) : Bool :=
  let n := c.toNat
  (0x09 ≤ n && n ≤ 0x0D) || n == 0x20 || n == 0x85 || n == 0xA0 || n == 0x1680
    || (0x2000 ≤ n && n ≤ 0x200A) || n == 0x2028 || n == 0x2029 || n == 0x202F
    || n == 0x205F || n == 0x3000

example : isBlank ' ' && isBlank '\t' && isBlank '\u00a0' && isBlank '\u3000' := by decide
example : isBlank '\u200b' = false := by decide

/-! ## Taking characters off both ends -/

/-- The text without the leading and trailing characters that satisfy `p`. -/
def strip (p : Char → Bool) (cs : List Char) : List Char :=
  ((cs.dropWhile p).reverse.dropWhile p).reverse

/-- The text without leading and trailing blanks. -/
def trim (cs : List Char) : List Char := strip isBlank cs

/-- The text without leading and trailing double quotes, however many. -/
def unquote (cs : List Char) : List Char := strip (· == '"') cs

/-- A string without leading and trailing blanks. -/
def trimmed (s : String) : String := String.ofList (trim s.toList)

/-- Text that neither starts nor ends with a stripped character stays as it
    is. -/
theorem strip_eq_self {p : Char → Bool} {cs : List Char}
    (first : ∀ c ∈ cs.head?, p c = false) (last : ∀ c ∈ cs.getLast?, p c = false) :
    strip p cs = cs := by
  have keep : ∀ xs : List Char, (∀ c ∈ xs.head?, p c = false) → xs.dropWhile p = xs := by
    intro xs h
    cases xs with
    | nil => rfl
    | cons x xs => simp [List.dropWhile, h x (by simp)]
  rw [strip, keep cs first, keep cs.reverse (by simpa using last), List.reverse_reverse]

end GatewayCache.Text
