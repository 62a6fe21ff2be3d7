/-
  GatewayCache.Text.Utf8

  Text as bytes and bytes as text.

  Well-formed bytes read as the text they encode. In other bytes every longest
  ill-formed start of a character reads as one replacement character, and
  reading goes on behind it.
-/

namespace GatewayCache.Text.Utf8

/-- The bytes of a text. -/
def encode (s : String) : List UInt8 := s.toList.flatMap String.utf8EncodeChar

/-- The text that well-formed bytes encode. -/
def decode? (bs : List UInt8) : Option String := String.fromUTF8? bs.toByteArray

theorem toByteArray_encode (s : String) : (encode s).toByteArray = s.toByteArray :=
  String.utf8Encode_toList

theorem decode?_encode (s : String) : decode? (encode s) = some s := by
  have h : s.toByteArray.IsValidUTF8 := s.isValidUTF8
  simp [decode?, String.fromUTF8?, toByteArray_encode, h, String.fromUTF8]

/-- Different texts have different bytes. -/
theorem encode_injective {s t : String} (h : encode s = encode t) : s = t :=
  Option.some.inj (by rw [← decode?_encode s, ← decode?_encode t, h])

/-! ## Repairing ill-formed bytes -/

/-- The character that stands for bytes that encode none. -/
def replacement : Char := '\uFFFD'

/-- A character that has been started. `code` holds the bits read so far. The
    next byte has to lie between `low` and `high`, and `more` bytes follow
    that one. -/
structure Started where
  code : Nat
  more : Nat
  low : Nat
  high : Nat

/-- The first byte of a character: a whole character, a started one, or a byte
    that starts none. -/
def start (b : UInt8) : List Char × Option Started :=
  let n := b.toNat
  if n < 0x80 then ([Char.ofNat n], none)
  else if n < 0xC2 then ([replacement], none)
  else if n < 0xE0 then ([], some ⟨n - 0xC0, 0, 0x80, 0xBF⟩)
  else if n = 0xE0 then ([], some ⟨0, 1, 0xA0, 0xBF⟩)
  else if n = 0xED then ([], some ⟨0xD, 1, 0x80, 0x9F⟩)
  else if n < 0xF0 then ([], some ⟨n - 0xE0, 1, 0x80, 0xBF⟩)
  else if n = 0xF0 then ([], some ⟨0, 2, 0x90, 0xBF⟩)
  else if n < 0xF4 then ([], some ⟨n - 0xF0, 2, 0x80, 0xBF⟩)
  else if n = 0xF4 then ([], some ⟨4, 2, 0x80, 0x8F⟩)
  else ([replacement], none)

/-- One byte read: the characters it finishes and the character it leaves
    started. -/
def feed : Option Started → UInt8 → List Char × Option Started
  | none, b => start b
  | some s, b =>
      if s.low ≤ b.toNat ∧ b.toNat ≤ s.high then
        let code := s.code * 64 + (b.toNat - 0x80)
        if s.more = 0 then ([Char.ofNat code], none)
        else ([], some ⟨code, s.more - 1, 0x80, 0xBF⟩)
      else (replacement :: (start b).1, (start b).2)

/-- The text of any bytes, continuing a started character. -/
def repairFrom : Option Started → List UInt8 → List Char
  | none, [] => []
  | some _, [] => [replacement]
  | s, b :: bs => (feed s b).1 ++ repairFrom (feed s b).2 bs

/-- The text of any bytes, ill-formed parts replaced. -/
def repair (bs : List UInt8) : List Char := repairFrom none bs

/-- The text of any bytes: what they encode, or else what repairing makes of
    them. -/
def read (bs : List UInt8) : String := (decode? bs).getD (String.ofList (repair bs))

theorem read_encode (s : String) : read (encode s) = s := by
  simp [read, decode?_encode]

example : repair [0x61, 0xED, 0xA0, 0x80, 0x62] =
    ['a', replacement, replacement, replacement, 'b'] := by decide
example : repair [0xE2, 0x82] = [replacement] := by decide
example : repair [0xF0, 0x9F, 0x98, 0x80, 0xFF] = ['😀', replacement] := by decide

end GatewayCache.Text.Utf8
