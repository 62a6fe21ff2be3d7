/-
  GatewayCache.Digest

  The SHA-256 digest of bytes.

  The message is padded to whole blocks of 64 bytes. Each block is spread into
  64 words, which are mixed one by one into a state of eight words. The digest
  is the final state, written big-endian.
-/

import GatewayCache.Text.Hex
import GatewayCache.Text.Utf8

namespace GatewayCache.Digest

/-! ## State and constants -/

/-- The eight working words. -/
structure State where
  a : UInt32
  b : UInt32
  c : UInt32
  d : UInt32
  e : UInt32
  f : UInt32
  g : UInt32
  h : UInt32
deriving DecidableEq, Repr

/-- The state before the first block. -/
def initial : State :=
  ⟨0x6a09e667, 0xbb67ae85, 0x3c6ef372, 0xa54ff53a,
   0x510e527f, 0x9b05688c, 0x1f83d9ab, 0x5be0cd19⟩

/-- One constant for each round. -/
def roundConstants : List UInt32 :=
  [0x428a2f98, 0x71374491, 0xb5c0fbcf, 0xe9b5dba5, 0x3956c25b, 0x59f111f1, 0x923f82a4, 0xab1c5ed5,
   0xd807aa98, 0x12835b01, 0x243185be, 0x550c7dc3, 0x72be5d74, 0x80deb1fe, 0x9bdc06a7, 0xc19bf174,
   0xe49b69c1, 0xefbe4786, 0x0fc19dc6, 0x240ca1cc, 0x2de92c6f, 0x4a7484aa, 0x5cb0a9dc, 0x76f988da,
   0x983e5152, 0xa831c66d, 0xb00327c8, 0xbf597fc7, 0xc6e00bf3, 0xd5a79147, 0x06ca6351, 0x14292967,
   0x27b70a85, 0x2e1b2138, 0x4d2c6dfc, 0x53380d13, 0x650a7354, 0x766a0abb, 0x81c2c92e, 0x92722c85,
   0xa2bfe8a1, 0xa81a664b, 0xc24b8b70, 0xc76c51a3, 0xd192e819, 0xd6990624, 0xf40e3585, 0x106aa070,
   0x19a4c116, 0x1e376c08, 0x2748774c, 0x34b0bcb5, 0x391c0cb3, 0x4ed8aa4a, 0x5b9cca4f, 0x682e6ff3,
   0x748f82ee, 0x78a5636f, 0x84c87814, 0x8cc70208, 0x90befffa, 0xa4506ceb, 0xbef9a3f7, 0xc67178f2]

/-! ## Mixing one block -/

/-- A word turned right by `n` bits. -/
def rotate (x n : UInt32) : UInt32 := (x >>> n) ||| (x <<< (32 - n))

/-- One round: the constant `k` and the message word `w` go into the state. -/
def round (s : State) (k w : UInt32) : State :=
  let mixE := rotate s.e 6 ^^^ rotate s.e 11 ^^^ rotate s.e 25
  let choice := (s.e &&& s.f) ^^^ (~~~s.e &&& s.g)
  let t1 := s.h + mixE + choice + k + w
  let mixA := rotate s.a 2 ^^^ rotate s.a 13 ^^^ rotate s.a 22
  let majority := (s.a &&& s.b) ^^^ (s.a &&& s.c) ^^^ (s.b &&& s.c)
  ⟨t1 + (mixA + majority), s.a, s.b, s.c, s.d + t1, s.e, s.f, s.g⟩

/-- The message word that follows a window of sixteen. -/
def nextWord (window : List UInt32) : UInt32 :=
  -- Counted from the new word, these stand 15 and 2 places back.
  let w1 := window.getD 1 0
  let w14 := window.getD 14 0
  (rotate w14 17 ^^^ rotate w14 19 ^^^ (w14 >>> 10)) + window.getD 9 0
    + (rotate w1 7 ^^^ rotate w1 18 ^^^ (w1 >>> 3)) + window.getD 0 0

/-- The rounds with the given constants, the window moving by one word each. -/
def rounds : List UInt32 → List UInt32 → State → State
  | [], _, s => s
  | k :: ks, window, s =>
      rounds ks (window.drop 1 ++ [nextWord window]) (round s k (window.getD 0 0))

/-- Four bytes are one word, the first byte the most significant. -/
def words : List UInt8 → List UInt32
  | a :: b :: c :: d :: rest =>
      UInt32.ofNat (a.toNat * 16777216 + b.toNat * 65536 + c.toNat * 256 + d.toNat) :: words rest
  | _ => []

/-- A block of 64 bytes mixed into the state. -/
def compress (s : State) (block : List UInt8) : State :=
  let t := rounds roundConstants (words block) s
  ⟨s.a + t.a, s.b + t.b, s.c + t.c, s.d + t.d, s.e + t.e, s.f + t.f, s.g + t.g, s.h + t.h⟩

/-! ## The whole message -/

/-- The big-endian bytes of a number, `count` of them. -/
def bigEndian (count n : Nat) : List UInt8 :=
  (List.range count).map fun i => UInt8.ofNat (n / Nat.pow 256 (count - 1 - i) % 256)

/-- The message, a one bit, zeros, and the length in bits: whole blocks. -/
def pad (bs : List UInt8) : List UInt8 :=
  -- The one bit and the length take nine bytes, the zeros fill up the block.
  bs ++ 0x80 :: (List.replicate ((119 - bs.length % 64) % 64) 0 ++ bigEndian 8 (bs.length * 8))

/-- The state and the bytes of the block in progress, the newest first. -/
structure Progress where
  state : State
  block : List UInt8

/-- One byte read. A block that is full goes into the state. -/
def Progress.absorb (p : Progress) (b : UInt8) : Progress :=
  let block := b :: p.block
  if block.length = 64 then ⟨compress p.state block.reverse, []⟩ else ⟨p.state, block⟩

/-- The words of a state as bytes. -/
def State.bytes (s : State) : List UInt8 :=
  [s.a, s.b, s.c, s.d, s.e, s.f, s.g, s.h].flatMap fun w => bigEndian 4 w.toNat

/-- The 32 bytes of a message's digest. -/
def sha256 (bs : List UInt8) : List UInt8 :=
  ((pad bs).foldl Progress.absorb ⟨initial, []⟩).state.bytes

/-- The digest of bytes as 64 hexadecimal digits. -/
def hexOfBytes (bs : List UInt8) : String := String.ofList (Text.Hex.write (sha256 bs))

/-- The digest of a text's bytes as 64 hexadecimal digits. -/
def hexOfText (s : String) : String := hexOfBytes (Text.Utf8.encode s)

/-! ## Lengths -/

theorem length_bigEndian (count n : Nat) : (bigEndian count n).length = count := by
  simp [bigEndian]

theorem length_sha256 (bs : List UInt8) : (sha256 bs).length = 32 := by
  simp [sha256, State.bytes, length_bigEndian]

theorem length_hexOfBytes (bs : List UInt8) : (hexOfBytes bs).toList.length = 64 := by
  simp [hexOfBytes, Text.Hex.length_write, length_sha256]

/-- The padding fills the last block. -/
theorem length_pad_mod (bs : List UInt8) : (pad bs).length % 64 = 0 := by
  simp only [pad, List.length_append, List.length_cons, List.length_replicate, length_bigEndian]
  omega

end GatewayCache.Digest
