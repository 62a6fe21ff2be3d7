/-
  GatewayCache.Proofs.Text.Base64

  Bytes are read back from their base64 text.

  Each group of digits gives back the bytes that it was written for: a full group
  three, the last group one or two of them, since the bits that it leaves over are
  zero (`decode_encode`).
-/

import GatewayCache.Text.Base64

namespace GatewayCache.Text.Base64

theorem digit_ne_pad {n : Nat} (h : n < 64) : digit n ≠ '=' := by
  revert h; revert n; decide

/-- A byte is what its number stands for. -/
theorem ofNat_eq {b : UInt8} {n : Nat} (h : n = b.toNat) : UInt8.ofNat n = b := by
  rw [h, UInt8.ofNat_toNat]

theorem readFull_digits (a b c : UInt8) :
    let n := a.toNat * 65536 + b.toNat * 256 + c.toNat
    readFull (digit (n / 262144)) (digit (n / 4096 % 64)) (digit (n / 64 % 64)) (digit (n % 64)) =
      some [a, b, c] := by
  intro n
  have ha := a.toNat_lt
  have hb := b.toNat_lt
  have hc := c.toNat_lt
  have hn : n / 262144 * 262144 + n / 4096 % 64 * 4096 + n / 64 % 64 * 64 + n % 64 = n := by omega
  simp only [readFull, digitValue?_digit (show n / 262144 < 64 by omega),
    digitValue?_digit (Nat.mod_lt _ (show 0 < 64 by decide)), Option.bind_eq_bind,
    Option.bind_some, hn]
  rw [ofNat_eq (show n / 65536 = a.toNat by omega),
    ofNat_eq (show n / 256 % 256 = b.toNat by omega), ofNat_eq (show n % 256 = c.toNat by omega)]

theorem readLast_one (a : UInt8) :
    readLast (digit (a.toNat / 4)) (digit (a.toNat % 4 * 16)) '=' '=' = some [a] := by
  have ha := a.toNat_lt
  simp only [readLast, if_true, digitValue?_digit (show a.toNat / 4 < 64 by omega),
    digitValue?_digit (show a.toNat % 4 * 16 < 64 by omega), Option.bind_eq_bind, Option.bind_some]
  rw [if_pos (show a.toNat % 4 * 16 % 16 = 0 by omega),
    ofNat_eq (show a.toNat / 4 * 4 + a.toNat % 4 * 16 / 16 = a.toNat by omega)]

theorem readLast_two (a b : UInt8) :
    let n := a.toNat * 256 + b.toNat
    readLast (digit (n / 1024)) (digit (n / 16 % 64)) (digit (n % 16 * 4)) '=' = some [a, b] := by
  intro n
  have ha := a.toNat_lt
  have hb := b.toNat_lt
  have hn : n / 1024 * 1024 + n / 16 % 64 * 16 + n % 16 * 4 / 4 = n := by omega
  simp only [readLast, if_true, digitValue?_digit (show n / 1024 < 64 by omega),
    digitValue?_digit (show n / 16 % 64 < 64 by omega),
    digitValue?_digit (show n % 16 * 4 < 64 by omega),
    if_neg (digit_ne_pad (show n % 16 * 4 < 64 by omega)), Option.bind_eq_bind, Option.bind_some,
    hn]
  rw [if_pos (show n % 16 * 4 % 4 = 0 by omega), ofNat_eq (show n / 256 = a.toNat by omega),
    ofNat_eq (show n % 256 = b.toNat by omega)]

/-- A group that is not filled up is read as a full one, also at the end. -/
theorem decode_full {a b c d : Char} {group others : List UInt8} {rest : List Char}
    (hd : d ≠ '=') (hgroup : readFull a b c d = some group) (hrest : decode rest = some others) :
    decode (a :: b :: c :: d :: rest) = some (group ++ others) := by
  cases rest with
  | nil =>
      have hnone : others = [] := (Option.some.inj hrest).symm
      rw [decode, readLast, if_neg hd, hgroup, hnone, List.append_nil]
  | cons e rest =>
      rw [decode, hgroup, hrest]
      · rfl
      · exact nofun

theorem decode_encode (bs : List UInt8) : decode (encode bs) = some bs := by
  induction bs using encode.induct with
  | case1 => rfl
  | case2 a => exact readLast_one a
  | case3 a b => exact readLast_two a b
  | case4 a b c rest ih =>
      rw [encode]
      exact decode_full (digit_ne_pad (Nat.mod_lt _ (by decide))) (readFull_digits a b c) ih

end GatewayCache.Text.Base64
