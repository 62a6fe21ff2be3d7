/-
  GatewayCache.Proofs.Json.Number

  Numbers are read as they were written.

  The digits of a number do not start with a zero unless it is zero, so they are
  one whole part; behind it stands neither a fraction nor an exponent. Up to 64
  bits all of them are gathered (`scanNumber_natural`).
-/

import GatewayCache.Json.Number
import GatewayCache.Json.Writer
import GatewayCache.Proofs.Text.Joined

namespace GatewayCache.Json

/-! ## Written digits -/

theorem toNat_ofNat_of_isDigit {c : Char} (h : c.isDigit = true) :
    (UInt8.ofNat c.toNat).toNat = c.toNat := by
  have hle : c.toNat ≤ 0x39 := by
    simp only [Char.isDigit, Bool.and_eq_true, decide_eq_true_eq] at h
    exact h.2
  rw [UInt8.toNat_ofNat']
  omega

theorem isDigitByte_of_mem_natural {n : Nat} {b : UInt8} (h : b ∈ natural n) :
    isDigitByte b = true := by
  obtain ⟨c, hc, rfl⟩ := List.mem_map.1 h
  have hdigit := Text.Decimal.isDigit_of_mem_write hc
  unfold isDigitByte
  rw [toNat_ofNat_of_isDigit hdigit]
  exact hdigit

theorem natural_of_lt {n : Nat} (h : n < 10) : natural n = [UInt8.ofNat (0x30 + n)] := by
  revert h; revert n; decide

/-- A number with more than one digit is written behind its tens. -/
theorem natural_of_le {n : Nat} (h : 10 ≤ n) :
    natural n = natural (n / 10) ++ natural (n % 10) := by
  unfold natural Text.Decimal.write
  rw [Nat.toDigits_of_base_le (by decide) h, List.map_append,
    Nat.toDigits_of_lt_base (Nat.mod_lt n (by decide))]

/-- Only zero starts with a zero. -/
theorem natural_eq_cons {n : Nat} (h : 0 < n) : ∃ b bs, natural n = b :: bs ∧ b ≠ 0x30 := by
  induction n using Nat.strongRecOn with
  | ind n ih =>
      by_cases hn : n < 10
      · refine ⟨UInt8.ofNat (0x30 + n), [], natural_of_lt hn, ?_⟩
        intro hzero
        have hcode := congrArg UInt8.toNat hzero
        rw [UInt8.toNat_ofNat'] at hcode
        have : (0x30 : UInt8).toNat = 0x30 := rfl
        omega
      · obtain ⟨b, bs, htens, hb⟩ := ih (n / 10) (by omega) (by omega)
        exact ⟨b, bs ++ natural (n % 10), by rw [natural_of_le (by omega), htens]; rfl, hb⟩

theorem natural_ne_nil (n : Nat) : natural n ≠ [] := by
  rcases Nat.eq_zero_or_pos n with rfl | hn
  · decide
  · obtain ⟨b, bs, h, -⟩ := natural_eq_cons hn
    rw [h]
    exact List.cons_ne_nil b bs

theorem exists_digit_natural (n : Nat) :
    ∃ b bs, natural n = b :: bs ∧ isDigitByte b = true := by
  obtain ⟨b, bs, h⟩ := List.exists_cons_of_ne_nil (natural_ne_nil n)
  exact ⟨b, bs, h, isDigitByte_of_mem_natural (h ▸ List.mem_cons_self)⟩

/-! ## Gathered digits -/

/-- Where all digits in front fit, gathering goes on with those behind them. -/
theorem gather_append {a n : Nat} {bs cs : List UInt8} (h : gather a bs = (n, [])) :
    gather a (bs ++ cs) = gather n cs := by
  induction bs generalizing a with
  | nil =>
      rw [gather] at h
      rw [List.nil_append, (Prod.mk.inj h).1]
  | cons b bs ih =>
      rw [gather] at h
      split at h
      next hle => rw [List.cons_append, gather, if_pos hle, ih h]
      next => cases (Prod.mk.inj h).2

theorem gather_natural {n : Nat} (h : n ≤ Text.Decimal.word64) :
    gather 0 (natural n) = (n, []) := by
  have digit : ∀ a d, d < 10 → a * 10 + d ≤ Text.Decimal.word64 →
      gather a (natural d) = (a * 10 + d, []) := by
    intro a d hd hle
    have hvalue : (UInt8.ofNat (0x30 + d)).toNat - 0x30 = d := by
      rw [UInt8.toNat_ofNat']
      omega
    rw [natural_of_lt hd, gather, hvalue, if_pos hle, gather]
  induction n using Nat.strongRecOn with
  | ind n ih =>
      by_cases hn : n < 10
      · simpa using digit 0 n hn (by omega)
      · rw [natural_of_le (by omega), gather_append (ih (n / 10) (by omega) (by omega)),
          digit (n / 10) (n % 10) (by omega) (by omega)]
        rw [show n / 10 * 10 + n % 10 = n by omega]

/-! ## The number in front -/

/-- Behind a written number stands nothing that could go on with it. -/
def EndsNumber (rest : List UInt8) : Prop :=
  ∀ b ∈ rest.head?, isDigitByte b = false ∧ b ≠ 0x2E ∧ b ≠ 0x65 ∧ b ≠ 0x45

theorem scanWhole_natural (n : Nat) {rest : List UInt8} (h : EndsNumber rest) :
    scanWhole (natural n ++ rest) = some (natural n, rest) := by
  rcases Nat.eq_zero_or_pos n with rfl | hn
  · cases rest with
    | nil => rfl
    | cons b rest =>
        have hb := (h b rfl).1
        show scanWhole (0x30 :: b :: rest) = _
        rw [scanWhole, hb]
        rfl
  · have htake : (natural n ++ rest).takeWhile isDigitByte = natural n :=
      Text.takeWhile_append_of_head (fun _ hb => isDigitByte_of_mem_natural hb)
        fun b hb => (h b hb).1
    have hdigits : scanDigits (natural n ++ rest) = some (natural n, rest) := by
      unfold scanDigits
      dsimp only
      rw [htake, if_neg (by simpa using natural_ne_nil n), List.drop_left]
    obtain ⟨b, bs, hcons, hb⟩ := natural_eq_cons hn
    rw [hcons, List.cons_append] at hdigits ⊢
    rw [scanWhole, hdigits]
    exact fun _ hzero => hb (List.cons.inj hzero).1

theorem scanFraction_of_endsNumber {rest : List UInt8} (h : EndsNumber rest) :
    scanFraction rest = some ([], rest) := by
  cases rest with
  | nil => rfl
  | cons b rest =>
      rw [scanFraction]
      rintro _ ⟨rfl⟩
      exact (h 0x2E rfl).2.1 rfl

theorem scanExponent_of_endsNumber {rest : List UInt8} (h : EndsNumber rest) :
    scanExponent rest = some (none, rest) := by
  cases rest with
  | nil => rfl
  | cons b rest =>
      have hletter : ¬ (b = 0x65 ∨ b = 0x45) := not_or.2 (h b rfl).2.2
      rw [scanExponent.eq_def]
      exact if_neg hletter

theorem scanNumber_natural {n : Nat} (hn : n ≤ Text.Decimal.word64) {rest : List UInt8}
    (h : EndsNumber rest) : scanNumber (natural n ++ rest) = some (.natural n, rest) := by
  have hvalue : numberValue false (natural n) [] none = .natural n := by
    unfold numberValue
    rw [gather_natural hn]
    rfl
  have hsign : ∀ others, natural n ++ rest ≠ 0x2D :: others := by
    intro others hcons
    obtain ⟨b, bs, hb, hdigit⟩ := exists_digit_natural n
    rw [hb, List.cons_append] at hcons
    rw [(List.cons.inj hcons).1] at hdigit
    exact absurd hdigit (by decide)
  unfold scanNumber
  split
  next negative bs hread =>
    split at hread
    next others hcons => exact absurd hcons (hsign others)
    next =>
      obtain ⟨rfl, rfl⟩ := Prod.mk.inj hread
      simp only [scanWhole_natural n h, scanFraction_of_endsNumber h, scanExponent_of_endsNumber h,
        hvalue, Option.bind_eq_bind, Option.bind_some]

end GatewayCache.Json
