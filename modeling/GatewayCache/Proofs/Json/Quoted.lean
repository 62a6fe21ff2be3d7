/-
  GatewayCache.Proofs.Json.Quoted

  Quoted texts are read as they were written.

  A byte is written as itself or as an escape, and either is read as one unit that
  spells the byte (`exists_unit_escapeByte`). So the units of a quoted text are its
  bytes again, whatever stands behind the closing quote (`scanQuoted_quoted`).
-/

import GatewayCache.Json.Quoted
import GatewayCache.Proofs.Text.Repair

namespace GatewayCache.Json

/-! ## Units of single bytes -/

/-- The unit stands for the byte, whatever units follow. -/
def Unit16.Spells (u : Unit16) (b : UInt8) : Prop :=
  ∀ us, bytesOfUnits (u :: us) = (bytesOfUnits us).map (b :: ·)

theorem Unit16.spells_byte (b : UInt8) : (Unit16.byte b).Spells b := fun us => by
  rw [bytesOfUnits]

/-- A code of ASCII is no half of a pair and has one byte. -/
theorem Unit16.spells_code {b : UInt8} (h : b.toNat < 0x80) : (Unit16.code b.toNat).Spells b := by
  intro us
  have hcode : (Char.ofNat b.toNat).toNat = b.toNat :=
    Text.Utf8.toNat_ofNat_of_scalar (.inl (by omega))
  have hbytes : String.utf8EncodeChar (Char.ofNat b.toNat) = [b] := by
    rw [Text.Utf8.utf8EncodeChar_of_lt (by omega), hcode, UInt8.ofNat_toNat]
  rw [bytesOfUnits.eq_def]
  simp only [show b.toNat < 0xD800 ∨ 0xDFFF < b.toNat from .inl (by omega), if_true, hbytes,
    List.singleton_append]

/-! ## Written bytes -/

/-- A byte is written behind a backslash, by its code, or as itself. -/
theorem escapeByte_cases (b : UInt8) :
    (∃ e, escapeByte b = [0x5C, e] ∧ shortEscape? e = some b ∧ e ≠ 0x75) ∨
    (b.toNat < 0x20 ∧ escapeByte b =
      [0x5C, 0x75, 0x30, 0x30, UInt8.ofNat (Text.Hex.lowerDigit (b.toNat / 16)).toNat,
        UInt8.ofNat (Text.Hex.lowerDigit (b.toNat % 16)).toNat]) ∨
    (escapeByte b = [b] ∧ b ≠ 0x22 ∧ b ≠ 0x5C ∧ ¬ b.toNat < 0x20) := by
  unfold escapeByte
  split_ifs with hquote hslash _ _ _ _ _ hcontrol
  case pos | pos | pos | pos | pos | pos | pos =>
    subst b
    exact .inl ⟨_, rfl, by decide, by decide⟩
  case pos => exact .inr (.inl ⟨hcontrol, rfl⟩)
  case neg => exact .inr (.inr ⟨rfl, hquote, hslash, hcontrol⟩)

theorem digitValue?_ofNat_lowerDigit {n : Nat} (h : n < 16) :
    Text.Hex.digitValue? (UInt8.ofNat (Text.Hex.lowerDigit n).toNat).toNat = some n := by
  revert h; revert n; decide

/-- The four digits that are written for a control character spell its code. -/
theorem hexCode?_lowerDigits {n : Nat} (h : n < 0x20) :
    hexCode? 0x30 0x30 (UInt8.ofNat (Text.Hex.lowerDigit (n / 16)).toNat)
      (UInt8.ofNat (Text.Hex.lowerDigit (n % 16)).toNat) = some n := by
  have hzero : Text.Hex.digitValue? (0x30 : UInt8).toNat = some 0 := by decide
  simp only [hexCode?, hzero, digitValue?_ofNat_lowerDigit (show n / 16 < 16 by omega),
    digitValue?_ofNat_lowerDigit (show n % 16 < 16 by omega), Option.bind_eq_bind, Option.bind_some,
    Option.some.injEq]
  omega

/-- What is written for a byte is read as one unit that spells it. -/
theorem exists_unit_escapeByte (b : UInt8) :
    ∃ u : Unit16, u.Spells b ∧
      ∀ rest, scanQuoted (escapeByte b ++ rest) = prepend u (scanQuoted rest) := by
  rcases escapeByte_cases b with ⟨e, hwritten, hread, he⟩ | ⟨hcontrol, hwritten⟩ |
    ⟨hwritten, hquote, hslash, hcontrol⟩
  · refine ⟨.byte b, Unit16.spells_byte b, fun rest => ?_⟩
    rw [hwritten, List.cons_append, List.cons_append, List.nil_append, scanQuoted, hread]
    exact fun _ _ _ _ _ h => absurd h he
  · refine ⟨.code b.toNat, Unit16.spells_code (by omega), fun rest => ?_⟩
    rw [hwritten]
    simp only [List.cons_append, List.nil_append]
    rw [scanQuoted, hexCode?_lowerDigits hcontrol]
  · refine ⟨.byte b, Unit16.spells_byte b, fun rest => ?_⟩
    rw [hwritten, List.singleton_append, scanQuoted, if_neg (by simp [hslash, hcontrol])]
    · exact hquote
    · exact fun _ _ _ _ _ h => absurd h hslash
    · exact fun _ _ h => absurd h hslash

/-! ## Written texts -/

theorem scanQuoted_escaped (bs rest : List UInt8) :
    ∃ us, bytesOfUnits us = some bs ∧
      scanQuoted (bs.flatMap escapeByte ++ 0x22 :: rest) = some (us, rest) := by
  induction bs with
  | nil => exact ⟨[], by rw [bytesOfUnits], by rw [List.flatMap_nil, List.nil_append, scanQuoted]⟩
  | cons b bs ih =>
      obtain ⟨us, hbytes, hscan⟩ := ih
      obtain ⟨u, hspells, hfirst⟩ := exists_unit_escapeByte b
      refine ⟨u :: us, ?_, ?_⟩
      · rw [hspells, hbytes, Option.map_some]
      · rw [List.flatMap_cons, List.append_assoc, hfirst, hscan]
        rfl

/-- A quoted text is read as units that stand for it. -/
theorem scanQuoted_quoted (s : String) (rest : List UInt8) :
    ∃ us others, quoted s ++ rest = 0x22 :: others ∧ textOfUnits? us = some s ∧
      scanQuoted others = some (us, rest) := by
  obtain ⟨us, hbytes, hscan⟩ := scanQuoted_escaped (Text.Utf8.encode s) rest
  refine ⟨us, (Text.Utf8.encode s).flatMap escapeByte ++ 0x22 :: rest, ?_, ?_, hscan⟩
  · rw [quoted, List.cons_append, List.append_assoc, List.singleton_append]
  · rw [textOfUnits?, hbytes, Option.bind_some, Text.Utf8.decode?_encode]

end GatewayCache.Json
