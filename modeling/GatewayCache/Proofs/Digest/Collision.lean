/-
  GatewayCache.Proofs.Digest.Collision

  What equal digests say about the digested texts.

  Nothing is assumed of SHA-256: texts with one digest are equal, or they are a
  collision at hand (`eq_or_collide`).
-/

import GatewayCache.Digest

namespace GatewayCache

namespace Text.Hex

theorem lowerDigit_injective {m n : Nat} (hm : m < 16) (hn : n < 16)
    (h : lowerDigit m = lowerDigit n) : m = n := by
  apply Option.some.inj
  rw [← digitValue?_lowerDigit hm, ← digitValue?_lowerDigit hn, h]

/-- Different bytes have different digits. -/
theorem write_injective {bs cs : List UInt8} (h : write bs = write cs) : bs = cs := by
  induction bs generalizing cs with
  | nil =>
      cases cs with
      | nil => rfl
      | cons c cs => cases h
  | cons b bs ih =>
      cases cs with
      | nil => cases h
      | cons c cs =>
          simp only [write, List.flatMap_cons, List.cons_append, List.nil_append,
            List.cons.injEq] at h
          obtain ⟨hhigh, hlow, hrest⟩ := h
          have hb := b.toNat_lt
          have hc := c.toNat_lt
          have h1 := lowerDigit_injective (by omega) (by omega) hhigh
          have h2 := lowerDigit_injective (by omega) (by omega) hlow
          have hbc : b.toNat = c.toNat := by omega
          rw [UInt8.toNat_inj.1 hbc, ih hrest]

end Text.Hex

namespace Digest

/-- Two different messages with the same digest. -/
def Collide (a b : List UInt8) : Prop := a ≠ b ∧ sha256 a = sha256 b

instance (a b : List UInt8) : Decidable (Collide a b) :=
  inferInstanceAs (Decidable (a ≠ b ∧ sha256 a = sha256 b))

/-- Texts with the same digest are the same, or collide. -/
theorem eq_or_collide {s t : String} (h : hexOfText s = hexOfText t) :
    s = t ∨ Collide (Text.Utf8.encode s) (Text.Utf8.encode t) := by
  have hdigits : Text.Hex.write (sha256 (Text.Utf8.encode s)) =
      Text.Hex.write (sha256 (Text.Utf8.encode t)) := String.ofList_injective h
  by_cases hst : s = t
  · exact .inl hst
  · exact .inr ⟨fun e => hst (Text.Utf8.encode_injective e), Text.Hex.write_injective hdigits⟩

theorem length_hexOfText (s : String) : (hexOfText s).toList.length = 64 :=
  length_hexOfBytes (Text.Utf8.encode s)

end Digest

end GatewayCache
