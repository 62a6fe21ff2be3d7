/-
  GatewayCache.Proofs.Http.Target

  What a target says besides its path and query.

  An address with scheme and authority asks for what stands behind them, if it is
  a target at all (`ofPathAndQuery?_of_absolute`), and a fragment adds nothing
  (`ofPathAndQuery?_append_fragment`).
-/

import GatewayCache.Http.Target
import GatewayCache.Proofs.Text.Joined
import Mathlib.Data.List.TakeWhile

namespace GatewayCache.Http.Target

/-- The root of a server. -/
def root : Target := ⟨"/", none, by decide⟩

/-- An address with a scheme and an authority in front of the path. -/
def absolute (scheme authority rest : List UInt8) : List UInt8 :=
  scheme ++ 0x3A :: 0x2F :: 0x2F :: (authority ++ rest)

section

variable {scheme authority rest : List UInt8}

theorem afterScheme?_absolute (hscheme : ∀ b ∈ scheme, isSchemeByte b = true) :
    afterScheme? (absolute scheme authority rest) = some (authority ++ rest) := by
  have hcolon : ¬ isSchemeByte 0x3A = true := by decide
  rw [afterScheme?, absolute, List.dropWhile_append_of_pos hscheme,
    List.dropWhile_cons_of_neg hcolon]
  rfl

theorem head?_absolute_ne (hscheme : ∀ b ∈ scheme, isSchemeByte b = true) :
    (absolute scheme authority rest).head? ≠ some 0x2F := by
  cases scheme with
  | nil => exact fun h => absurd (Option.some.inj h) (by decide)
  | cons b scheme =>
      intro h
      have hslash : b = 0x2F := Option.some.inj h
      have hb := hscheme b List.mem_cons_self
      rw [hslash] at hb
      exact absurd hb (by decide)

theorem absolute_ne_asterisk : absolute scheme authority rest ≠ [0x2A] := by
  intro h
  have hlength := congrArg List.length h
  simp [absolute] at hlength
  omega

/-- Scheme and authority add nothing to what a target asks for. -/
theorem ofPathAndQuery?_of_absolute {t : Target} (hscheme : ∀ b ∈ scheme, isSchemeByte b = true)
    (hauthority : ∀ b ∈ authority, endsAuthority b = false)
    (hrest : ∀ b ∈ rest.head?, endsAuthority b = true)
    (h : ofBytes? (absolute scheme authority rest) = some t) : ofPathAndQuery? rest = some t := by
  have htake : (authority ++ rest).takeWhile (fun b => !endsAuthority b) = authority :=
    Text.takeWhile_append_of_head (fun b hb => by simp [hauthority b hb])
      (fun b hb => by simp [hrest b hb])
  unfold ofBytes? at h
  rw [if_neg (head?_absolute_ne hscheme), if_neg absolute_ne_asterisk,
    afterScheme?_absolute hscheme] at h
  dsimp only at h
  split at h
  · cases h
  · rw [htake, List.drop_left] at h
    split at h
    · exact h
    · cases h

/-- A fragment adds nothing to what a target asks for. -/
theorem ofPathAndQuery?_append_fragment (hrest : 0x23 ∉ rest) (fragment : List UInt8) :
    ofPathAndQuery? (rest ++ 0x23 :: fragment) = ofPathAndQuery? rest := by
  have hkept : ∀ b ∈ rest, (b != 0x23) = true := by
    intro b hb
    rw [bne_iff_ne]
    exact fun e => hrest (e ▸ hb)
  unfold ofPathAndQuery?
  rw [Text.takeWhile_append_of_head hkept (fun b hb => by cases hb; rfl),
    List.takeWhile_eq_self_iff.2 hkept]

end

end GatewayCache.Http.Target
