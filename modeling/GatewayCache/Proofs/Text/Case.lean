/-
  GatewayCache.Proofs.Text.Case

  Texts in lower case.

  Lowering changes capital letters only and makes small letters of them
  (`toLower_cases`), so it takes nothing into a class of characters without letters and
  nothing out of it (`Letterless.toLower_eq`). Whatever takes a text apart by such
  classes therefore gives the lowered parts of a lowered text: stripping, cutting and
  splitting. A number has no letters in it and reads the same.
-/

import GatewayCache.Proofs.Text.Joined
import GatewayCache.Text.Blank
import GatewayCache.Text.Case
import GatewayCache.Text.Cut
import GatewayCache.Text.Decimal

namespace GatewayCache.Text

/-! ## Characters -/

/-- A capital letter becomes a small one, and every other character stays as it is. -/
theorem toLower_cases (c : Char) :
    (0x41 ≤ c.toNat ∧ c.toNat ≤ 0x5A ∧ c.toLower.toNat = c.toNat + 0x20) ∨
      ((c.toNat < 0x41 ∨ 0x5A < c.toNat) ∧ c.toLower = c) := by
  unfold Char.toLower
  split
  · next h =>
      have hlow : 0x41 ≤ c.toNat := UInt32.le_iff_toNat_le.1 h.1
      have hhigh : c.toNat ≤ 0x5A := UInt32.le_iff_toNat_le.1 h.2
      refine .inl ⟨hlow, hhigh, ?_⟩
      show (c.val.toNat + 0x20) % 2 ^ 32 = c.val.toNat + 0x20
      exact Nat.mod_eq_of_lt (by have : c.val.toNat ≤ 0x5A := hhigh; omega)
  · next h =>
      refine .inr ⟨?_, rfl⟩
      by_contra hin
      have hlow : 0x41 ≤ c.val.toNat := Nat.le_of_not_lt fun hlt => hin (.inl hlt)
      have hhigh : c.val.toNat ≤ 0x5A := Nat.le_of_not_lt fun hlt => hin (.inr hlt)
      exact h ⟨UInt32.le_iff_toNat_le.2 hlow, UInt32.le_iff_toNat_le.2 hhigh⟩

theorem toLower_toLower (c : Char) : c.toLower.toLower = c.toLower := by
  rcases toLower_cases c with ⟨hlow, -, hlower⟩ | ⟨-, hself⟩
  · rcases toLower_cases c.toLower with ⟨-, hhigh, -⟩ | ⟨-, hself⟩
    · omega
    · exact hself
  · rw [hself, hself]

/-- A class of characters without letters. -/
def Letterless (p : Char → Bool) : Prop :=
  ∀ c, p c = true → c.toNat < 0x41 ∨ (0x5A < c.toNat ∧ c.toNat < 0x61) ∨ 0x7A < c.toNat

theorem Letterless.toLower_eq {p : Char → Bool} (h : Letterless p) (c : Char) :
    p c.toLower = p c := by
  rcases toLower_cases c with ⟨hlow, hhigh, hlower⟩ | ⟨-, hself⟩
  · -- A capital letter is not in the class, nor is the small one.
    have hcapital : p c = false := Bool.eq_false_iff.2 fun hp => by
      have hc := h c hp
      omega
    have hsmall : p c.toLower = false := Bool.eq_false_iff.2 fun hp => by
      have hc := h c.toLower hp
      omega
    rw [hcapital, hsmall]
  · rw [hself]

theorem letterless_isBlank : Letterless isBlank := by
  intro c hc
  simp only [isBlank, Bool.or_eq_true, Bool.and_eq_true, decide_eq_true_eq, beq_iff_eq] at hc
  omega

theorem letterless_isDigit : Letterless Char.isDigit := by
  intro c hc
  simp only [Char.isDigit, Bool.and_eq_true, decide_eq_true_eq] at hc
  have hhigh : c.toNat ≤ 0x39 := UInt32.le_iff_toNat_le.1 hc.2
  omega

theorem letterless_beq {sep : Char} (h : sep.toNat < 0x41) : Letterless (· == sep) := by
  intro c hc
  rw [beq_iff_eq.1 hc]
  exact .inl h

theorem toLower_bne {sep : Char} (h : sep.toNat < 0x41) (c : Char) :
    (c.toLower != sep) = (c != sep) :=
  congrArg (!·) ((letterless_beq h).toLower_eq c)

/-! ## Parts of texts -/

theorem lower_lower (cs : List Char) : lower (lower cs) = lower cs := by
  rw [lower, lower, List.map_map]
  exact List.map_congr_left fun c _ => toLower_toLower c

theorem dropWhile_lower {p : Char → Bool} (hp : ∀ c, p c.toLower = p c) (cs : List Char) :
    (lower cs).dropWhile p = lower (cs.dropWhile p) := by
  rw [lower, List.dropWhile_map, show p ∘ Char.toLower = p from funext hp, lower]

theorem takeWhile_lower {p : Char → Bool} (hp : ∀ c, p c.toLower = p c) (cs : List Char) :
    (lower cs).takeWhile p = lower (cs.takeWhile p) := by
  rw [lower, List.takeWhile_map, show p ∘ Char.toLower = p from funext hp, lower]

theorem reverse_lower (cs : List Char) : (lower cs).reverse = lower cs.reverse :=
  List.map_reverse.symm

theorem strip_lower {p : Char → Bool} (hp : Letterless p) (cs : List Char) :
    strip p (lower cs) = lower (strip p cs) := by
  rw [strip, dropWhile_lower hp.toLower_eq, reverse_lower, dropWhile_lower hp.toLower_eq,
    reverse_lower, strip]

theorem trim_lower (cs : List Char) : trim (lower cs) = lower (trim cs) :=
  strip_lower letterless_isBlank cs

theorem unquote_lower (cs : List Char) : unquote (lower cs) = lower (unquote cs) :=
  strip_lower (letterless_beq (by decide)) cs

theorem cut_lower {sep : Char} (h : sep.toNat < 0x41) (cs : List Char) :
    cut sep (lower cs) = (lower (cut sep cs).1, (cut sep cs).2.map lower) := by
  rw [cut, takeWhile_lower (toLower_bne h), dropWhile_lower (toLower_bne h), cut]
  cases cs.dropWhile (· != sep) <;> rfl

theorem splitOn_lower {sep : Char} (h : sep.toNat < 0x41) (cs : List Char) :
    (lower cs).splitOn sep = (cs.splitOn sep).map lower :=
  splitOn_map_of_beq (letterless_beq h).toLower_eq cs

/-! ## Numbers -/

namespace Decimal

theorem readDigits_lower (largest : Nat) (cs : List Char) :
    readDigits largest (lower cs) = readDigits largest cs := by
  have hdigits : (lower cs).all Char.isDigit = cs.all Char.isDigit := by
    rw [lower, List.all_map]
    exact congrArg cs.all (funext letterless_isDigit.toLower_eq)
  by_cases hall : cs.all Char.isDigit = true
  · -- Digits are no letters.
    have hself : lower cs = cs := by
      refine (List.map_congr_left fun c hc => ?_).trans (List.map_id' cs)
      have hdigit := letterless_isDigit c (List.all_eq_true.1 hall c hc)
      rcases toLower_cases c with ⟨hlow, hhigh, -⟩ | ⟨-, hsame⟩
      · omega
      · exact hsame
    rw [hself]
  · have hnone : ∀ ds : List Char, ds.all Char.isDigit = false → readDigits largest ds = none := by
      intro ds hds
      simp [readDigits, hds]
    rw [Bool.not_eq_true] at hall
    rw [hnone _ (hdigits.trans hall), hnone _ hall]

theorem read_lower (largest : Nat) (cs : List Char) :
    read largest (lower cs) = read largest cs := by
  have hread : ∀ {c : Char}, c ≠ '+' → ∀ ds,
      read largest (c :: ds) = readDigits largest (c :: ds) := by
    intro c hc ds
    rw [read]
    rintro digits ⟨⟩
    exact hc rfl
  cases cs with
  | nil => exact readDigits_lower largest []
  | cons c ds =>
      by_cases hc : c = '+'
      · subst hc
        exact readDigits_lower largest ds
      · have hlower : c.toLower ≠ '+' := by
          rw [← bne_iff_ne, toLower_bne (by decide)]
          exact bne_iff_ne.2 hc
        rw [hread hc, ← readDigits_lower]
        exact hread hlower (lower ds)

end Decimal

end GatewayCache.Text
