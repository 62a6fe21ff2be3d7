/-
  GatewayCache.Proofs.Text.Glob

  The text behind an escaped pattern.

  Undoing the escapes of a text gives the text back, so the pattern for everything
  that starts with a text asks for that text (`literalStart_startingWith`). The rules
  of patterns read it alike: it matches what starts with the text, whatever
  characters stand in it, and nothing else (`isMatch_startingWith`).
-/

import GatewayCache.Text.Glob

namespace GatewayCache.Text.Glob

/-! ## Undoing the escapes -/

theorem unescape_cons_of_ne {c : Char} (h : c ≠ '\\') (rest : List Char) :
    unescape (c :: rest) = c :: unescape rest := by
  rw [unescape]
  · exact fun hc _ => h hc
  · exact fun _ _ hc _ => h hc

theorem unescape_escape (cs : List Char) : unescape (escape cs) = cs := by
  induction cs with
  | nil => rfl
  | cons c cs ih =>
      have hcons : escape (c :: cs) = (if isMeta c then ['\\', c] else [c]) ++ escape cs := rfl
      rw [hcons]
      by_cases hc : isMeta c = true
      · rw [if_pos hc, List.cons_append, List.singleton_append, unescape, ih]
      · -- A character without a meaning of its own is no backslash.
        have hne : c ≠ '\\' := by
          rintro rfl
          exact hc rfl
        rw [if_neg hc, List.singleton_append, unescape_cons_of_ne hne, ih]

/-- The pattern for everything that starts with a text asks for that text. -/
theorem literalStart_startingWith (cs : List Char) : literalStart (startingWith cs) = cs := by
  rw [literalStart, startingWith, if_pos (by simp), List.dropLast_concat, unescape_escape]

/-! ## Matching -/

theorem piecesFrom_cons_of_not_isMeta {c : Char} (h : isMeta c = false) (rest : List Char) :
    piecesFrom .outside (c :: rest) = .literal c :: piecesFrom .outside rest := by
  have hc : (c ≠ '*' ∧ c ≠ '?' ∧ c ≠ '[' ∧ c ≠ ']') ∧ c ≠ '\\' := by
    simpa [isMeta, and_assoc] using h
  rw [piecesFrom]
  all_goals grind

theorem startingWith_cons (c : Char) (cs : List Char) :
    startingWith (c :: cs) = (if isMeta c then ['\\', c] else [c]) ++ startingWith cs := by
  rw [startingWith, startingWith, ← List.append_assoc]
  rfl

/-- The pattern for everything that starts with a text is read as the characters of
    the text and a star. -/
theorem pieces_startingWith (cs : List Char) :
    pieces (startingWith cs) = cs.map Piece.literal ++ [.many] := by
  induction cs with
  | nil => rfl
  | cons c cs ih =>
      rw [startingWith_cons]
      cases hc : isMeta c with
      | true => exact congrArg (.literal c :: ·) ih
      | false =>
          rw [if_neg Bool.false_ne_true, List.singleton_append, pieces,
            piecesFrom_cons_of_not_isMeta hc]
          exact congrArg (.literal c :: ·) ih

theorem anyTail_isEmpty (cs : List Char) : anyTail (matchesPieces []) cs = true := by
  induction cs with
  | nil => rfl
  | cons c cs ih => rw [anyTail, ih, Bool.or_true]

/-- It matches what starts with the text, and nothing else. -/
theorem isMatch_startingWith (start cs : List Char) :
    isMatch (startingWith start) cs = start.isPrefixOf cs := by
  rw [isMatch, pieces_startingWith]
  induction start generalizing cs with
  | nil => exact anyTail_isEmpty cs
  | cons c start ih =>
      cases cs with
      | nil => rfl
      | cons d cs => exact congrArg ((c == d) && ·) (ih cs)

end GatewayCache.Text.Glob
