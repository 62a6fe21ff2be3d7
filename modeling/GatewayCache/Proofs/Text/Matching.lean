/-
  GatewayCache.Proofs.Text.Matching

  The rules of patterns, and what they make of an escaped text.

  `Matches` lists the rules one by one, each for the start of a pattern and the start of
  a text. The matcher, which tries every way to cut a text at a star, finds a match
  exactly if the rules give one (`isMatch_iff_matches`). So the rules let an escaped text
  with a star behind it stand for everything that starts with the text, whatever
  characters it has (`escaped_matches_prefix`).
-/

import GatewayCache.Proofs.Text.Glob
import GatewayCache.Store.Networked

namespace GatewayCache.Text.Glob

/-! ## The rules -/

/-- The ranges of a class from behind its opening on, and what follows the class. -/
def members : List Char → List (Char × Char) × List Char
  | [] => ([], [])
  | ']' :: rest => ([], rest)
  | '\\' :: c :: rest => ((c, c) :: (members rest).1, (members rest).2)
  | a :: '-' :: b :: rest => (range a b :: (members rest).1, (members rest).2)
  | c :: rest => ((c, c) :: (members rest).1, (members rest).2)

/-- One of the ranges holds the character. -/
def Within (ranges : List (Char × Char)) (c : Char) : Prop := ∃ r ∈ ranges, r.1 ≤ c ∧ c ≤ r.2

/-- The pattern, on the left, matches the text. -/
inductive Matches : List Char → List Char → Prop where
  | nothing : Matches [] []
  /-- A star stands for any characters. -/
  | many {pattern cs : List Char} (skipped : List Char) (h : Matches pattern cs) :
      Matches ('*' :: pattern) (skipped ++ cs)
  /-- A question mark stands for any one character. -/
  | one {pattern cs : List Char} (c : Char) (h : Matches pattern cs) :
      Matches ('?' :: pattern) (c :: cs)
  /-- A class stands for one character within its ranges. -/
  | oneOf {body cs : List Char} {c : Char} (opening : body.head? ≠ some '^')
      (within : Within (members body).1 c) (h : Matches (members body).2 cs) :
      Matches ('[' :: body) (c :: cs)
  /-- A class that opens with a caret stands for one character beyond its ranges. -/
  | noneOf {body cs : List Char} {c : Char} (beyond : ¬ Within (members body).1 c)
      (h : Matches (members body).2 cs) : Matches ('[' :: '^' :: body) (c :: cs)
  /-- A backslash takes the next character literally. -/
  | escaped {pattern cs : List Char} (c : Char) (h : Matches pattern cs) :
      Matches ('\\' :: c :: pattern) (c :: cs)
  /-- With none behind it a backslash stands for itself. -/
  | backslash : Matches ['\\'] ['\\']
  /-- All other characters stand for themselves. -/
  | literal {pattern cs : List Char} {c : Char} (plain : c ∉ ['*', '?', '[', '\\'])
      (h : Matches pattern cs) : Matches (c :: pattern) (c :: cs)

/-! ## Reading a pattern -/

/-- The start of a pattern asks for one of the rules. -/
inductive Shape : List Char → Prop where
  | nothing : Shape []
  | many (pattern : List Char) : Shape ('*' :: pattern)
  | one (pattern : List Char) : Shape ('?' :: pattern)
  | oneOf {body : List Char} (opening : body.head? ≠ some '^') : Shape ('[' :: body)
  | noneOf (body : List Char) : Shape ('[' :: '^' :: body)
  | escaped (c : Char) (pattern : List Char) : Shape ('\\' :: c :: pattern)
  | backslash : Shape ['\\']
  | literal {c : Char} (plain : c ∉ ['*', '?', '[', '\\']) (pattern : List Char) :
      Shape (c :: pattern)

theorem shape (pattern : List Char) : Shape pattern := by
  cases pattern with
  | nil => exact .nothing
  | cons c pattern =>
      by_cases plain : c ∉ ['*', '?', '[', '\\']
      · exact .literal plain pattern
      · obtain rfl | rfl | rfl | rfl : c = '*' ∨ c = '?' ∨ c = '[' ∨ c = '\\' := by
          simpa using Decidable.not_not.1 plain
        · exact .many pattern
        · exact .one pattern
        · by_cases opening : pattern.head? = some '^'
          · obtain ⟨body, rfl⟩ := List.head?_eq_some_iff.1 opening
            exact .noneOf body
          · exact .oneOf opening
        · cases pattern with
          | nil => exact .backslash
          | cons d pattern => exact .escaped d pattern

theorem pieces_one (pattern : List Char) : pieces ('?' :: pattern) = .one :: pieces pattern := rfl

theorem pieces_escaped (c : Char) (pattern : List Char) :
    pieces ('\\' :: c :: pattern) = .literal c :: pieces pattern := rfl

theorem pieces_backslash : pieces ['\\'] = .literal '\\' :: pieces [] := rfl

theorem range_self (c : Char) : range c c = (c, c) := by
  rw [range, ite_self]

/-- The ranges of a class are met one after the other. -/
theorem piecesFrom_inside (inverted : Bool) (text : List Char) (met : List (Char × Char)) :
    piecesFrom (.inside inverted met) text =
      .oneOf inverted ((members text).1.reverse ++ met) :: pieces (members text).2 := by
  fun_induction members text generalizing met with
  | case1 => rfl
  | case2 rest => rfl
  | case3 c rest ih =>
      rw [piecesFrom, ih, range_self, List.reverse_cons, List.append_assoc]
      rfl
  | case4 a b rest hclose hescape ih =>
      rw [piecesFrom, ih, List.reverse_cons, List.append_assoc]
      · rfl
      · exact hclose
      · exact hescape
  | case5 c rest hclose hescape hrange ih =>
      rw [piecesFrom, ih, range_self, List.reverse_cons, List.append_assoc]
      · rfl
      · exact hclose
      · exact hescape
      · exact hrange

theorem piecesFrom_opened {body : List Char} (h : body.head? ≠ some '^') :
    piecesFrom .opened body = piecesFrom (.inside false []) body := by
  fun_cases members body with
  | case1 => rfl
  | case2 rest => rfl
  | case3 c rest => rfl
  | case4 a b rest hclose hescape =>
      have hcaret : a ≠ '^' := fun ha => h (congrArg some ha)
      rw [piecesFrom, piecesFrom]
      all_goals assumption
  | case5 c rest hclose hescape hrange =>
      have hcaret : c ≠ '^' := fun hc => h (congrArg some hc)
      rw [piecesFrom, piecesFrom]
      all_goals assumption

theorem pieces_oneOf {body : List Char} (h : body.head? ≠ some '^') :
    pieces ('[' :: body) = .oneOf false (members body).1.reverse :: pieces (members body).2 := by
  show piecesFrom .opened body = _
  rw [piecesFrom_opened h, piecesFrom_inside, List.append_nil]

theorem pieces_noneOf (body : List Char) :
    pieces ('[' :: '^' :: body) =
      .oneOf true (members body).1.reverse :: pieces (members body).2 := by
  show piecesFrom (.inside true []) body = _
  rw [piecesFrom_inside, List.append_nil]

theorem length_members_le (body : List Char) : (members body).2.length ≤ body.length := by
  fun_induction members body with
  | case1 => exact Nat.le_refl _
  | case2 rest => exact Nat.le_succ _
  | case3 c rest ih => exact Nat.le_trans ih (Nat.le_add_right _ 2)
  | case4 a b rest hclose hescape ih => exact Nat.le_trans ih (Nat.le_add_right _ 3)
  | case5 c rest hclose hescape hrange ih => exact Nat.le_trans ih (Nat.le_succ _)

theorem pieces_literal {c : Char} (h : c ∉ ['*', '?', '[', '\\']) (pattern : List Char) :
    pieces (c :: pattern) = .literal c :: pieces pattern := by
  obtain ⟨hmany, hone, hclass, hescape⟩ : c ≠ '*' ∧ c ≠ '?' ∧ c ≠ '[' ∧ c ≠ '\\' := by
    simpa using h
  rw [pieces, piecesFrom]
  · rfl
  · exact fun hc _ => hescape hc
  · exact fun _ _ hc _ => hescape hc
  · exact hmany
  · exact hone
  · exact hclass

/-! ## The matcher -/

theorem any_within_iff (ranges : List (Char × Char)) (c : Char) :
    (ranges.reverse.any fun r => r.1 ≤ c && c ≤ r.2) = true ↔ Within ranges c := by
  simp [Within]

theorem accepts_literal_iff (a c : Char) : (Piece.literal a).accepts c = true ↔ a = c := by
  rw [Piece.accepts, beq_iff_eq]

theorem accepts_oneOf_iff (ranges : List (Char × Char)) (c : Char) :
    (Piece.oneOf false ranges.reverse).accepts c = true ↔ Within ranges c := by
  rw [Piece.accepts, Bool.bne_false, any_within_iff]

theorem accepts_noneOf_iff (ranges : List (Char × Char)) (c : Char) :
    (Piece.oneOf true ranges.reverse).accepts c = true ↔ ¬ Within ranges c := by
  rw [Piece.accepts, Bool.bne_true, Bool.not_eq_true', ← Bool.not_eq_true, any_within_iff]

/-- Some cut leaves a rest with the property. -/
theorem anyTail_iff {p : List Char → Bool} {cs : List Char} :
    anyTail p cs = true ↔ ∃ skipped rest, cs = skipped ++ rest ∧ p rest = true := by
  induction cs with
  | nil => simp [anyTail, and_assoc]
  | cons c cs ih =>
      rw [anyTail, Bool.or_eq_true, ih]
      constructor
      · rintro (h | ⟨skipped, rest, rfl, h⟩)
        · exact ⟨[], c :: cs, rfl, h⟩
        · exact ⟨c :: skipped, rest, rfl, h⟩
      · rintro ⟨skipped, rest, hcut, h⟩
        cases skipped with
        | nil =>
            obtain rfl : c :: cs = rest := hcut
            exact .inl h
        | cons d skipped =>
            obtain ⟨rfl, rfl⟩ := List.cons.inj hcut
            exact .inr ⟨skipped, rest, rfl, h⟩

theorem isMatch_many_iff {pattern cs : List Char} :
    isMatch ('*' :: pattern) cs = true ↔
      ∃ skipped rest, cs = skipped ++ rest ∧ isMatch pattern rest = true := anyTail_iff

/-- Every piece but a star takes one character. -/
theorem isMatch_iff_of_pieces {p : Piece} {pattern rest cs : List Char}
    (hpieces : pieces pattern = p :: pieces rest) (hp : p ≠ .many) :
    isMatch pattern cs = true ↔
      ∃ c tail, cs = c :: tail ∧ p.accepts c = true ∧ isMatch rest tail = true := by
  -- The matcher has one equation for the star and one for all other pieces.
  have hnil : matchesPieces (p :: pieces rest) [] = false := by
    cases p <;> first | exact absurd rfl hp | rfl
  have hcons : ∀ c tail, matchesPieces (p :: pieces rest) (c :: tail) =
      (p.accepts c && isMatch rest tail) := by
    intro c tail
    cases p <;> first | exact absurd rfl hp | rfl
  rw [isMatch, hpieces]
  cases cs with
  | nil => simp [hnil]
  | cons c tail =>
      rw [hcons, Bool.and_eq_true_iff]
      constructor
      · exact fun h => ⟨c, tail, rfl, h⟩
      · rintro ⟨d, rest, hcut, h⟩
        obtain ⟨rfl, rfl⟩ := List.cons.inj hcut
        exact h

theorem isMatch_of_matches {pattern cs : List Char} (h : Matches pattern cs) :
    isMatch pattern cs = true := by
  induction h with
  | nothing => rfl
  | many skipped h ih => exact isMatch_many_iff.2 ⟨skipped, _, rfl, ih⟩
  | one c h ih => exact ih
  | oneOf opening within h ih =>
      exact (isMatch_iff_of_pieces (pieces_oneOf opening) Piece.noConfusion).2
        ⟨_, _, rfl, (accepts_oneOf_iff _ _).2 within, ih⟩
  | noneOf beyond h ih =>
      exact (isMatch_iff_of_pieces (pieces_noneOf _) Piece.noConfusion).2
        ⟨_, _, rfl, (accepts_noneOf_iff _ _).2 beyond, ih⟩
  | escaped c h ih =>
      exact (isMatch_iff_of_pieces (pieces_escaped c _) Piece.noConfusion).2
        ⟨_, _, rfl, (accepts_literal_iff c c).2 rfl, ih⟩
  | backslash => rfl
  | @literal _ _ c plain h ih =>
      exact (isMatch_iff_of_pieces (pieces_literal plain _) Piece.noConfusion).2
        ⟨_, _, rfl, (accepts_literal_iff c c).2 rfl, ih⟩

theorem matches_of_isMatch {pattern cs : List Char} (h : isMatch pattern cs = true) :
    Matches pattern cs := by
  -- The induction is on the length, as a rule may take a whole class off the pattern.
  induction pattern using (measure List.length).wf.induction generalizing cs with
  | _ pattern ih =>
      cases shape pattern with
      | nothing =>
          obtain rfl := List.isEmpty_iff.1 h
          exact .nothing
      | many pattern =>
          obtain ⟨skipped, rest, rfl, hrest⟩ := isMatch_many_iff.1 h
          exact .many skipped (ih _ (Nat.lt_succ_self _) hrest)
      | one pattern =>
          obtain ⟨c, rest, rfl, -, hrest⟩ :=
            (isMatch_iff_of_pieces (pieces_one pattern) Piece.noConfusion).1 h
          exact .one c (ih _ (Nat.lt_succ_self _) hrest)
      | @oneOf body opening =>
          obtain ⟨c, rest, rfl, hc, hrest⟩ :=
            (isMatch_iff_of_pieces (pieces_oneOf opening) Piece.noConfusion).1 h
          have hshorter := Nat.lt_succ_of_le (length_members_le body)
          exact .oneOf opening ((accepts_oneOf_iff _ _).1 hc) (ih _ hshorter hrest)
      | noneOf body =>
          obtain ⟨c, rest, rfl, hc, hrest⟩ :=
            (isMatch_iff_of_pieces (pieces_noneOf body) Piece.noConfusion).1 h
          have hshorter := Nat.lt_add_right 1 (Nat.lt_succ_of_le (length_members_le body))
          exact .noneOf ((accepts_noneOf_iff _ _).1 hc) (ih _ hshorter hrest)
      | escaped c pattern =>
          obtain ⟨d, rest, rfl, hc, hrest⟩ :=
            (isMatch_iff_of_pieces (pieces_escaped c pattern) Piece.noConfusion).1 h
          obtain rfl := (accepts_literal_iff c d).1 hc
          exact .escaped c (ih _ (Nat.lt_add_right 1 (Nat.lt_succ_self _)) hrest)
      | backslash =>
          obtain ⟨d, rest, rfl, hc, hrest⟩ :=
            (isMatch_iff_of_pieces pieces_backslash Piece.noConfusion).1 h
          obtain rfl := (accepts_literal_iff _ d).1 hc
          obtain rfl := List.isEmpty_iff.1 hrest
          exact .backslash
      | literal plain pattern =>
          obtain ⟨d, rest, rfl, hc, hrest⟩ :=
            (isMatch_iff_of_pieces (pieces_literal plain pattern) Piece.noConfusion).1 h
          obtain rfl := (accepts_literal_iff _ d).1 hc
          exact .literal plain (ih _ (Nat.lt_succ_self _) hrest)

/-- The matcher finds a match exactly if the rules give one. -/
theorem isMatch_iff_matches {pattern cs : List Char} :
    isMatch pattern cs = true ↔ Matches pattern cs :=
  ⟨matches_of_isMatch, isMatch_of_matches⟩

example : Matches "k[^0-9]\\?*".toList "ka?1".toList := isMatch_iff_matches.1 (by decide)

/-! ## Escaped texts -/

theorem matches_startingWith_iff (start cs : List Char) :
    Matches (startingWith start) cs ↔ start <+: cs := by
  rw [← isMatch_iff_matches, isMatch_startingWith, List.isPrefixOf_iff_prefix]

/-- An escaped text with a star behind it matches what starts with the text, and nothing
    else. So the pattern of a sweep matches the full keys that start with the full key of
    what it was asked for. Without the star, undoing the escapes gives the text back. -/
theorem escaped_matches_prefix (start key : String) :
    (Matches (escape start.toList ++ ['*']) key.toList ↔ start.toList <+: key.toList) ∧
      (∀ (space : KeySpace) (k : String),
        Matches (space.pattern k).toList key.toList ↔ (space.key k).toList <+: key.toList) ∧
      unescape (escape start.toList ++ ['*']).dropLast = start.toList := by
  refine ⟨matches_startingWith_iff start.toList key.toList, ?_, ?_⟩
  · intro space k
    rw [KeySpace.pattern, String.toList_ofList]
    exact matches_startingWith_iff (space.key k).toList key.toList
  · rw [List.dropLast_concat, unescape_escape]

end GatewayCache.Text.Glob
