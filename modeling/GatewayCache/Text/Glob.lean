/-
  GatewayCache.Text.Glob

  Glob patterns over keys.

  In a pattern `*` stands for any characters, `?` for any one character,
  `[...]` for one character of a class, and a backslash takes the next
  character literally. `Glob.escape` turns a text into a pattern that stands
  for that text alone.
-/

namespace GatewayCache.Text.Glob

/-! ## Escaping -/

/-- The characters with a meaning of their own in a pattern. -/
def isMeta (c : Char) : Bool :=
  c == '*' || c == '?' || c == '[' || c == ']' || c == '\\'

/-- The pattern that stands for a text alone. -/
def escape (cs : List Char) : List Char :=
  cs.flatMap fun c => if isMeta c then ['\\', c] else [c]

/-- A pattern with every backslash pair replaced by its second character. -/
def unescape : List Char → List Char
  | [] => []
  | ['\\'] => ['\\']
  | '\\' :: c :: rest => c :: unescape rest
  | c :: rest => c :: unescape rest

/-- The pattern for everything that starts with a text. -/
def startingWith (cs : List Char) : List Char := escape cs ++ ['*']

/-- The text that a pattern from `startingWith` asks for: one trailing star is
    dropped and the escapes are undone. -/
def literalStart (pattern : List Char) : List Char :=
  unescape (if pattern.getLast? = some '*' then pattern.dropLast else pattern)

/-! ## Matching -/

/-- One piece of a pattern. -/
inductive Piece where
  /-- Exactly this character. -/
  | literal (c : Char)
  /-- Any characters, also none. -/
  | many
  /-- Any one character. -/
  | one
  /-- One character inside the ranges, or outside them when `inverted`. -/
  | oneOf (inverted : Bool) (ranges : List (Char × Char))
deriving DecidableEq, Repr

/-- Where reading a pattern stands: outside a class, behind its opening
    bracket, or inside with the ranges met so far. -/
inductive Mode where
  | outside
  | opened
  | inside (inverted : Bool) (ranges : List (Char × Char))

/-- A range of characters, the smaller end first. -/
def range (a b : Char) : Char × Char := if b < a then (b, a) else (a, b)

/-- The pieces of a pattern, read from a given mode. A class that is never
    closed ends with the pattern. -/
def piecesFrom : Mode → List Char → List Piece
  | .outside, [] => []
  | .outside, ['\\'] => [.literal '\\']
  | .outside, '\\' :: c :: rest => .literal c :: piecesFrom .outside rest
  | .outside, '*' :: rest => .many :: piecesFrom .outside rest
  | .outside, '?' :: rest => .one :: piecesFrom .outside rest
  | .outside, '[' :: rest => piecesFrom .opened rest
  | .outside, c :: rest => .literal c :: piecesFrom .outside rest
  | .opened, [] => [.oneOf false []]
  | .opened, '^' :: rest => piecesFrom (.inside true []) rest
  -- An empty class accepts nothing.
  | .opened, ']' :: rest => .oneOf false [] :: piecesFrom .outside rest
  | .opened, '\\' :: c :: rest => piecesFrom (.inside false [range c c]) rest
  | .opened, a :: '-' :: b :: rest => piecesFrom (.inside false [range a b]) rest
  | .opened, c :: rest => piecesFrom (.inside false [range c c]) rest
  | .inside inv rs, [] => [.oneOf inv rs]
  | .inside inv rs, ']' :: rest => .oneOf inv rs :: piecesFrom .outside rest
  | .inside inv rs, '\\' :: c :: rest => piecesFrom (.inside inv (range c c :: rs)) rest
  | .inside inv rs, a :: '-' :: b :: rest => piecesFrom (.inside inv (range a b :: rs)) rest
  | .inside inv rs, c :: rest => piecesFrom (.inside inv (range c c :: rs)) rest

/-- The pieces of a pattern. -/
def pieces (pattern : List Char) : List Piece := piecesFrom .outside pattern

/-- One character against one piece that takes a single character. -/
def Piece.accepts : Piece → Char → Bool
  | .literal a, c => a == c
  | .many, _ => true
  | .one, _ => true
  | .oneOf inv rs, c => (rs.any fun r => r.1 ≤ c && c ≤ r.2) != inv

/-- Some way to cut `cs` leaves a rest that satisfies `p`. -/
def anyTail (p : List Char → Bool) : List Char → Bool
  | [] => p []
  | c :: cs => p (c :: cs) || anyTail p cs

/-- A text against the pieces of a pattern. -/
def matchesPieces : List Piece → List Char → Bool
  | [], cs => cs.isEmpty
  | .many :: ps, cs => anyTail (matchesPieces ps) cs
  | p :: ps, c :: cs => p.accepts c && matchesPieces ps cs
  | _ :: _, [] => false

/-- A text against a pattern. -/
def isMatch (pattern cs : List Char) : Bool := matchesPieces (pieces pattern) cs

example : isMatch "a*c[x-z]?".toList "abbbcy!".toList := by decide
example : isMatch "a\\*".toList "ab".toList = false := by decide
example : isMatch (startingWith "k[1]*".toList) "k[1]*rest".toList := by decide

end GatewayCache.Text.Glob
