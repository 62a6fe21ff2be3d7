/-
  GatewayCache.Yaml.Line

  Words that may go on over several lines.

  A word is first cut into pieces and then folded: blanks around a line break
  vanish, a single break becomes a space, and of several breaks the first one
  vanishes.
-/

import GatewayCache.Text.Hex
import GatewayCache.Yaml.Place

namespace GatewayCache.Yaml

/-! ## Folding -/

/-- A piece of a word. -/
inductive Piece where
  | char (c : Char)
  /-- A blank or a break. -/
  | gap (c : Char)
  /-- A break that is escaped: it and the blanks behind it vanish. -/
  | glue
deriving DecidableEq, Repr

def Piece.isGap : Piece → Bool
  | .gap _ => true
  | _ => false

/-- Blanks and breaks in a row. -/
structure Gap where
  blanks : List Char := []
  breaks : List Char := []
  /-- Whether it began with an escaped break. -/
  glued : Bool := false

/-- The gap with one more blank or break. -/
def Gap.add (g : Gap) (c : Char) : Gap :=
  if isBreak c then { g with breaks := g.breaks ++ [c] } else { g with blanks := g.blanks ++ [c] }

/-- What is left of breaks in a row. -/
def foldBreaks : List Char → List Char
  | ['\n'] => [' ']
  | '\n' :: bs => bs
  | bs => bs

/-- What is left of a gap. -/
def Gap.folded (g : Gap) : List Char :=
  if g.glued then g.breaks
  else if g.breaks.isEmpty then g.blanks
  else foldBreaks g.breaks

/-- The text of pieces behind a gap. -/
def foldFrom (g : Gap) : List Piece → List Char
  | [] => g.folded
  | .char c :: ps => g.folded ++ c :: foldFrom {} ps
  | .gap c :: ps => foldFrom (g.add c) ps
  | .glue :: ps => g.folded ++ foldFrom { glued := true } ps

/-- The text of pieces. -/
def fold (ps : List Piece) : List Char := foldFrom {} ps

/-- One more piece in front of what was read. -/
def pushPiece (p : Piece) (r : Option (List Piece × List Char)) :
    Option (List Piece × List Char) :=
  r.map fun q => (p :: q.1, q.2)

/-! ## Quotes -/

def singleQuote : Char := '\x27'
def doubleQuote : Char := '\x22'
def backslash : Char := '\x5C'

/-- The pieces up to a closing single quote, and what stands behind it. Two
    single quotes stand for one. -/
def scanSingle : (quoted : Bool) → List Char → Option (List Piece × List Char)
  | false, [] => none
  | true, [] => some ([], [])
  | true, c :: cs =>
      if c = singleQuote then pushPiece (.char c) (scanSingle false cs) else some ([], c :: cs)
  | false, c :: cs =>
      if c = singleQuote then scanSingle true cs
      -- A mark ends the document, even between quotes.
      else if isBreak c && startsMark cs then none
      else if isBreak c || isBlank c then pushPiece (.gap c) (scanSingle false cs)
      else pushPiece (.char c) (scanSingle false cs)

/-- The characters behind a backslash, each with the one it stands for. -/
def escapes : List (Char × Char) :=
  [('0', '\x00'), ('a', '\x07'), ('b', '\x08'), ('t', '\t'), ('\t', '\t'), ('n', '\n'),
    ('v', '\x0B'), ('f', '\x0C'), ('r', '\r'), ('e', '\x1B'), (' ', ' '),
    (doubleQuote, doubleQuote), ('/', '/'), (backslash, backslash), ('N', '\u0085'),
    ('_', '\u00A0'), ('L', '\u2028'), ('P', '\u2029')]

/-- How many hexadecimal digits follow a letter behind a backslash. -/
def codeLength? (c : Char) : Option Nat :=
  if c = 'x' then some 2 else if c = 'u' then some 4 else if c = 'U' then some 8 else none

/-- Where reading between double quotes stands. -/
inductive Escape where
  | no
  /-- Behind a backslash. -/
  | begun
  /-- In a code, with digits still to come and the value so far. -/
  | code (left value : Nat)
deriving DecidableEq, Repr

/-- The character with a code. -/
def charOfCode? (n : Nat) : Option Char := if n.isValidChar then some (Char.ofNat n) else none

/-- The pieces up to a closing double quote, and what stands behind it. -/
def scanDouble : Escape → List Char → Option (List Piece × List Char)
  | _, [] => none
  | .no, c :: cs =>
      if c = doubleQuote then some ([], cs)
      else if c = backslash then scanDouble .begun cs
      else if isBreak c && startsMark cs then none
      else if isBreak c || isBlank c then pushPiece (.gap c) (scanDouble .no cs)
      else pushPiece (.char c) (scanDouble .no cs)
  | .begun, c :: cs =>
      if isBreak c then
        if startsMark cs then none else pushPiece .glue (scanDouble .no cs)
      else
        match codeLength? c, escapes.lookup c with
        | some n, _ => scanDouble (.code n 0) cs
        | none, some d => pushPiece (.char d) (scanDouble .no cs)
        | none, none => none
  | .code left value, c :: cs =>
      match Text.Hex.digitValue? c.toNat with
      | none => none
      | some d =>
          let value := value * 16 + d
          if 1 < left then scanDouble (.code (left - 1) value) cs
          else
            match charOfCode? value with
            | none => none
            | some d => pushPiece (.char d) (scanDouble .no cs)

/-! ## Plain words -/

/-- The characters that separate values between brackets. -/
def isFlowMark (c : Char) : Bool := [',', '[', ']', '\x7B', '\x7D'].contains c

/-- The characters that no plain word starts with. -/
def isIndicator (c : Char) : Bool :=
  isFlowMark c || c == singleQuote || c == doubleQuote
    || ['#', '&', '*', '!', '|', '>', '%', '@', '\x60'].contains c

/-- Whether a plain word starts here. -/
def startsPlain (inside : Bool) : List Char → Bool
  | [] => false
  | c :: cs =>
      if c = '-' then !endsWord cs
      else if c = ':' ∨ c = '?' then !inside && !endsWord cs
      else !isIndicator c && !isBlank c && !isBreak c

/-- Whether a plain word ends in front of a character within it. -/
def endsPlain (inside : Bool) (c : Char) (cs : List Char) : Bool :=
  (c == ':' && endsWord cs) || (inside && isFlowMark c)

/-- Whether a colon stands between a word and a mark of brackets. -/
def isStrayColon (inside : Bool) (c : Char) : List Char → Bool
  | [] => false
  | d :: _ => inside && c == ':' && (isFlowMark d || d == '?')

/-- The pieces of a plain word, with the gap behind it, and what follows. `gap`
    tells whether reading stands in a gap, and if so, whether it holds a break.
    A line that starts left of column `least` does not belong to the word. -/
def scanPlain (inside : Bool) (least : Nat) : (gap : Option Bool) → (column : Nat) → List Char →
    Option (List Piece × List Char)
  | _, _, [] => some ([], [])
  | gap, column, c :: cs =>
      if isBreak c then pushPiece (.gap c) (scanPlain inside least (some true) 0 cs)
      else if isBlank c then
        if c = '\t' ∧ gap = some true ∧ column < least then none
        else pushPiece (.gap c) (scanPlain inside least (some (gap.getD false)) (column + 1) cs)
      else if gap.isSome && ((!inside && column < least) || c == '#'
          || (column == 0 && startsMark (c :: cs))) then
        some ([], c :: cs)
      else if isStrayColon inside c cs then none
      else if endsPlain inside c cs then some ([], c :: cs)
      else pushPiece (.char c) (scanPlain inside least none (column + 1) cs)

/-! ## Words at a place -/

/-- Whether a break is among gaps. -/
def holdsBreak (ps : List Piece) : Bool :=
  ps.any fun
    | .gap c => isBreak c
    | _ => false

/-- A plain word and the place behind it and behind its gap. -/
def plainAt (inside : Bool) (least : Nat) (p : Place) : Option (List Char × Place) := do
  let (ps, rest) ← scanPlain inside least none p.column p.rest
  -- The gap behind the word does not belong to it.
  let backwards := ps.reverse
  let gap := backwards.takeWhile Piece.isGap
  some (fold (backwards.drop gap.length).reverse, p.behind rest (holdsBreak gap))

/-- The text between single quotes, of which the first one is here. -/
def singleAt (p : Place) : Option (List Char × Place) :=
  (scanSingle false p.next.rest).map fun q => (fold q.1, p.behind q.2 false)

/-- The text between double quotes, of which the first one is here. -/
def doubleAt (p : Place) : Option (List Char × Place) :=
  (scanDouble .no p.next.rest).map fun q => (fold q.1, p.behind q.2 false)

end GatewayCache.Yaml
