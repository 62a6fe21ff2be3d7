/-
  GatewayCache.Yaml.Place

  Places in a text whose layout has a meaning.

  Line breaks and columns separate what brackets separate elsewhere, so reading
  keeps count of both. At the start of a line a block may begin, and there a
  tab is no blank.
-/

namespace GatewayCache.Yaml

/-! ## Characters -/

def isBlank (c : Char) : Bool := c == ' ' || c == '\t'

/-- The mark that some texts start with. It is no blank, but it can be skipped. -/
def byteOrderMark : Char := '\uFEFF'

/-- The characters that end a line, once all common line ends are line feeds. -/
def isBreak (c : Char) : Bool := c == '\n' || c == '\u2028' || c == '\u2029'

/-- Whether a word ends here. -/
def endsWord : List Char → Bool
  | [] => true
  | c :: _ => isBlank c || isBreak c

/-- Whether a text may contain a character. Control characters are left out. -/
def isPrintable (c : Char) : Bool :=
  let n := c.toNat
  n == 0x09 || n == 0x0A || n == 0x0D || n == 0x85 || (0x20 ≤ n && n ≤ 0x7E)
    || (0xA0 ≤ n && n ≤ 0xFFFD) || 0x10000 ≤ n

/-- All common line ends as line feeds. -/
def unifyBreaks : List Char → List Char
  | [] => []
  | '\r' :: '\n' :: cs => '\n' :: unifyBreaks cs
  | c :: cs => (if c = '\r' ∨ c = '\u0085' then '\n' else c) :: unifyBreaks cs

/-- The marks that stand at the start of a line, before and behind a document. -/
inductive Mark where
  | opening
  | closing
deriving DecidableEq, Repr

/-- The mark in front. -/
def mark? : List Char → Option Mark
  | '-' :: '-' :: '-' :: cs => if endsWord cs then some .opening else none
  | '.' :: '.' :: '.' :: cs => if endsWord cs then some .closing else none
  | _ => none

/-- Whether there is a mark in front. -/
def startsMark (cs : List Char) : Bool := (mark? cs).isSome

/-! ## Places -/

/-- A place: the text that follows, and where it stands. -/
structure Place where
  rest : List Char
  line : Nat := 0
  column : Nat := 0
  /-- Whether a block may begin here. -/
  fresh : Bool := true
deriving DecidableEq, Repr

namespace Place

/-- The place behind the next character. -/
def next (p : Place) : Place :=
  match p.rest with
  | [] => p
  | c :: cs =>
      if isBreak c then { p with rest := cs, line := p.line + 1, column := 0 }
      else { p with rest := cs, column := p.column + 1 }

/-- The place behind a number of characters. -/
def forward : Nat → Place → Place
  | 0, p => p
  | n + 1, p => forward n p.next

/-- How many bytes of UTF-8 lie between a place and a later one. -/
def distance (p q : Place) : Nat :=
  (String.ofList (p.rest.take (p.rest.length - q.rest.length))).utf8ByteSize

/-- The place where `rest`, an end of the text from here on, is left. -/
def behind (p : Place) (rest : List Char) (fresh : Bool) : Place :=
  { forward (p.rest.length - rest.length) p with fresh }

/-- Goes over blanks, breaks and comments, and over a byte order mark that
    starts a line. `layout` tells whether tabs at the start of a line count,
    `comment` whether a comment has begun. -/
def skipFrom (layout : Bool) : (comment : Bool) → List Char → (line column : Nat) →
    (fresh : Bool) → Place
  | _, [], line, column, fresh => ⟨[], line, column, fresh⟩
  | comment, c :: cs, line, column, fresh =>
      if isBreak c then skipFrom layout false cs (line + 1) 0 true
      else if comment || c == ' ' || (c == '\t' && !(layout && fresh))
          || (c == byteOrderMark && column == 0) then
        skipFrom layout comment cs line (column + 1) fresh
      else if c = '#' then skipFrom layout true cs line (column + 1) fresh
      else ⟨c :: cs, line, column, fresh⟩

/-- The next place that is not blank, in a block. -/
def skip (p : Place) : Place := skipFrom true false p.rest p.line p.column p.fresh

/-- The next place that is not blank, between brackets. -/
def skipInside (p : Place) : Place := skipFrom false false p.rest p.line p.column p.fresh

/-- The mark that stands here, if this is the start of a line. -/
def mark? (p : Place) : Option Mark := if p.column = 0 then Yaml.mark? p.rest else none

/-- Whether the document is over here. -/
def isOver (p : Place) : Bool := p.rest.isEmpty || p.mark?.isSome

end Place

end GatewayCache.Yaml
