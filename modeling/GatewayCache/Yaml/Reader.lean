/-
  GatewayCache.Yaml.Reader

  Reading a YAML text as a document.

  Covered are maps and lists in blocks and between brackets, plain and quoted
  words, comments and the marks around a document. A text holds at most one
  document. A block holds the lines that start in its column; a key and its
  colon stand on one line, unless a question mark tells that a key follows.
-/

import GatewayCache.Yaml.Line
import GatewayCache.Yaml.Scalar

namespace GatewayCache.Yaml

/-- The most bytes between the start of a key and its colon. -/
def longestKey : Nat := 1024

/-- Whether what was read from `start` to `p` is a key: a colon follows on the
    same line, and in a block a blank behind it. -/
def isKey (inside : Bool) (start p : Place) : Bool :=
  match p.rest with
  | ':' :: cs =>
      (inside || endsWord cs) && p.line == start.line && start.distance p ≤ longestKey
  | _ => false

/-- Whether a question mark stands here that tells that a key follows. In a
    block a blank has to stand behind it. -/
def startsKey (inside : Bool) (p : Place) : Bool :=
  match p.rest with
  | '?' :: cs => inside || endsWord cs
  | _ => false

/-- Whether the colon between a key and its value in a block stands here. -/
def startsValue (p : Place) : Bool :=
  match p.rest with
  | ':' :: cs => endsWord cs
  | _ => false

/-- Whether nothing is written here where a key or a value might stand between
    brackets. -/
def isVacant (p : Place) : Bool :=
  match p.rest with
  | c :: _ => c == ',' || c == ']' || c == '\x7D' || c == ':'
  | [] => false

/-- Whether an item of a list in a block starts here. -/
def startsItem (p : Place) : Bool :=
  match p.rest with
  | '-' :: cs => endsWord cs
  | _ => false

/-- Whether a block goes on here: on a line that starts in its column. -/
def goesOn (column : Nat) (p : Place) : Bool := !p.isOver && p.fresh && p.column == column

/-! ## Between brackets -/

mutual

/-- A value that is no block, at a place that is not blank, and the place
    behind it. Every call takes one unit of fuel. -/
def scanNode (inside : Bool) (least : Nat) : Nat → Place → Option (Document × Place)
  | 0, _ => none
  | fuel + 1, p =>
      if p.isOver then none
      else
        match p.rest with
        | '[' :: _ =>
            (scanItems least fuel p.next.skipInside).map fun r => (.list r.1, r.2)
        | '\x7B' :: _ =>
            (scanMembers least fuel p.next.skipInside).map fun r => (.map r.1, r.2)
        | '\x22' :: _ => (doubleAt p).map fun r => (.text (String.ofList r.1), r.2)
        | '\x27' :: _ => (singleAt p).map fun r => (.text (String.ofList r.1), r.2)
        | cs =>
            if startsPlain inside cs then
              (plainAt inside least p).map fun r => (ofPlain r.1, r.2)
            else none

/-- A value between brackets that may be left out, and the next place that is
    not blank. -/
def scanOptional (least : Nat) : Nat → Place → Option (Document × Place)
  | 0, _ => none
  | fuel + 1, p =>
      if isVacant p then some (.absent, p)
      else (scanNode true least fuel p).map fun r => (r.1, r.2.skipInside)

/-- A value between brackets, with the one behind its colon if it is a key, and
    the next place that is not blank. -/
def scanEntry (least : Nat) : Nat → Place → Option (Document × Option Document × Place)
  | 0, _ => none
  | fuel + 1, p =>
      if startsKey true p then
        match scanOptional least fuel p.next.skipInside with
        | none => none
        | some (d, q) =>
            match q.rest with
            | ':' :: _ =>
                (scanOptional least fuel q.next.skipInside).map fun r => (d, some r.1, r.2)
            | _ => some (d, some .absent, q)
      else
        match scanNode true least fuel p with
        | none => none
        | some (d, q) =>
            let q := q.skipInside
            if isKey true p q then
              (scanOptional least fuel q.next.skipInside).map fun r => (d, some r.1, r.2)
            else some (d, none, q)

/-- The items of a list up to its closing bracket. A key with a value is a map
    of its own. -/
def scanItems (least : Nat) : Nat → Place → Option (List Document × Place)
  | 0, _ => none
  | fuel + 1, p =>
      match p.rest with
      | ']' :: _ => some ([], { p.next with fresh := false })
      | _ =>
          match scanEntry least fuel p with
          | none => none
          | some (d, v, q) =>
              let item := match v with
                | none => d
                | some v => .map [(d, v)]
              match q.rest with
              | ',' :: _ =>
                  (scanItems least fuel q.next.skipInside).map fun r => (item :: r.1, r.2)
              | ']' :: _ => some ([item], { q.next with fresh := false })
              | _ => none

/-- The members of a map up to its closing brace. -/
def scanMembers (least : Nat) : Nat → Place → Option (List (Document × Document) × Place)
  | 0, _ => none
  | fuel + 1, p =>
      match p.rest with
      | '\x7D' :: _ => some ([], { p.next with fresh := false })
      | _ =>
          match scanEntry least fuel p with
          | none => none
          | some (d, v, q) =>
              let member := (d, v.getD .absent)
              match q.rest with
              | ',' :: _ =>
                  (scanMembers least fuel q.next.skipInside).map fun r => (member :: r.1, r.2)
              | '\x7D' :: _ => some ([member], { q.next with fresh := false })
              | _ => none

end

/-! ## Blocks -/

mutual

/-- A value in a block, at a place that is not blank, and the next such place. -/
def scanBlock (least : Nat) : Nat → Place → Option (Document × Place)
  | 0, _ => none
  | fuel + 1, p =>
      if startsItem p then
        if p.fresh then (scanBlockItems p.column fuel p).map fun r => (.list r.1, r.2) else none
      else if startsKey false p then
        if p.fresh then (scanBlockMembers p.column fuel p).map fun r => (.map r.1, r.2) else none
      else
        match scanNode false least fuel p with
        | none => none
        | some (d, q) =>
            let q := q.skip
            -- The key is read again as the first one of its map.
            if isKey false p q then
              if p.fresh then (scanBlockMembers p.column fuel p).map fun r => (.map r.1, r.2)
              else none
            else some (d, q)

/-- The value behind the mark of an item or a key in a block, if there is one:
    it stands on the same line, or on lines that start further right. -/
def scanValueRight (column : Nat) : Nat → Place → Option (Document × Place)
  | 0, _ => none
  | fuel + 1, p =>
      if p.isOver || p.column ≤ column then some (.absent, p) else scanBlock (column + 1) fuel p

/-- The items of a list whose dashes stand in a column. -/
def scanBlockItems (column : Nat) : Nat → Place → Option (List Document × Place)
  | 0, _ => none
  | fuel + 1, p =>
      match scanValueRight column fuel { p.next with fresh := true }.skip with
      | none => none
      | some (d, q) =>
          if goesOn column q && startsItem q then
            (scanBlockItems column fuel q).map fun r => (d :: r.1, r.2)
          else some ([d], q)

/-- What stands behind the mark of a key or a value in a map whose keys stand in
    a column. A list may have its dashes in the same column. -/
def scanContent (column : Nat) : Nat → Place → Option (Document × Place)
  | 0, _ => none
  | fuel + 1, p =>
      if goesOn column p && startsItem p then
        (scanBlockItems column fuel p).map fun r => (.list r.1, r.2)
      else scanValueRight column fuel p

/-- A key and its value in a map whose keys stand in a column. -/
def scanMember (column : Nat) : Nat → Place → Option (Document × Document × Place)
  | 0, _ => none
  | fuel + 1, p =>
      if startsKey false p then
        match scanContent column fuel { p.next with fresh := true }.skip with
        | none => none
        | some (key, q) =>
            if goesOn column q && startsValue q then
              (scanContent column fuel { q.next with fresh := true }.skip).map fun r =>
                (key, r.1, r.2)
            else some (key, .absent, q)
      else
        match scanNode false (column + 1) fuel p with
        | none => none
        | some (key, q) =>
            let q := q.skip
            if isKey false p q then
              (scanContent column fuel { q.next with fresh := false }.skip).map fun r =>
                (key, r.1, r.2)
            else none

/-- The members of a map whose keys stand in a column. -/
def scanBlockMembers (column : Nat) : Nat → Place → Option (List (Document × Document) × Place)
  | 0, _ => none
  | fuel + 1, p =>
      match scanMember column fuel p with
      | none => none
      | some (key, d, q) =>
          if goesOn column q then
            (scanBlockMembers column fuel q).map fun r => ((key, d) :: r.1, r.2)
          else some ([(key, d)], q)

end

/-! ## Documents -/

/-- Whether nothing but closing marks follows. -/
def isFinished : Nat → Place → Bool
  | 0, _ => false
  | fuel + 1, p =>
      match p.rest, p.mark? with
      | [], _ => true
      | _, some .closing => isFinished fuel ({ p.forward 3 with fresh := false } : Place).skip
      | _, _ => false

/-- The value of a document that starts here. -/
def scanDocument (fuel : Nat) (p : Place) : Option (Document × Place) :=
  if p.isOver then some (.absent, p) else scanBlock 0 fuel p

/-- The document that a text holds, absent if it holds none. Each call consumes
    a character or is soon followed by one that does, so six times the length is
    fuel enough. -/
def readText (s : String) : Option Document := do
  let cs := unifyBreaks s.toList
  let fuel := 6 * cs.length + 8
  let p := ({ rest := cs } : Place).skip
  if !cs.all isPrintable then none
  else
    let (d, q) ← match p.mark? with
      | some .opening => scanDocument fuel ({ p.forward 3 with fresh := false } : Place).skip
      | some .closing => none
      | none => scanDocument fuel p
    if isFinished fuel q then some d else none

end GatewayCache.Yaml
