/-
  GatewayCache.Http.Target

  Request targets: the path and the query that a request asks for.

  A target is given as a path with an optional query, as an absolute address
  with a scheme and an authority, as the asterisk, or as an authority alone.
  The fragment is dropped. Scheme and authority are checked and then forgotten,
  since no answer of a cache depends on them.
-/

import GatewayCache.Text.Utf8

namespace GatewayCache.Http

/-- A path starts with a slash, is the asterisk, or is empty. -/
def isPathForm (path : String) : Bool :=
  path == "" || path == "*" || path.toList.head? == some '/'

/-- What a request asks for. -/
structure Target where
  path : String
  query : Option String
  path_form : isPathForm path = true

instance : Repr Target := ⟨fun t p => reprPrec (t.path, t.query) p⟩

namespace Target

theorem ext {s t : Target} (hp : s.path = t.path) (hq : s.query = t.query) : s = t := by
  cases s; cases t; simp_all

/-- The target with a path and a query, if the path has one of the forms. -/
def ofParts? (path : String) (query : Option String) : Option Target :=
  if h : isPathForm path = true then some ⟨path, query, h⟩ else none

/-! ## Path and query -/

/-- The bytes of paths. Bytes above ASCII have to encode text. -/
def isPathByte (b : UInt8) : Bool :=
  let n := b.toNat
  n == 0x21 || n == 0x22 || (0x24 ≤ n && n ≤ 0x3B) || n == 0x3D || (0x40 ≤ n && n ≤ 0x5F)
    || (0x61 ≤ n && n ≤ 0x7E) || 0x80 ≤ n

/-- The bytes of queries. Bytes above ASCII have to encode text. -/
def isQueryByte (b : UInt8) : Bool :=
  let n := b.toNat
  n == 0x21 || (0x24 ≤ n && n ≤ 0x3B) || n == 0x3D || (0x3F ≤ n && n ≤ 0x7E) || 0x80 ≤ n

/-- A path, a query behind the first question mark, and a fragment that is
    dropped. An empty path stands for the root. -/
def ofPathAndQuery? (bs : List UInt8) : Option Target := do
  let kept := bs.takeWhile (· != 0x23)
  let path := kept.takeWhile (· != 0x3F)
  let query := kept.drop path.length
  if path.all isPathByte && (query.drop 1).all isQueryByte then
    let pathText ← Text.Utf8.decode? path
    -- The question mark is kept in front of the query, so an empty query
    -- differs from none.
    let queryText ← Text.Utf8.decode? (query.drop 1)
    ofParts? (if path.isEmpty then "/" else pathText)
      (if query.isEmpty then none else some queryText)
  else none

/-! ## Scheme and authority -/

/-- The bytes of schemes. -/
def isSchemeByte (b : UInt8) : Bool :=
  let n := b.toNat
  (0x30 ≤ n && n ≤ 0x39) || (0x41 ≤ n && n ≤ 0x5A) || (0x61 ≤ n && n ≤ 0x7A)
    || n == 0x2B || n == 0x2D || n == 0x2E || n == 0x7E

/-- What stands behind the scheme and its two slashes; `none` when the bytes
    do not start with a scheme. -/
def afterScheme? (bs : List UInt8) : Option (List UInt8) :=
  match bs.dropWhile isSchemeByte with
  | 0x3A :: 0x2F :: 0x2F :: rest => some rest
  | _ => none

/-- The longest scheme. -/
def schemeLimit : Nat := 64

/-- The bytes of authorities other than brackets, colon, `@` and percent. -/
def isAuthorityByte (b : UInt8) : Bool :=
  let n := b.toNat
  (0x30 ≤ n && n ≤ 0x39) || (0x41 ≤ n && n ≤ 0x5A) || (0x61 ≤ n && n ≤ 0x7A)
    || n == 0x21 || n == 0x24 || (0x26 ≤ n && n ≤ 0x2E) || n == 0x3B || n == 0x3D
    || n == 0x5F || n == 0x7E

/-- What has been met while reading an authority. -/
structure AuthorityScan where
  colons : Nat
  opened : Bool
  closed : Bool
  percent : Bool
  endsInAt : Bool

/-- The most colons between two points where counting starts anew. -/
def colonLimit : Nat := 8

/-- One byte of an authority. Behind a user part or a closed bracket the
    colons and percent signs met before no longer matter. -/
def AuthorityScan.feed (s : AuthorityScan) (b : UInt8) : Option AuthorityScan :=
  let t := { s with endsInAt := false }
  if b = 0x3A then
    if colonLimit ≤ s.colons then none else some { t with colons := s.colons + 1 }
  else if b = 0x5B then
    if s.percent || s.opened then none else some { t with opened := true }
  else if b = 0x5D then
    -- What stands in brackets is an address with colons of its own.
    if !s.opened || s.closed then none
    else some { t with closed := true, colons := 0, percent := false }
  else if b = 0x40 then some { t with colons := 0, percent := false, endsInAt := true }
  else if b = 0x25 then some { t with percent := true }
  else if isAuthorityByte b then some t
  else none

/-- An authority: brackets balanced, at most one colon and no percent sign in
    the host part, and something behind the user part. -/
def isAuthority (bs : List UInt8) : Bool :=
  match bs.foldlM AuthorityScan.feed ⟨0, false, false, false, false⟩ with
  | none => false
  | some s => s.opened == s.closed && s.colons ≤ 1 && !s.endsInAt && !s.percent

/-- Whether a byte ends the authority. -/
def endsAuthority (b : UInt8) : Bool := b == 0x2F || b == 0x3F || b == 0x23

/-! ## The whole target -/

/-- The longest target. -/
def sizeLimit : Nat := 65534

/-- The target that some bytes spell. -/
def ofBytes? (bs : List UInt8) : Option Target :=
  if bs.isEmpty || sizeLimit < bs.length then none
  else if bs.head? = some 0x2F then ofPathAndQuery? bs
  else if bs = [0x2A] then ofParts? "*" none
  else
    match afterScheme? bs with
    | some rest =>
        let authority := rest.takeWhile fun b => !endsAuthority b
        if (bs.takeWhile isSchemeByte).length ≤ schemeLimit && !authority.isEmpty
            && isAuthority authority then
          ofPathAndQuery? (rest.drop authority.length)
        else none
    | none => if isAuthority bs then ofParts? "" none else none

end Target

end GatewayCache.Http
