/-
  GatewayCache.CacheControl

  The directives of the Cache-Control field: the `CacheControl` of the data model,
  section 3 of the specification. `parse` reads one value and `ofFields` all values of a
  message.

  A field value is a list of directives separated by commas. A directive is a
  name in either case, with an argument behind an equals sign where it takes
  one. A repeated age counts with its last value, and an age that is no number
  counts as zero.
-/

import GatewayCache.Http.Field
import GatewayCache.Text.Blank
import GatewayCache.Text.Case
import GatewayCache.Text.Cut
import GatewayCache.Text.Decimal

namespace GatewayCache

open GatewayCache.Http

/-- The directives that a message carries. Ages are in seconds. -/
structure CacheControl where
  noStore : Bool := false
  noCache : Bool := false
  mustRevalidate : Bool := false
  isPublic : Bool := false
  isPrivate : Bool := false
  maxAge : Option Nat := none
  sharedMaxAge : Option Nat := none
deriving DecidableEq, Repr, Inhabited

namespace CacheControl

/-- No directives. -/
def empty : CacheControl := {}

/-! ## One directive -/

/-- The directives that matter to a cache. -/
inductive Directive where
  | noStore
  | noCache
  | mustRevalidate
  | isPublic
  | isPrivate
  | maxAge (seconds : Nat)
  | sharedMaxAge (seconds : Nat)
deriving DecidableEq, Repr

/-- The seconds that an argument stands for: a 64-bit number, or else zero. -/
def seconds (argument : Option (List Char)) : Nat :=
  (argument.bind (Text.Decimal.read Text.Decimal.word64)).getD 0

/-- The directive with a name and an argument, if it is one that matters. -/
def Directive.ofParts? (name : List Char) (argument : Option (List Char)) : Option Directive :=
  let lower := Text.lower name
  if lower = "no-store".toList then some .noStore
  else if lower = "no-cache".toList then some .noCache
  else if lower = "must-revalidate".toList then some .mustRevalidate
  else if lower = "public".toList then some .isPublic
  else if lower = "private".toList then some .isPrivate
  else if lower = "max-age".toList then some (.maxAge (seconds argument))
  else if lower = "s-maxage".toList then some (.sharedMaxAge (seconds argument))
  else none

/-- The directive that a piece between commas spells. Blanks around the name
    and the argument do not count, nor do quotes around the argument. -/
def Directive.read? (piece : List Char) : Option Directive :=
  let halves := Text.cut '=' (Text.trim piece)
  Directive.ofParts? (Text.trim halves.1)
    (halves.2.map fun argument => Text.unquote (Text.trim argument))

/-- The directives with one more. -/
def apply (c : CacheControl) : Directive → CacheControl
  | .noStore => { c with noStore := true }
  | .noCache => { c with noCache := true }
  | .mustRevalidate => { c with mustRevalidate := true }
  | .isPublic => { c with isPublic := true }
  | .isPrivate => { c with isPrivate := true }
  | .maxAge n => { c with maxAge := some n }
  | .sharedMaxAge n => { c with sharedMaxAge := some n }

/-! ## Whole values -/

/-- The directives spelled by pieces, on top of those in `c`. -/
def applyPieces (c : CacheControl) (pieces : List (List Char)) : CacheControl :=
  (pieces.filterMap Directive.read?).foldl apply c

/-- The directives of a field value. -/
def parse (value : String) : CacheControl := applyPieces empty (value.toList.splitOn ',')

/-- The directives of all readable Cache-Control fields together. -/
def ofFields (f : Fields) : CacheControl :=
  parse (String.intercalate "," (f.texts FieldName.cacheControl))

/-- Both sets of directives; an age in `b` counts before one in `a`. -/
def merge (a b : CacheControl) : CacheControl where
  noStore := a.noStore || b.noStore
  noCache := a.noCache || b.noCache
  mustRevalidate := a.mustRevalidate || b.mustRevalidate
  isPublic := a.isPublic || b.isPublic
  isPrivate := a.isPrivate || b.isPrivate
  maxAge := b.maxAge <|> a.maxAge
  sharedMaxAge := b.sharedMaxAge <|> a.sharedMaxAge

/-! ## What the directives allow -/

/-- The age, unless it is zero. -/
def positive (age : Option Nat) : Option Nat := age.filter (0 < ·)

/-- A maximal age above zero. -/
def positiveMaxAge (c : CacheControl) : Option Nat := positive c.maxAge

/-- A maximal age above zero for shared caches. -/
def positiveSharedMaxAge (c : CacheControl) : Option Nat := positive c.sharedMaxAge

/-- Whether callers may share the response although one was authorized. -/
def allowsShared (c : CacheControl) : Bool := c.isPublic || c.positiveSharedMaxAge.isSome

/-! ## Merging -/

theorem merge_empty (c : CacheControl) : merge c empty = c := by
  cases c; simp [merge, empty]

theorem empty_merge (c : CacheControl) : merge empty c = c := by
  cases c; simp [merge, empty]

theorem merge_assoc (a b c : CacheControl) : merge (merge a b) c = merge a (merge b c) := by
  simp [merge, Bool.or_assoc, Option.orElse_eq_orElse, Option.orElse_eq_or]
  constructor
  · cases c.maxAge <;> simp
  · cases c.sharedMaxAge <;> simp

/-- One more directive is merged in from the right. -/
theorem apply_eq_merge (c : CacheControl) (d : Directive) :
    c.apply d = merge c (empty.apply d) := by
  cases d <;> simp [apply, merge, empty]

end CacheControl

end GatewayCache
