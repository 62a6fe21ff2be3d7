/-
  GatewayCache.Document

  Structured values as a text format spells them, and taking them apart.

  A document may hold pieces that can be skipped but not used: text that is not
  well formed, numbers that no machine number comes near to. They are kept as
  `unreadable` and `huge`, so that only the use of such a piece fails.
-/

import GatewayCache.Text.Decimal

namespace GatewayCache

/-- A structured value. The keys of a map are documents too, in the order in
    which they are spelled, repetitions included. -/
inductive Document where
  /-- A place where nothing is written. -/
  | absent
  | null
  | boolean (b : Bool)
  /-- A natural number of at most 64 bits. -/
  | natural (n : Nat)
  /-- A whole zero behind a minus sign. -/
  | negativeZero
  /-- Any other number: negative, or with a fraction. -/
  | number
  /-- A number that is too large to be used. -/
  | huge
  | text (s : String)
  /-- Text that is not well formed. -/
  | unreadable
  | list (items : List Document)
  | map (members : List (Document × Document))

namespace Document

instance : Inhabited Document := ⟨.null⟩

/-! ## Using single values -/

def text? : Document → Option String
  | .text s => some s
  | _ => none

def boolean? : Document → Option Bool
  | .boolean b => some b
  | _ => none

/-- A natural number not above `largest`. -/
def natural? (largest : Nat) : Document → Option Nat
  | .natural n => if n ≤ largest then some n else none
  | _ => none

/-- The items of a list that are all taken by `f`. -/
def items? {α : Type} (f : Document → Option α) : Document → Option (List α)
  | .list ds => ds.mapM f
  | _ => none

/-- Whether a value can be kept for later use: nothing in it is unreadable or
    huge, and its lists and maps lie at most `depth` deep in each other. -/
def isKeepable : Nat → Document → Bool
  | _, .unreadable => false
  | _, .huge => false
  | 0, .list _ => false
  | 0, .map _ => false
  | depth + 1, .list ds => ds.all fun d => isKeepable depth d
  | depth + 1, .map ms => ms.all fun m => isKeepable depth m.1 && isKeepable depth m.2
  | _, _ => true

/-! ## Records -/

/-- The values of one name among the members of a map. -/
def valuesOf (members : List (String × Document)) (name : String) : List Document :=
  (members.filter fun m => m.1 == name).map (·.2)

/-- The value of a name that may occur once: `none` if it is repeated, and
    `some none` if it does not occur. -/
def single? (members : List (String × Document)) (name : String) : Option (Option Document) :=
  match valuesOf members name with
  | [] => some none
  | [d] => some (some d)
  | _ => none

/-- The fields with the given names, in their order. Other members are
    skipped; a repeated name fails. -/
def namedFields? (names : List String) (members : List (String × Document)) :
    Option (List (Option Document)) :=
  names.mapM (single? members)

/-- Fields given by position: as many as there are, the others absent. -/
def positionalFields? (names : List String) (items : List Document) :
    Option (List (Option Document)) :=
  if items.length ≤ names.length then
    some (items.map some ++ List.replicate (names.length - items.length) none)
  else none

/-- The key of a member as a name. Every single value has a spelling, so it is
    some name; only text is ever a known one. -/
def keyName? : Document → Option String
  | .text s => some s
  | .unreadable => none
  | .list _ => none
  | .map _ => none
  | _ => some ""

/-- The fields of a record that is spelled as a map, or as a list where
    `byPosition` allows it. Where nothing is written there are no fields. -/
def record? (byPosition : Bool) (names : List String) : Document → Option (List (Option Document))
  | .absent => namedFields? names []
  | .map ms => do
      let named ← ms.mapM fun m => (keyName? m.1).map fun k => (k, m.2)
      namedFields? names named
  | .list ds => if byPosition then positionalFields? names ds else none
  | _ => none

end Document

end GatewayCache
