/-
  GatewayCache.Entry

  Stored responses: the `CachedResponse` of the data model, section 3 of the
  specification. `Entry.ofResponse` makes one, and `Entry.replay` gives its fields back.

  An entry keeps what a response needs to be given again: its status, its
  fields as texts in the order of their names, its body and the instant when it
  expires. Fields that belong to one connection are left out.
-/

import GatewayCache.Clock
import GatewayCache.Dict
import GatewayCache.Http.Message

namespace GatewayCache

open GatewayCache.Http

/-- A stored response. An entry without an expiry has no lifetime left. -/
structure Entry where
  status : UInt16
  fields : Dict (List String)
  body : List UInt8
  vary : String
  expiresAt : Option Instant
deriving DecidableEq, Repr

namespace Entry

/-! ## From a response -/

/-- The fields that belong to one connection. -/
def connectionFields : List String :=
  ["connection", "keep-alive", "proxy-authenticate", "proxy-authorization", "te", "trailers",
   "transfer-encoding", "upgrade"]

/-- Whether a name, in either case, belongs to one connection. -/
def isConnectionField (name : String) : Bool := connectionFields.contains (Text.lowered name)

/-- The fields with one more value behind those of its name. -/
def pushField (fields : Dict (List String)) (name value : String) : Dict (List String) :=
  fields.insert name ((fields.get? name).getD [] ++ [value])

/-- The fields to keep: names with their values in order, as texts. -/
def storedFields (f : Fields) : Dict (List String) :=
  (f.lines.filter fun l => !isConnectionField l.1.text).foldl
    (fun kept l => pushField kept l.1.text l.2.stored) Dict.empty

/-- The entry of a response that expires `ttl` from now. Beyond the end of the
    calendar there is no expiry. -/
def ofResponse (now : Instant) (status : UInt16) (f : Fields) (body : List UInt8) (ttl : Span) :
    Entry :=
  -- Fields of a connection are gone before the variants are read off.
  let fields := storedFields f
  { status, fields, body,
    vary := String.intercalate ", " ((fields.get? FieldName.vary.text).getD []),
    expiresAt := now.after? ttl }

/-! ## Lifetime -/

/-- The time left before the entry expires. -/
def remaining? (e : Entry) (now : Instant) : Option Span := e.expiresAt.bind now.until?

/-- Whether the entry has time left. -/
def isLive (e : Entry) (now : Instant) : Bool := (e.remaining? now).isSome

theorem isLive_iff {e : Entry} {now : Instant} :
    e.isLive now = true ↔ ∃ t, e.expiresAt = some t ∧ now.nanos < t.nanos := by
  unfold isLive remaining?
  cases e.expiresAt with
  | none => simp
  | some t => simp [Instant.until?_isSome_iff]

/-! ## Back to fields -/

/-- The first value of a field, its name in either case. -/
def first? (e : Entry) (name : String) : Option String :=
  (e.fields.get? (Text.lowered name)).bind List.head?

/-- The fields that one stored name stands for. A name or a value that has no
    valid form is left out. -/
def replayLines (name : String) (values : List String) : List (FieldName × FieldValue) :=
  match FieldName.ofText? name with
  | none => []
  | some n => (values.filterMap FieldValue.ofText?).map fun v => (n, v)

/-- The fields to send when the response is given again. -/
def replay (e : Entry) : Fields := ⟨e.fields.entries.flatMap fun p => replayLines p.1 p.2⟩

end Entry

end GatewayCache
