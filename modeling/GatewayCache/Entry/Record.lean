/-
  GatewayCache.Entry.Record

  Entries as JSON records, the form in which key-value stores hold them.

  A record has the status, the fields, the body in base64 and the variants of
  an entry. It has no expiry: the store drops the record in time.
-/

import GatewayCache.Entry
import GatewayCache.Json.Reader
import GatewayCache.Json.Writer
import GatewayCache.Text.Base64

namespace GatewayCache.Entry

/-! ## Writing -/

/-- The fields of an entry as a map of lists of texts. -/
def writeFields (fields : Dict (List String)) : List UInt8 :=
  Json.map (fields.entries.map fun p => (p.1, Json.list (p.2.map Json.quoted)))

/-- The record of an entry. -/
def write (e : Entry) : List UInt8 :=
  Json.map [("status", Json.natural e.status.toNat), ("headers", writeFields e.fields),
    ("body", Json.quoted (String.ofList (Text.Base64.encode e.body))),
    ("vary", Json.quoted e.vary)]

/-! ## Reading -/

/-- The names in a record, in their order. -/
def recordNames : List String := ["status", "headers", "body", "vary"]

/-- The largest status. -/
def statusLimit : Nat := 65535

/-- One field with its values. -/
def fieldOfMember? (m : Document × Document) : Option (String × List String) := do
  let name ← m.1.text?
  let values ← m.2.items? Document.text?
  some (name, values)

/-- The fields of a record. Of a repeated name the last one counts. -/
def fieldsOfDocument? : Document → Option (Dict (List String))
  | .map ms => (ms.mapM fieldOfMember?).map Dict.ofList
  | _ => none

/-- The body of a record. -/
def bodyOfDocument? (d : Document) : Option (List UInt8) :=
  d.text?.bind fun s => Text.Base64.decode s.toList

/-- The entry that a document describes. Only the variants may be absent. -/
def ofDocument? (d : Document) : Option Entry := do
  match ← d.record? true recordNames with
  | [some status, some fields, some body, vary] =>
      let status ← status.natural? statusLimit
      let fields ← fieldsOfDocument? fields
      let body ← bodyOfDocument? body
      let vary ← match vary with
        | none => some ""
        | some v => v.text?
      some { status := UInt16.ofNat status, fields, body, vary, expiresAt := none }
  | _ => none

/-- The entry that a record holds; it has no expiry. -/
def read (bs : List UInt8) : Option Entry := (Json.read bs).bind ofDocument?

end GatewayCache.Entry
