/-
  GatewayCache.Key.Record

  Cache keys as JSON records.
-/

import GatewayCache.Json.Reader
import GatewayCache.Json.Writer
import GatewayCache.Key

namespace GatewayCache.CacheKey

/-- The record of a key. -/
def write (k : CacheKey) : List UInt8 := Json.map [("hash", Json.quoted k.hash)]

/-- The key that a document describes. -/
def ofDocument? (d : Document) : Option CacheKey := do
  match ← d.record? true ["hash"] with
  | [some hash] => hash.text?.map CacheKey.mk
  | _ => none

/-- The key that a record holds. -/
def read (bs : List UInt8) : Option CacheKey := (Json.read bs).bind ofDocument?

end GatewayCache.CacheKey
