/-
  GatewayCache.KeyValue

  What a store of bytes under keys can do: the calls `get`, `set_ex`, `del` and `scan`
  that a networked store makes.

  A call takes the store's state and gives the next one; it may fail. A scan
  goes through the keys page by page: it starts with cursor zero, and each page
  names the cursor of the next one, zero when there is none.
-/

import GatewayCache.Fault

namespace GatewayCache

/-- One page of a scan. -/
structure ScanPage where
  next : Nat
  keys : List String
deriving DecidableEq, Repr

/-- Calls of a key-value store whose state is `κ`. -/
class KeyValueStore (κ : Type) where
  /-- The bytes under a key. -/
  get : String → κ → Except Fault (Option (List UInt8)) × κ
  /-- Puts bytes under a key for a number of seconds. -/
  setFor : String → List UInt8 → Nat → κ → Except Fault Unit × κ
  /-- Removes keys; tells how many of them there were. -/
  delete : List String → κ → Except Fault Nat × κ
  /-- A page of the keys that match a pattern, from a cursor on, about as long
      as asked for. -/
  scan : Nat → String → Nat → κ → Except Fault ScanPage × κ

end GatewayCache
