/-
  GatewayCache.Store

  What every store of entries can do, and runs of its operations: the interface
  `ResponseCacheStore`, section 4.4 of the specification.

  An operation takes the store's state and gives the next one. A store never
  fails: what cannot be done counts as a miss, as a write left out, or as
  nothing removed.
-/

import GatewayCache.Entry
import GatewayCache.Run

namespace GatewayCache

/-- Operations of a store whose state is `σ`. -/
class ResponseStore (σ : Type) where
  /-- The name of this kind of store. -/
  name : String
  /-- The live entry under a key. -/
  get : Instant → String → σ → Option Entry × σ
  /-- Puts an entry under a key, unless it has no lifetime left. -/
  set : Instant → String → Entry → σ → σ
  /-- Removes a key; tells whether there was one. -/
  purge : String → σ → Bool × σ
  /-- Removes all keys that start with a text; tells how many there were. -/
  purgePrefix : String → σ → Nat × σ

namespace ResponseStore

/-! ## Runs -/

/-- One operation. -/
inductive Op where
  | get (key : String)
  | set (key : String) (entry : Entry)
  | purge (key : String)
  | purgePrefix (start : String)
deriving DecidableEq, Repr

/-- What an operation answers. -/
inductive Reply where
  | entry (found : Option Entry)
  | written
  | removed (any : Bool)
  | count (n : Nat)
deriving DecidableEq, Repr

variable {σ : Type} [ResponseStore σ]

/-- One operation at one instant. -/
def step (now : Instant) : Op → σ → Reply × σ
  | .get key, s => let (e, s) := get now key s; (.entry e, s)
  | .set key e, s => (.written, set now key e s)
  | .purge key, s => let (any, s) := purge key s; (.removed any, s)
  | .purgePrefix start, s => let (n, s) := purgePrefix start s; (.count n, s)

/-- Operations one after the other. -/
abbrev run : List (Instant × Op) → σ → List Reply × σ := runSteps step

end ResponseStore

end GatewayCache
