/-
  GatewayCache.Metadata.RecencyCache

  A bounded cache of values that live for a fixed time: the `TtlLruCache` of section 4.5
  of the specification, with its counters. `brokenGet` is a `get` that is broken off
  while it copies a live value.

  The items are kept in the order of their last use, the latest first. Reading
  a live value and writing one are uses. A new key in a full cache displaces the
  item that was used longest ago. An expired item goes when it is read.
-/

import GatewayCache.Clock
import GatewayCache.Config
import GatewayCache.Run

namespace GatewayCache

/-- A value with its key and the instant when it expires. -/
structure TimedItem (ν : Type) where
  key : String
  value : ν
  expiresAt : Instant
deriving DecidableEq, Repr

/-- Whether an item has time left. -/
def TimedItem.isLive {ν : Type} (i : TimedItem ν) (now : Instant) : Bool :=
  decide (now.nanos < i.expiresAt.nanos)

/-- Items in the order of their last use, the latest first, with the counters. An
    operation adds one to one counter at most, and no run makes the 2^64 operations
    that would take a counter beyond a machine word, so the counts are plain numbers. -/
structure RecencyCache (ν : Type) where
  items : List (TimedItem ν)
  capacity : Nat
  ttl : Span
  hits : Nat := 0
  misses : Nat := 0
  evictions : Nat := 0
deriving Repr

namespace RecencyCache

variable {ν : Type}

/-- The longest time that values live. -/
def longestTtl : Span := Span.ofSeconds Config.longestTtlSeconds

/-- An empty cache. There is always room for one item, and longer lives are cut
    to one year. -/
def create (ttl : Span) (capacity : Nat) : RecencyCache ν :=
  { items := [], capacity := max capacity 1, ttl := ttl.min longestTtl }

/-- An empty cache with the given settings. -/
def ofConfig (c : MetadataConfig) : RecencyCache ν :=
  create (Span.ofSeconds c.ttlSeconds) c.maxEntries

/-- How many items are held, expired ones included. -/
def size (c : RecencyCache ν) : Nat := c.items.length

/-- The item under a key. -/
def find? (c : RecencyCache ν) (key : String) : Option (TimedItem ν) :=
  c.items.find? fun i => i.key == key

/-- The items under other keys. -/
def others (c : RecencyCache ν) (key : String) : List (TimedItem ν) :=
  c.items.filter fun i => i.key != key

/-! ## Operations -/

/-- The live value under a key. -/
def get (now : Instant) (key : String) (c : RecencyCache ν) : Option ν × RecencyCache ν :=
  match c.find? key with
  | none => (none, { c with misses := c.misses + 1 })
  | some i =>
      if i.isLive now then
        (some i.value, { c with items := i :: c.others key, hits := c.hits + 1 })
      else (none, { c with items := c.others key, misses := c.misses + 1 })

/-- Reading that is broken off while a live value is handed out: the value
    counts as used, but not as a hit. Tells whether that happened. -/
def brokenGet (now : Instant) (key : String) (c : RecencyCache ν) : Bool × RecencyCache ν :=
  match c.find? key with
  | none => (false, { c with misses := c.misses + 1 })
  | some i =>
      if i.isLive now then (true, { c with items := i :: c.others key })
      else (false, { c with items := c.others key, misses := c.misses + 1 })

/-- Puts a value under a key; tells which other key it displaced. Beyond the end
    of the calendar nothing is put. -/
def set (now : Instant) (key : String) (value : ν) (c : RecencyCache ν) :
    Option String × RecencyCache ν :=
  match now.after? c.ttl with
  | none => (none, c)
  | some expiresAt =>
      -- A new value lives anew, whatever is left of the old one.
      let item := ⟨key, value, expiresAt⟩
      if (c.find? key).isSome then (none, { c with items := item :: c.others key })
      else if c.items.length < c.capacity then (none, { c with items := item :: c.items })
      else
        (c.items.getLast?.map (·.key),
          { c with items := item :: c.items.dropLast, evictions := c.evictions + 1 })

/-- Removes a key, expired or not; tells whether it was there. -/
def purge (key : String) (c : RecencyCache ν) : Bool × RecencyCache ν :=
  ((c.find? key).isSome, { c with items := c.others key })

/-- Removes all items. -/
def clear (c : RecencyCache ν) : RecencyCache ν := { c with items := [] }

/-! ## Runs -/

/-- One operation. -/
inductive Op (ν : Type) where
  | get (key : String)
  | brokenGet (key : String)
  | set (key : String) (value : ν)
  | purge (key : String)
  | clear
deriving Repr

/-- What an operation answers. -/
inductive Reply (ν : Type) where
  | value (found : Option ν)
  | broken (off : Bool)
  | written (displaced : Option String)
  | removed (any : Bool)
  | cleared
deriving Repr

/-- One operation at one instant. -/
def step (now : Instant) (op : Op ν) (c : RecencyCache ν) : Reply ν × RecencyCache ν :=
  match op with
  | .get key => let (v, c) := c.get now key; (.value v, c)
  | .brokenGet key => let (off, c) := c.brokenGet now key; (.broken off, c)
  | .set key value => let (displaced, c) := c.set now key value; (.written displaced, c)
  | .purge key => let (any, c) := c.purge key; (.removed any, c)
  | .clear => (.cleared, c.clear)

/-- Operations one after the other. -/
abbrev run : List (Instant × Op ν) → RecencyCache ν → List (Reply ν) × RecencyCache ν :=
  runSteps step

end RecencyCache

end GatewayCache
