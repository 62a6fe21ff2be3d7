/-
  GatewayCache.Store.Memory

  A store inside the process: the `MemoryResponseCache`, the first of the two stores
  of section 4.4 of the specification, with `make_room`, by which a bounded one finds
  room for a new key.

  Expired entries stay until they are read, purged, or in the way of a new key.
  A bounded store that is full makes room for a new key: first all expired
  entries go, and then those that expire soonest.
-/

import GatewayCache.Store

namespace GatewayCache

/-- Entries by key, and how many of them there may be. -/
structure MemoryStore where
  entries : Dict Entry
  bound : Option Nat
deriving DecidableEq, Repr

namespace MemoryStore

/-- An empty store without a bound. -/
def unbounded : MemoryStore := ⟨Dict.empty, none⟩

/-- An empty store with a bound; it always has room for one entry. -/
def bounded (n : Nat) : MemoryStore := ⟨Dict.empty, some (max n 1)⟩

/-- An empty store, bounded if a bound is given. -/
def ofBound : Option Nat → MemoryStore
  | none => unbounded
  | some n => bounded n

/-- How many entries are held, expired ones included. -/
def size (s : MemoryStore) : Nat := s.entries.size

/-! ## Making room -/

/-- Whether one entry expires before another. No expiry comes first. -/
def expiresBefore (a b : Entry) : Bool :=
  match a.expiresAt, b.expiresAt with
  | none, none => false
  | none, some _ => true
  | some _, none => false
  | some s, some t => decide (s.nanos < t.nanos)

/-- The earlier of two entries under their keys, the first one of equals. -/
def sooner (a b : String × Entry) : String × Entry := if expiresBefore b.2 a.2 then b else a

/-- The entry that expires soonest. -/
def soonest? : List (String × Entry) → Option (String × Entry)
  | [] => none
  | e :: es => some (es.foldl sooner e)

/-- The entries without the one that expires soonest. -/
def dropSoonest (m : Dict Entry) : Dict Entry :=
  match soonest? m.entries with
  | none => m
  | some e => m.erase e.1

/-- The entries without those that expire soonest, `n` of them. -/
def dropSoonestTimes : Nat → Dict Entry → Dict Entry
  | 0, m => m
  | n + 1, m => dropSoonestTimes n (dropSoonest m)

/-- The entries that have time left. -/
def onlyLive (m : Dict Entry) (now : Instant) : Dict Entry := m.filter fun _ e => e.isLive now

/-- Entries with room for one more key under a bound. Of entries that expire at the
    same instant any one may go; here it is the one whose key comes first, and what
    is said of runs of bounded stores is said of this choice. -/
def makeRoom (bound : Nat) (m : Dict Entry) (key : String) (now : Instant) : Dict Entry :=
  if m.size < bound || m.contains key then m
  else
    -- Only if all of them are live does a live entry have to go.
    let live := onlyLive m now
    dropSoonestTimes (live.size + 1 - bound) live

/-! ## Operations -/

/-- The live entry under a key. An expired one is dropped. -/
def get (now : Instant) (key : String) (s : MemoryStore) : Option Entry × MemoryStore :=
  match s.entries.get? key with
  | none => (none, s)
  | some e =>
      if e.isLive now then (some e, s) else (none, { s with entries := s.entries.erase key })

/-- Puts an entry with time left under a key. -/
def set (now : Instant) (key : String) (e : Entry) (s : MemoryStore) : MemoryStore :=
  if e.isLive now then
    let room := match s.bound with
      | none => s.entries
      | some n => makeRoom n s.entries key now
    { s with entries := room.insert key e }
  else s

/-- Removes a key, expired or not. -/
def purge (key : String) (s : MemoryStore) : Bool × MemoryStore :=
  (s.entries.contains key, { s with entries := s.entries.erase key })

/-- Removes all keys that start with a text, expired or not. -/
def purgePrefix (start : String) (s : MemoryStore) : Nat × MemoryStore :=
  let kept := s.entries.filter fun k _ => !start.toList.isPrefixOf k.toList
  (s.entries.size - kept.size, { s with entries := kept })

instance : ResponseStore MemoryStore where
  name := "memory"
  get := get
  set := set
  purge := purge
  purgePrefix := purgePrefix

end MemoryStore

end GatewayCache
