/-
  GatewayCache.Store.Networked

  A store of entries on top of a key-value store: the `NetworkedResponseCache`, the
  second of the two stores of section 4.4 of the specification. `sweep` is the loop of
  its `purge_prefix`, and `KeySpace.pattern` the escaped pattern of that scan.

  Entries are held as JSON records under prefixed keys, for as many whole
  seconds as they have time left, a started second counted in full. The
  key-value store drops them in time, so reading does not look at the clock.
  Failures of the key-value store count as misses, as writes left out, or as
  nothing removed.
-/

import GatewayCache.Entry.Record
import GatewayCache.KeyValue
import GatewayCache.Store
import GatewayCache.Text.Glob

namespace GatewayCache

/-- How many keys a scan asks for at a time, unless it is told otherwise. -/
def defaultScanCount : Nat := 100

/-- A part of a key-value store: the keys with a common start, and how many of
    them a scan asks for at a time. -/
structure KeySpace where
  start : String := ""
  scanCount : Nat := defaultScanCount
deriving DecidableEq, Repr

namespace KeySpace

/-- The same part, scanned by a number of keys at a time, at least one. -/
def scanning (s : KeySpace) (n : Nat) : KeySpace := { s with scanCount := max n 1 }

/-- The full key of a key in this part. -/
def key (s : KeySpace) (k : String) : String := s.start ++ k

/-- The pattern for all full keys of keys that start with a text. -/
def pattern (s : KeySpace) (k : String) : String :=
  String.ofList (Text.Glob.startingWith (s.key k).toList)

variable {κ : Type} [KeyValueStore κ]

/-! ## Single keys -/

/-- The entry under a key. A failed call or an unreadable record is a miss. -/
def get (s : KeySpace) (k : String) (kv : κ) : Option Entry × κ :=
  match KeyValueStore.get (s.key k) kv with
  -- The record has no expiry: that it is still there means that it is live.
  | (.ok (some bytes), kv) => (Entry.read bytes, kv)
  | (.ok none, kv) => (none, kv)
  | (.error _, kv) => (none, kv)

/-- Writes an entry that has time left. -/
def set (s : KeySpace) (now : Instant) (k : String) (e : Entry) (kv : κ) : κ :=
  match e.remaining? now with
  | none => kv
  | some left => (KeyValueStore.setFor (s.key k) e.write left.secondsToHold kv).2

/-- Removes a key. -/
def purge (s : KeySpace) (k : String) (kv : κ) : Bool × κ :=
  match KeyValueStore.delete [s.key k] kv with
  | (.ok n, kv) => (0 < n, kv)
  | (.error _, kv) => (false, kv)

/-! ## Sweeping -/

/-- Removes keys; how many went, none if the call failed. -/
def discard (keys : List String) (kv : κ) : Nat × κ :=
  match KeyValueStore.delete keys kv with
  | (.ok n, kv) => (n, kv)
  | (.error _, kv) => (0, kv)

/-- One scan of a sweep, from a cursor on and with the number of keys that went so far:
    the keys of the page are removed, and the sweep goes on behind the page, or ends
    with a result. It ends when the page names no further cursor or the scan fails. -/
def sweepPage (pattern : String) (count : Nat) :
    Nat × Nat × κ → (Nat × Nat × κ) ⊕ (Nat × κ)
  | (cursor, removed, kv) =>
      match KeyValueStore.scan cursor pattern count kv with
      | (.error _, kv) => .inr (removed, kv)
      | (.ok page, kv) =>
          -- A page is removed before the next one is asked for; if that fails,
          -- the sweep goes on.
          let (gone, kv) := discard page.keys kv
          if page.next = 0 then .inr (removed + gone, kv)
          else .inl (page.next, removed + gone, kv)

/-- Scans from a cursor on, page by page, until the sweep ends. How many keys went is
    added to `removed`. A store whose scans never end keeps a sweep busy forever. -/
def sweep (pattern : String) (count cursor removed : Nat) (kv : κ) : Nat × κ :=
  have : Nonempty κ := ⟨kv⟩
  repeatM (m := Id) (sweepPage pattern count) (cursor, removed, kv)

theorem sweep_eq (pattern : String) (count cursor removed : Nat) (kv : κ) :
    sweep pattern count cursor removed kv =
      match sweepPage pattern count (cursor, removed, kv) with
      | .inl (cursor, removed, kv) => sweep pattern count cursor removed kv
      | .inr result => result := by
  have : Nonempty κ := ⟨kv⟩
  rw [sweep, repeatM_eq_of_monadTail, repeatM.body]
  rcases sweepPage pattern count (cursor, removed, kv) with ⟨cursor, removed, kv⟩ | result
  · rfl
  · rfl

/-- Removes all keys that start with a text. -/
def purgePrefix (s : KeySpace) (k : String) (kv : κ) : Nat × κ :=
  sweep (s.pattern k) s.scanCount 0 0 kv

end KeySpace

/-! ## The store -/

/-- A key-value store and the part of it that holds entries. -/
structure NetworkedStore (κ : Type) where
  space : KeySpace
  kv : κ

instance {κ : Type} [KeyValueStore κ] : ResponseStore (NetworkedStore κ) where
  name := "networked"
  get _ key s := let (e, kv) := s.space.get key s.kv; (e, { s with kv })
  set now key e s := { s with kv := s.space.set now key e s.kv }
  purge key s := let (any, kv) := s.space.purge key s.kv; (any, { s with kv })
  purgePrefix start s := let (n, kv) := s.space.purgePrefix start s.kv; (n, { s with kv })

end GatewayCache
