/-
  GatewayCache.KeyValue.Table

  A key-value store inside the process that never fails.

  It keeps what it is given for good; the seconds are only noted. A scan takes
  down all keys when it starts, and each page covers a stretch of that list.
-/

import GatewayCache.Dict
import GatewayCache.KeyValue
import GatewayCache.Text.Glob

namespace GatewayCache

/-- Bytes with the seconds they were stored for. -/
structure Holding where
  value : List UInt8
  seconds : Nat
deriving DecidableEq, Repr

/-- The holdings by key, and the keys taken down by the latest scan. -/
structure Table where
  holdings : Dict Holding
  listing : List String

namespace Table

/-- Nothing stored. -/
def empty : Table := ⟨Dict.empty, []⟩

instance : Inhabited Table := ⟨empty⟩

/-- Puts a holding under a key. -/
def put (t : Table) (key : String) (h : Holding) : Table :=
  { t with holdings := t.holdings.insert key h }

/-- Removes keys one after the other and counts those that were there. -/
def deleteAll (t : Table) (keys : List String) : Nat × Table :=
  keys.foldl
    (fun (n, t) k =>
      if t.holdings.contains k then (n + 1, { t with holdings := t.holdings.erase k }) else (n, t))
    (0, t)

/-- A page: the keys in a stretch of the listing that are still there and start
    with the pattern's literal text. -/
def page (t : Table) (cursor : Nat) (pattern : String) (count : Nat) : ScanPage × Table :=
  -- A scan that starts anew takes all keys down.
  let listing := if cursor = 0 then t.holdings.keys else t.listing
  let stop := min (cursor + count) listing.length
  let start := Text.Glob.literalStart pattern.toList
  let keys := ((listing.take stop).drop cursor).filter fun k =>
    t.holdings.contains k && start.isPrefixOf k.toList
  (⟨if stop = listing.length then 0 else stop, keys⟩, { t with listing })

instance : KeyValueStore Table where
  get key t := (.ok ((t.holdings.get? key).map (·.value)), t)
  setFor key value seconds t := (.ok (), t.put key ⟨value, seconds⟩)
  delete keys t := let (n, t) := t.deleteAll keys; (.ok n, t)
  scan cursor pattern count t := let (p, t) := t.page cursor pattern count; (.ok p, t)

end Table

end GatewayCache
