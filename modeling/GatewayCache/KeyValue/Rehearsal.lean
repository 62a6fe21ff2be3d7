/-
  GatewayCache.KeyValue.Rehearsal

  A key-value store for rehearsing failures.

  It is a table that notes every call. Kinds of calls can be made to fail, which
  leaves the table as it is, and the pages of scans can be laid down in advance.
-/

import GatewayCache.KeyValue.Table

namespace GatewayCache

/-- A call as it was made. -/
inductive KeyValueCall where
  | get (key : String)
  | setFor (key : String) (value : List UInt8) (seconds : Nat)
  | delete (keys : List String)
  | scan (cursor : Nat) (pattern : String) (count : Nat)
deriving DecidableEq, Repr

/-- The four kinds of calls. -/
inductive CallKind where
  | get
  | set
  | delete
  | scan
deriving DecidableEq, Repr

/-- A table with the kinds of calls that fail, the pages laid down for scans,
    and the calls made so far. -/
structure Rehearsal where
  table : Table := Table.empty
  failing : List CallKind := []
  /-- The pages still to come, `none` for a scan that fails. Without laid down
      pages the table answers. -/
  pages : Option (List (Option ScanPage)) := none
  calls : List KeyValueCall := []

namespace Rehearsal

/-- What a call that is made to fail answers. -/
def refusal : Fault := .backend "rehearsed failure" {}

/-- The store with one more call noted. -/
def note (r : Rehearsal) (c : KeyValueCall) : Rehearsal := { r with calls := r.calls ++ [c] }

/-- The answer of a laid down page, or of the table. When all pages are used
    up, the scan is over. -/
def nextPage (r : Rehearsal) (cursor : Nat) (pattern : String) (count : Nat) :
    Except Fault ScanPage × Rehearsal :=
  match r.pages with
  | none => let (p, t) := r.table.page cursor pattern count; (.ok p, { r with table := t })
  | some [] => (.ok ⟨0, []⟩, r)
  | some (none :: rest) => (.error refusal, { r with pages := some rest })
  | some (some p :: rest) => (.ok p, { r with pages := some rest })

instance : KeyValueStore Rehearsal where
  get key r :=
    let r := r.note (.get key)
    if r.failing.contains .get then (.error refusal, r)
    else (.ok ((r.table.holdings.get? key).map (·.value)), r)
  setFor key value seconds r :=
    let r := r.note (.setFor key value seconds)
    if r.failing.contains .set then (.error refusal, r)
    else (.ok (), { r with table := r.table.put key ⟨value, seconds⟩ })
  delete keys r :=
    let r := r.note (.delete keys)
    if r.failing.contains .delete then (.error refusal, r)
    else let (n, t) := r.table.deleteAll keys; (.ok n, { r with table := t })
  scan cursor pattern count r :=
    let r := r.note (.scan cursor pattern count)
    if r.failing.contains .scan then (.error refusal, r)
    else r.nextPage cursor pattern count

end Rehearsal

end GatewayCache
