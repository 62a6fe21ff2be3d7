/-
  GatewayCache.Proofs.KeyValue.Exact

  Key-value stores whose calls are exact.

  A view says what a store can be seen as: what it holds, and the keys that its scans
  take down. Under an exact view no call fails, each does to the holdings just what
  it says, and a scan pages through the keys that were there when it started
  (`View.Exact`). In which order a scan takes the keys down is left open. A table is
  exact (`Table.exact`).

  What the calls on given keys do is a law of its own (`Answers`), for stores whose
  scans go another way.
-/

import GatewayCache.KeyValue.Table
import GatewayCache.Proofs.Dict.Parts

namespace GatewayCache

namespace KeyValueStore

/-! ## Views -/

/-- What a key-value store can be seen as. -/
structure View (κ : Type) where
  holdings : κ → Dict Holding
  /-- The keys that a scan takes down if it starts now. -/
  snapshot : κ → List String
  /-- The keys that the latest scan took down. -/
  listing : κ → List String

/-- The listing that a page is cut from. A scan that starts takes the keys down
    anew. -/
def View.listed {κ : Type} (v : View κ) (cursor : Nat) (kv : κ) : List String :=
  if cursor = 0 then v.snapshot kv else v.listing kv

/-- A page: the keys in a stretch of the listing that are still held and start with
    the literal text of the pattern. -/
def pageOf (held : Dict Holding) (listing : List String) (cursor : Nat) (pattern : String)
    (count : Nat) : ScanPage where
  next := if listing.length ≤ cursor + count then 0 else cursor + count
  keys := ((listing.take (cursor + count)).drop cursor).filter fun k =>
    held.contains k && (Text.Glob.literalStart pattern.toList).isPrefixOf k.toList

/-- Under the view, calls never fail and are exact. -/
structure View.Exact {κ : Type} [KeyValueStore κ] (v : View κ) : Prop where
  get : ∀ key (kv : κ),
    (KeyValueStore.get key kv).1 = .ok (((v.holdings kv).get? key).map (·.value))
  holdings_get : ∀ key (kv : κ), v.holdings (KeyValueStore.get key kv).2 = v.holdings kv
  setFor : ∀ key value seconds (kv : κ), (KeyValueStore.setFor key value seconds kv).1 = .ok ()
  holdings_setFor : ∀ key value seconds (kv : κ),
    v.holdings (KeyValueStore.setFor key value seconds kv).2 =
      (v.holdings kv).insert key ⟨value, seconds⟩
  /-- A deletion counts the keys that were there. -/
  delete : ∀ keys (kv : κ),
    (KeyValueStore.delete keys kv).1 =
      .ok ((v.holdings kv).filter fun k _ => keys.contains k).size
  holdings_delete : ∀ keys (kv : κ),
    v.holdings (KeyValueStore.delete keys kv).2 =
      (v.holdings kv).filter fun k _ => !keys.contains k
  listing_delete : ∀ keys (kv : κ), v.listing (KeyValueStore.delete keys kv).2 = v.listing kv
  scan : ∀ cursor pattern count (kv : κ),
    (KeyValueStore.scan cursor pattern count kv).1 =
      .ok (pageOf (v.holdings kv) (v.listed cursor kv) cursor pattern count)
  holdings_scan : ∀ cursor pattern count (kv : κ),
    v.holdings (KeyValueStore.scan cursor pattern count kv).2 = v.holdings kv
  listing_scan : ∀ cursor pattern count (kv : κ),
    v.listing (KeyValueStore.scan cursor pattern count kv).2 = v.listed cursor kv
  /-- A scan takes down each key that is there once, in some order. -/
  snapshot_perm : ∀ kv, (v.snapshot kv).Perm (v.holdings kv).keys

/-- Calls on given keys never fail, and do to the holdings just what they say. -/
structure Answers {κ : Type} [KeyValueStore κ] (holdings : κ → Dict Holding) : Prop where
  get : ∀ key (kv : κ),
    (KeyValueStore.get key kv).1 = .ok (((holdings kv).get? key).map (·.value))
  holdings_get : ∀ key (kv : κ), holdings (KeyValueStore.get key kv).2 = holdings kv
  setFor : ∀ key value seconds (kv : κ), (KeyValueStore.setFor key value seconds kv).1 = .ok ()
  holdings_setFor : ∀ key value seconds (kv : κ),
    holdings (KeyValueStore.setFor key value seconds kv).2 =
      (holdings kv).insert key ⟨value, seconds⟩
  /-- A deletion counts the keys that were there. -/
  delete : ∀ keys (kv : κ),
    (KeyValueStore.delete keys kv).1 =
      .ok ((holdings kv).filter fun k _ => keys.contains k).size
  holdings_delete : ∀ keys (kv : κ),
    holdings (KeyValueStore.delete keys kv).2 =
      (holdings kv).filter fun k _ => !keys.contains k

theorem View.Exact.answers {κ : Type} [KeyValueStore κ] {v : View κ} (exact : v.Exact) :
    Answers v.holdings where
  get := exact.get
  holdings_get := exact.holdings_get
  setFor := exact.setFor
  holdings_setFor := exact.holdings_setFor
  delete := exact.delete
  holdings_delete := exact.holdings_delete

end KeyValueStore

/-! ## Tables -/

namespace Table

/-- Removing one key takes its holding away, if there is one. -/
theorem discard_key (n : Nat) (t : Table) (key : String) :
    (if t.holdings.contains key then (n + 1, { t with holdings := t.holdings.erase key })
      else (n, t)) =
      (n + (t.holdings.filter fun k _ => k == key).size,
        { t with holdings := t.holdings.erase key }) := by
  rw [Dict.size_filter_key]
  by_cases h : t.holdings.contains key = true
  · rw [if_pos h, if_pos h]
  · have herase : t.holdings.erase key = t.holdings := by
      rw [Dict.erase, ← Dict.filter_true t.holdings, Dict.filter_filter]
      apply Dict.filter_congr
      intro k v hkv
      have hne : k ≠ key := by
        rintro rfl
        exact h (Option.isSome_iff_exists.2 ⟨v, hkv⟩)
      simpa using hne
    rw [if_neg h, if_neg h, herase]
    rfl

/-- The holdings under some keys: those under the first one, and those under the
    others. -/
theorem size_filter_cons (m : Dict Holding) (key : String) (keys : List String) :
    (m.filter fun k _ => (key :: keys).contains k).size =
      (m.filter fun k _ => k == key).size +
        ((m.erase key).filter fun k _ => keys.contains k).size := by
  rw [← Dict.size_filter_add (m.filter fun k _ => (key :: keys).contains k) fun k _ => k == key,
    Dict.filter_filter, Dict.filter_filter, Dict.erase, Dict.filter_filter]
  congr 2
  · apply Dict.filter_congr
    intro k v _
    by_cases hk : k = key <;> simp [hk]
  · apply Dict.filter_congr
    intro k v _
    rw [List.contains_cons]
    cases hk : k == key <;> simp [bne, hk]

theorem foldl_discard (keys : List String) (n : Nat) (t : Table) :
    keys.foldl
        (fun (n, t) k =>
          if t.holdings.contains k then (n + 1, { t with holdings := t.holdings.erase k })
          else (n, t))
        (n, t) =
      (n + (t.holdings.filter fun k _ => keys.contains k).size,
        { t with holdings := t.holdings.filter fun k _ => !keys.contains k }) := by
  induction keys generalizing n t with
  | nil =>
      have hnone : (t.holdings.filter fun k _ => ([] : List String).contains k).size = 0 := by
        simp [Dict.size, Dict.filter]
      have hall : (t.holdings.filter fun k _ => !([] : List String).contains k) = t.holdings := by
        simpa using t.holdings.filter_true
      rw [List.foldl_nil, hnone, hall]
      rfl
  | cons key keys ih =>
      have hkept : (t.holdings.filter fun k _ => !(key :: keys).contains k) =
          (t.holdings.erase key).filter fun k _ => !keys.contains k := by
        rw [Dict.erase, Dict.filter_filter]
        apply Dict.filter_congr
        intro k v _
        rw [List.contains_cons, Bool.not_or]
        rfl
      rw [List.foldl_cons]
      dsimp only
      rw [discard_key, ih, size_filter_cons, Nat.add_assoc, hkept]

/-- What a table is seen as. -/
def view : KeyValueStore.View Table where
  holdings := holdings
  snapshot t := t.holdings.keys
  listing := listing

theorem page_eq (t : Table) (cursor : Nat) (pattern : String) (count : Nat) :
    (t.page cursor pattern count).1 =
      KeyValueStore.pageOf t.holdings (view.listed cursor t) cursor pattern count := by
  have htake : ∀ listing : List String,
      listing.take (min (cursor + count) listing.length) = listing.take (cursor + count) := by
    intro listing
    rw [List.take_eq_take_iff]
    omega
  have hnext : ∀ length : Nat,
      (if min (cursor + count) length = length then 0 else min (cursor + count) length) =
        if length ≤ cursor + count then 0 else cursor + count := by
    intro length
    split <;> split <;> omega
  simp only [page, KeyValueStore.pageOf, KeyValueStore.View.listed, view, htake, hnext]
  rfl

theorem exact : view.Exact where
  get _ _ := rfl
  holdings_get _ _ := rfl
  setFor _ _ _ _ := rfl
  holdings_setFor _ _ _ _ := rfl
  delete keys t := by
    show Except.ok (t.deleteAll keys).1 = _
    rw [deleteAll, foldl_discard, Nat.zero_add]
    rfl
  holdings_delete keys t := by
    show (t.deleteAll keys).2.holdings = _
    rw [deleteAll, foldl_discard]
    rfl
  listing_delete keys t := by
    show (t.deleteAll keys).2.listing = _
    rw [deleteAll, foldl_discard]
    rfl
  scan cursor pattern count t := congrArg Except.ok (page_eq t cursor pattern count)
  holdings_scan _ _ _ _ := rfl
  listing_scan _ _ _ _ := rfl
  snapshot_perm _ := .refl _

end Table

end GatewayCache
