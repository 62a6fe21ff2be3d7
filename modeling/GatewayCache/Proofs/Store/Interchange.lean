/-
  GatewayCache.Proofs.Store.Interchange

  A store on top of an exact key-value store answers like one inside the process.

  The networked store mirrors the one inside the process: under the full keys of its
  part there are the records of the entries, and nothing else (`KeySpace.Holds`).
  Other parts of the key-value store may hold anything. Each operation answers alike
  on both and keeps that up (`Mirrors.step`), as long as no entry that is held has
  expired, since only the store inside the process looks at the clock when it reads.
  While the clock reaches no expiry of a written entry the two cannot be told apart,
  but for the expiry, which a record does not keep (`answers_like_memory`).
-/

import GatewayCache.Proofs.Store.Ending
import GatewayCache.Proofs.Store.ReadBack
import GatewayCache.Proofs.Store.Standing

namespace GatewayCache

open KeyValueStore (View)

/-- The entry as its record keeps it. -/
def Entry.withoutExpiry (e : Entry) : Entry := { e with expiresAt := none }

namespace ResponseStore

/-- A reply that does not say when its entry expires. -/
def Reply.withoutExpiry : Reply → Reply
  | .entry found => .entry (found.map Entry.withoutExpiry)
  | .written => .written
  | .removed any => .removed any
  | .count n => .count n

/-- The entry that an operation writes, if it has time left. -/
def Op.written? (now : Instant) : Op → Option Entry
  | .set _ e => if e.isLive now then some e else none
  | _ => none

/-- During the operations the clock does not reach the expiry of an entry that was
    written before. -/
def NoneExpires (ops : List (Instant × Op)) : Prop :=
  ops.Pairwise fun a b => ∀ e ∈ a.2.written? a.1, e.isLive b.1 = true

instance (ops : List (Instant × Op)) : Decidable (NoneExpires ops) :=
  inferInstanceAs (Decidable (List.Pairwise _ ops))

end ResponseStore

namespace KeySpace

/-! ## Full keys -/

theorem key_inj (space : KeySpace) {k k' : String} : space.key k = space.key k' ↔ k = k' :=
  String.append_right_inj space.start

theorem isPrefixOf_key (space : KeySpace) (start k : String) :
    (space.key start).toList.isPrefixOf (space.key k).toList =
      start.toList.isPrefixOf k.toList := by
  rw [Bool.eq_iff_iff, List.isPrefixOf_iff_prefix, List.isPrefixOf_iff_prefix, key, key,
    String.toList_append, String.toList_append, List.prefix_append_right_inj]

/-- What starts with a full key is a full key. -/
theorem eq_key_of_isPrefixOf {space : KeySpace} {start full : String}
    (h : (space.key start).toList.isPrefixOf full.toList = true) : ∃ k, full = space.key k := by
  obtain ⟨rest, hrest⟩ := List.isPrefixOf_iff_prefix.1 h
  refine ⟨start ++ String.ofList rest, String.toList_inj.1 ?_⟩
  rw [← hrest]
  simp [key]

/-! ## Single keys -/

variable {κ : Type} [KeyValueStore κ] {holdings : κ → Dict Holding}

theorem get_eq (answers : KeyValueStore.Answers holdings) (space : KeySpace) (k : String) (kv : κ) :
    (space.get k kv).1 =
        (((holdings kv).get? (space.key k)).map (·.value)).bind Entry.read ∧
      holdings (space.get k kv).2 = holdings kv := by
  have hget : KeyValueStore.get (space.key k) kv =
      (.ok (((holdings kv).get? (space.key k)).map (·.value)),
        (KeyValueStore.get (space.key k) kv).2) :=
    Prod.ext (answers.get (space.key k) kv) rfl
  rw [get_eq_of_answer hget]
  exact ⟨rfl, answers.holdings_get (space.key k) kv⟩

theorem holdings_set (answers : KeyValueStore.Answers holdings) (space : KeySpace) (now : Instant)
    (k : String) (e : Entry) (kv : κ) :
    holdings (space.set now k e kv) =
      match e.remaining? now with
      | none => holdings kv
      | some left => (holdings kv).insert (space.key k) ⟨e.write, left.secondsToHold⟩ := by
  cases hleft : e.remaining? now with
  | none => rw [set, hleft]
  | some left => rw [set_of_remaining hleft, answers.holdings_setFor]

theorem purge_eq (answers : KeyValueStore.Answers holdings) (space : KeySpace) (k : String)
    (kv : κ) :
    (space.purge k kv).1 = (holdings kv).contains (space.key k) ∧
      holdings (space.purge k kv).2 = (holdings kv).erase (space.key k) := by
  have hone : ∀ full, [space.key k].contains full = (full == space.key k) := by
    intro full
    rw [List.contains_cons, List.contains_nil, Bool.or_false]
  have hdelete : KeyValueStore.delete [space.key k] kv =
      (.ok ((holdings kv).filter fun full _ => full == space.key k).size,
        (KeyValueStore.delete [space.key k] kv).2) :=
    Prod.ext (by simpa only [hone] using answers.delete [space.key k] kv) rfl
  rw [purge, hdelete]
  constructor
  · rw [Dict.size_filter_key]
    cases (holdings kv).contains (space.key k) <;> rfl
  · show holdings (KeyValueStore.delete [space.key k] kv).2 = _
    rw [answers.holdings_delete]
    simp only [hone]
    rfl

/-! ## Records of entries -/

/-- The holdings under the full keys of the part are the records of the entries. -/
def Holds (space : KeySpace) (entries : Dict Entry) (holdings : Dict Holding) : Prop :=
  ∀ k, (holdings.get? (space.key k)).map (·.value) = (entries.get? k).map Entry.write

namespace Holds

variable {space : KeySpace} {entries : Dict Entry} {holdings : Dict Holding}

theorem of_vacant (h : ∀ k, holdings.contains (space.key k) = false) :
    space.Holds Dict.empty holdings := by
  intro k
  have hnone : holdings.get? (space.key k) = none :=
    Option.isNone_iff_eq_none.1 (Option.isSome_eq_false_iff.1 (h k))
  rw [hnone, Dict.get?_empty]
  rfl

/-- Reading a record gives its entry but for the expiry. -/
theorem read_key (h : space.Holds entries holdings) (k : String) :
    ((holdings.get? (space.key k)).map (·.value)).bind Entry.read =
      (entries.get? k).map Entry.withoutExpiry := by
  rw [h k]
  cases entries.get? k with
  | none => rfl
  | some e =>
      rw [Option.map_some, Option.bind_some, Entry.read_write]
      rfl

theorem contains_key (h : space.Holds entries holdings) (k : String) :
    holdings.contains (space.key k) = entries.contains k := by
  have hsome := congrArg Option.isSome (h k)
  rwa [Option.isSome_map, Option.isSome_map] at hsome

theorem insert (h : space.Holds entries holdings) (k : String) (e : Entry) (seconds : Nat) :
    space.Holds (entries.insert k e) (holdings.insert (space.key k) ⟨e.write, seconds⟩) := by
  intro k'
  rw [Dict.get?_insert, Dict.get?_insert]
  by_cases hk : k' = k
  · rw [if_pos hk, if_pos (space.key_inj.2 hk)]
    rfl
  · rw [if_neg hk, if_neg (mt space.key_inj.1 hk)]
    exact h k'

/-- Cutting out the same keys on both sides keeps the rest. -/
theorem filter (h : space.Holds entries holdings) {p q : String → Bool}
    (hpq : ∀ k, q (space.key k) = p k) :
    space.Holds (entries.filter fun k _ => p k) (holdings.filter fun full _ => q full) := by
  intro k
  rw [Dict.get?_filter_key, Dict.get?_filter_key, hpq]
  cases p k with
  | false => rfl
  | true => exact h k

/-- As many keys are held as there are entries, if all of them are in the part. -/
theorem size_eq (h : space.Holds entries holdings)
    (inside : ∀ full, holdings.contains full = true → ∃ k, full = space.key k) :
    holdings.size = entries.size := by
  have hnodup : (entries.keys.map space.key).Nodup :=
    List.pairwise_map.2 (entries.nodup_keys.imp (mt space.key_inj.1))
  have hkeys : holdings.keys.Perm (entries.keys.map space.key) := by
    rw [List.perm_ext_iff_of_nodup holdings.nodup_keys hnodup]
    intro full
    rw [Dict.mem_keys_iff, List.mem_map]
    constructor
    · intro hfull
      obtain ⟨k, rfl⟩ := inside full hfull
      exact ⟨k, Dict.mem_keys_iff.2 ((h.contains_key k).symm.trans hfull), rfl⟩
    · rintro ⟨k, hk, rfl⟩
      exact (h.contains_key k).trans (Dict.mem_keys_iff.1 hk)
  simpa [Dict.keys, Dict.size] using hkeys.length_eq

/-- As many keys start with the full key of a text as keys of entries start with the
    text. -/
theorem size_prefixed (h : space.Holds entries holdings) (start : String) :
    (holdings.filter fun full _ => (space.key start).toList.isPrefixOf full.toList).size =
      (entries.filter fun k _ => start.toList.isPrefixOf k.toList).size := by
  apply (h.filter (space.isPrefixOf_key start)).size_eq
  -- What starts with a full key is in the part, whatever other parts hold.
  intro full hfull
  rw [Dict.contains_filter, Bool.and_eq_true] at hfull
  exact eq_key_of_isPrefixOf hfull.1

end Holds

end KeySpace

/-! ## Stores that mirror each other -/

namespace MemoryStore

/-- As long as nothing has expired, reading is looking up. -/
theorem get_eq_get? {s : MemoryStore} {now : Instant} {key : String}
    (live : ∀ e, s.entries.get? key = some e → e.isLive now = true) :
    MemoryStore.get now key s = (s.entries.get? key, s) := by
  cases hget : s.entries.get? key with
  | none => rw [MemoryStore.get, hget]
  | some e => simp only [MemoryStore.get, hget, live e hget, if_true]

theorem set_unbounded {s : MemoryStore} (unbounded : s.bound = none) (now : Instant) (key : String)
    (e : Entry) :
    set now key e s = if e.isLive now then { s with entries := s.entries.insert key e } else s := by
  simp only [set, unbounded]

end MemoryStore

namespace NetworkedStore

open ResponseStore

/-- Under the view, the networked store holds the records of what the store inside
    the process holds. -/
structure Mirrors {κ : Type} (v : View κ) (there : NetworkedStore κ) (here : MemoryStore) :
    Prop where
  unbounded : here.bound = none
  scans : 0 < there.space.scanCount
  holds : there.space.Holds here.entries (v.holdings there.kv)

variable {κ : Type} [KeyValueStore κ] {v : View κ} {there : NetworkedStore κ} {here : MemoryStore}

theorem Mirrors.get (exact : v.Exact) (mirrors : Mirrors v there here) {now : Instant}
    {key : String} (live : ∀ e, here.entries.get? key = some e → e.isLive now = true) :
    (step now (.get key) there).1 = (step now (.get key) here).1.withoutExpiry ∧
      Mirrors v (step now (.get key) there).2 (step now (.get key) here).2 := by
  obtain ⟨hread, hkept⟩ := there.space.get_eq exact.answers key there.kv
  have hhere : ResponseStore.get now key here = (here.entries.get? key, here) :=
    MemoryStore.get_eq_get? live
  simp only [step, hhere]
  refine ⟨congrArg Reply.entry ?_, mirrors.unbounded, mirrors.scans, ?_⟩
  · exact hread.trans (mirrors.holds.read_key key)
  · show there.space.Holds here.entries (v.holdings (there.space.get key there.kv).2)
    rw [hkept]
    exact mirrors.holds

theorem Mirrors.set (exact : v.Exact) (mirrors : Mirrors v there here) (now : Instant)
    (key : String) (e : Entry) :
    (step now (.set key e) there).1 = (step now (.set key e) here).1.withoutExpiry ∧
      Mirrors v (step now (.set key e) there).2 (step now (.set key e) here).2 := by
  have hthere := there.space.holdings_set exact.answers now key e there.kv
  have hhere : ResponseStore.set now key e here = _ :=
    MemoryStore.set_unbounded mirrors.unbounded now key e
  refine ⟨rfl, ?_⟩
  show Mirrors v { there with kv := there.space.set now key e there.kv }
    (ResponseStore.set now key e here)
  rw [hhere, Entry.isLive]
  cases hleft : e.remaining? now with
  | none =>
      -- Neither store keeps what has no time left.
      rw [hleft] at hthere
      refine ⟨mirrors.unbounded, mirrors.scans, ?_⟩
      rw [hthere]
      exact mirrors.holds
  | some left =>
      rw [hleft] at hthere
      refine ⟨mirrors.unbounded, mirrors.scans, ?_⟩
      rw [hthere]
      exact mirrors.holds.insert key e left.secondsToHold

theorem Mirrors.purge (exact : v.Exact) (mirrors : Mirrors v there here) (now : Instant)
    (key : String) :
    (step now (.purge key) there).1 = (step now (.purge key) here).1.withoutExpiry ∧
      Mirrors v (step now (.purge key) there).2 (step now (.purge key) here).2 := by
  obtain ⟨hany, hkept⟩ := there.space.purge_eq exact.answers key there.kv
  refine ⟨congrArg Reply.removed ?_, mirrors.unbounded, mirrors.scans, ?_⟩
  · exact hany.trans (mirrors.holds.contains_key key)
  · have hkey : ∀ k, (there.space.key k != there.space.key key) = (k != key) := by
      intro k
      rw [Bool.eq_iff_iff, bne_iff_ne, bne_iff_ne, ne_eq, there.space.key_inj]
    show there.space.Holds (here.entries.erase key) (v.holdings (there.space.purge key there.kv).2)
    rw [hkept]
    exact mirrors.holds.filter hkey

theorem Mirrors.purgePrefix (exact : v.Exact) (mirrors : Mirrors v there here) (now : Instant)
    (start : String) :
    (step now (.purgePrefix start) there).1 = (step now (.purgePrefix start) here).1.withoutExpiry ∧
      Mirrors v (step now (.purgePrefix start) there).2 (step now (.purgePrefix start) here).2 := by
  have purged := KeySpace.purgePrefix_exact exact mirrors.scans start there.kv
  refine ⟨congrArg Reply.count ?_, mirrors.unbounded, mirrors.scans, ?_⟩
  · -- Inside the process what goes is counted as what is left subtracted from what was there.
    have hsame := mirrors.holds.size_prefixed start
    have hhere := Dict.size_filter_add here.entries fun k _ => start.toList.isPrefixOf k.toList
    show (there.space.purgePrefix start there.kv).1 = here.entries.size -
      (here.entries.filter fun k _ => !start.toList.isPrefixOf k.toList).size
    rw [purged.removed_eq]
    omega
  · show there.space.Holds (here.entries.filter fun k _ => !start.toList.isPrefixOf k.toList)
      (v.holdings (there.space.purgePrefix start there.kv).2)
    rw [purged.kept]
    exact mirrors.holds.filter fun k => congrArg (!·) (there.space.isPrefixOf_key start k)

/-- An operation answers alike on both stores, if nothing that is held has expired,
    and they keep mirroring each other. -/
theorem Mirrors.step (exact : v.Exact) (mirrors : Mirrors v there here) {now : Instant} (op : Op)
    (live : ∀ k e, here.entries.get? k = some e → e.isLive now = true) :
    (ResponseStore.step now op there).1 = (ResponseStore.step now op here).1.withoutExpiry ∧
      Mirrors v (ResponseStore.step now op there).2 (ResponseStore.step now op here).2 := by
  cases op with
  | get key => exact mirrors.get exact (live key)
  | set key e => exact mirrors.set exact now key e
  | purge key => exact mirrors.purge exact now key
  | purgePrefix start => exact mirrors.purgePrefix exact now start

/-! ## Runs -/

/-- Operations answer alike on stores that mirror each other, if the clock reaches
    neither the expiry of what is held nor of what is written. -/
theorem Mirrors.run (exact : v.Exact) (mirrors : Mirrors v there here)
    {ops : List (Instant × Op)} (fresh : NoneExpires ops)
    (live : ∀ k e, here.entries.get? k = some e → ∀ c ∈ ops, e.isLive c.1 = true) :
    (ResponseStore.run ops there).1 = (ResponseStore.run ops here).1.map Reply.withoutExpiry := by
  induction ops generalizing there here with
  | nil => rfl
  | cons c ops ih =>
      obtain ⟨now, op⟩ := c
      obtain ⟨hlater, hfresh⟩ := List.pairwise_cons.1 fresh
      obtain ⟨hreply, hmirrors⟩ :=
        mirrors.step exact op fun k e held => live k e held (now, op) List.mem_cons_self
      have hlive : ∀ k e, (ResponseStore.step now op here).2.entries.get? k = some e →
          ∀ c ∈ ops, e.isLive c.1 = true := by
        -- What is held now was written by this operation or held before it.
        intro k e held c hc
        rcases MemoryStore.get?_step held with ⟨hop, written⟩ | ⟨before, -⟩
        · exact hlater c hc e (hop ▸ if_pos written)
        · exact live k e before c (List.mem_cons_of_mem _ hc)
      have hrest := ih hmirrors hfresh hlive
      show (ResponseStore.step now op there).1 :: _ = Reply.withoutExpiry _ :: _
      exact congrArg₂ List.cons hreply hrest

/-- A store on top of an exact key-value store, with any start of its keys and any
    number of keys to a scan, and a store without a bound inside the process answer
    all operations alike, but for the expiry of what they read: if no key of its part
    is there when they start and the clock does not reach the expiry of an entry that
    was written. -/
theorem answers_like_memory (exact : v.Exact) (space : KeySpace) (n : Nat) (kv : κ)
    (vacant : ∀ k, (v.holdings kv).contains (space.key k) = false) {ops : List (Instant × Op)}
    (fresh : NoneExpires ops) :
    (ResponseStore.run ops (⟨space.scanning n, kv⟩ : NetworkedStore κ)).1 =
      (ResponseStore.run ops MemoryStore.unbounded).1.map Reply.withoutExpiry := by
  have mirrors : Mirrors v ⟨space.scanning n, kv⟩ MemoryStore.unbounded :=
    ⟨rfl, Nat.lt_of_lt_of_le Nat.one_pos (Nat.le_max_right n 1), .of_vacant vacant⟩
  exact mirrors.run exact fresh fun _ _ held => nomatch held

/-- Two keys under one start and one beside it, read and removed while they have time
    left. -/
def shortVisit : List (Instant × Op) :=
  [(⟨1⟩, .set "a/1" ⟨200, .empty, [1], "", some ⟨9⟩⟩),
    (⟨1⟩, .set "a/2" ⟨200, .empty, [2], "", some ⟨9⟩⟩),
    (⟨2⟩, .set "b" ⟨200, .empty, [3], "", some ⟨9⟩⟩), (⟨3⟩, .get "a/1"),
    (⟨4⟩, .purgePrefix "a/"), (⟨5⟩, .get "a/1"), (⟨6⟩, .purge "b"), (⟨7⟩, .purge "b")]

/-- The full keys start with a text that has a meaning in patterns, and scans take one
    key at a time. -/
theorem answers_like_memory_short_visit :
    NoneExpires shortVisit ∧
      (ResponseStore.run shortVisit
        (⟨KeySpace.scanning { start := "t*" } 1, Table.empty⟩ : NetworkedStore Table)).1 =
        [.written, .written, .written, .entry (some ⟨200, .empty, [1], "", none⟩), .count 2,
          .entry none, .removed true, .removed false] := by
  have fresh : NoneExpires shortVisit := by decide
  have alike := answers_like_memory Table.exact { start := "t*" } 1 .empty (fun _ => rfl) fresh
  have hmemory : (ResponseStore.run shortVisit MemoryStore.unbounded).1.map Reply.withoutExpiry =
      [.written, .written, .written, .entry (some ⟨200, .empty, [1], "", none⟩), .count 2,
        .entry none, .removed true, .removed false] := by
    decide
  exact ⟨fresh, alike.trans hmemory⟩

end NetworkedStore

end GatewayCache
