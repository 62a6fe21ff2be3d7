/-
  GatewayCache.Proofs.Store.Lingering

  Expired entries that linger in a store inside the process are never noticed.

  An entry that has expired stays until it is read, purged or in the way of a new key,
  so a read may change what a store holds, how many entries there are, and whether the
  next write finds room. All that counts is what has time left: in stores that differ in
  expired entries only a read finds the same, and they still differ in nothing else
  after any operation (`step_alike`). The clock does not go back, so what has expired
  never counts again, and reads put into a run change none of its own
  (`reads_with_added_reads`).
-/

import GatewayCache.Proofs.Store.Eviction

namespace GatewayCache

namespace ResponseStore

/-! ## Reads put into a run -/

/-- An operation of a run, or a read put into it. -/
inductive Call where
  | own (op : Op)
  | added (key : String)
deriving DecidableEq, Repr

def Call.op : Call → Op
  | .own op => op
  | .added key => .get key

/-- The run with the reads put in. -/
def withAdded (calls : List (Instant × Call)) : List (Instant × Op) :=
  calls.map fun c => (c.1, c.2.op)

/-- The run's own operations. -/
def ownOps : List (Instant × Call) → List (Instant × Op)
  | [] => []
  | (now, .own op) :: calls => (now, op) :: ownOps calls
  | (_, .added _) :: calls => ownOps calls

/-- The replies to the run's own operations. -/
def ownReplies : List (Instant × Call) → List Reply → List Reply
  | (_, .own _) :: calls, reply :: replies => reply :: ownReplies calls replies
  | (_, .added _) :: calls, _ :: replies => ownReplies calls replies
  | _, _ => []

/-- What a reply to a read found. -/
def Reply.read? : Reply → Option (Option Entry)
  | .entry found => some found
  | _ => none

/-- What the reads among the operations found, in order. -/
def reads (replies : List Reply) : List (Option Entry) := replies.filterMap Reply.read?

end ResponseStore

namespace MemoryStore

/-! ## What has time left -/

/-- What has time left later is among what had it before. -/
theorem onlyLive_onlyLive (m : Dict Entry) {t u : Instant} (h : t.nanos ≤ u.nanos) :
    onlyLive (onlyLive m t) u = onlyLive m u := by
  rw [onlyLive, onlyLive, Dict.filter_filter]
  refine Dict.filter_congr fun k e _ => ?_
  cases hlive : e.isLive u with
  | false => exact Bool.and_false _
  | true => rw [Entry.isLive_of_le h hlive, Bool.true_and]

theorem onlyLive_filter_key (m : Dict Entry) (p : String → Bool) (now : Instant) :
    onlyLive (m.filter fun k _ => p k) now = (onlyLive m now).filter fun k _ => p k := by
  rw [onlyLive, onlyLive, Dict.filter_filter, Dict.filter_filter]
  exact Dict.filter_congr fun _ _ _ => Bool.and_comm _ _

theorem onlyLive_insert {e : Entry} {now : Instant} (live : e.isLive now = true)
    (m : Dict Entry) (key : String) :
    onlyLive (m.insert key e) now = (onlyLive m now).insert key e := by
  apply Dict.ext_get?
  intro k
  rw [onlyLive, onlyLive, Dict.get?_filter, Dict.get?_insert, Dict.get?_insert, Dict.get?_filter]
  split
  · rw [Option.filter_some, if_pos live]
  · rfl

/-- Making room for a key keeps of what has time left as much as if nothing else were
    there, in a store within its bound. -/
theorem onlyLive_makeRoom {bound : Nat} {m : Dict Entry} (hsize : m.size ≤ bound) (key : String)
    (now : Instant) :
    onlyLive (makeRoom bound m key now) now = makeRoom bound (onlyLive m now) key now := by
  by_cases hroom : (onlyLive m now).size < bound
  · have hall : makeRoom bound (onlyLive m now) key now = onlyLive m now := by
      rw [makeRoom, if_pos (by simp [hroom])]
    have hnone : (onlyLive m now).size + 1 - bound = 0 := by omega
    rw [hall, makeRoom]
    split
    · rfl
    · -- The store is full, but once what has expired is gone there is room.
      simp only [hnone, dropSoonestTimes]
      exact onlyLive_onlyLive m (Nat.le_refl _)
  · -- As many have time left as the bound allows, so all have.
    have hlive : ∀ k old, m.get? k = some old → old.isLive now = true := by
      intro k old held
      rw [← Bool.not_eq_false]
      intro dead
      have hless := size_onlyLive_lt held dead
      omega
    rw [onlyLive_eq_self hlive]
    exact onlyLive_eq_self fun k old held => hlive k old (get?_of_makeRoom held)

/-! ## The store without what has expired -/

/-- The store as it is when all expired entries are gone. -/
def withoutExpired (now : Instant) (s : MemoryStore) : MemoryStore :=
  { s with entries := onlyLive s.entries now }

theorem withoutExpired_later {t u : Instant} (h : t.nanos ≤ u.nanos) (s : MemoryStore) :
    (s.withoutExpired t).withoutExpired u = s.withoutExpired u := by
  rw [withoutExpired, withoutExpired, onlyLive_onlyLive s.entries h, withoutExpired]

/-- A read finds what has time left. -/
theorem get_eq_get?_onlyLive (now : Instant) (key : String) (s : MemoryStore) :
    (MemoryStore.get now key s).1 = (onlyLive s.entries now).get? key := by
  rw [onlyLive, Dict.get?_filter]
  unfold MemoryStore.get
  cases s.entries.get? key with
  | none => rfl
  | some e =>
      rw [Option.filter_some]
      dsimp only
      split <;> rfl

/-- A read drops nothing that has time left. -/
theorem withoutExpired_get (now : Instant) (key : String) (s : MemoryStore) :
    (MemoryStore.get now key s).2.withoutExpired now = s.withoutExpired now := by
  unfold MemoryStore.get
  split
  · rfl
  · next e held =>
      split
      · rfl
      · next expired =>
          have hsame : onlyLive (s.entries.erase key) now = onlyLive s.entries now := by
            rw [onlyLive, Dict.erase, Dict.filter_filter]
            refine Dict.filter_congr fun k other hother => ?_
            by_cases hk : k = key
            · -- What the read drops has no time left, so it is not missed.
              subst hk
              obtain rfl := Option.some.inj (held.symm.trans hother)
              rw [Bool.eq_false_iff.2 expired, Bool.and_false]
            · rw [bne_iff_ne.2 hk, Bool.true_and]
          rw [withoutExpired, withoutExpired, hsame]

theorem withoutExpired_set {s : MemoryStore} (fits : s.Fits) (now : Instant) (key : String)
    (e : Entry) : (set now key e s).withoutExpired now = set now key e (s.withoutExpired now) := by
  obtain ⟨m, bound⟩ := s
  unfold set
  split
  · next live =>
      cases bound with
      | none => simp only [withoutExpired, onlyLive_insert live]
      | some n =>
          have hsize : m.size ≤ n := (fits n rfl).2
          simp only [withoutExpired, onlyLive_insert live, onlyLive_makeRoom hsize]
  · rfl

/-- Removing keys leaves what has time left under the others. -/
theorem withoutExpired_filter_key (now : Instant) (p : String → Bool) (s : MemoryStore) :
    withoutExpired now { s with entries := s.entries.filter fun k _ => p k } =
      { s.withoutExpired now with
        entries := (s.withoutExpired now).entries.filter fun k _ => p k } := by
  rw [withoutExpired, onlyLive_filter_key, withoutExpired]

/-! ## Two runs -/

/-- In stores that differ in expired entries only, a read finds the same, and they do so
    after any operation. -/
theorem step_alike {s s' : MemoryStore} (fits : s.Fits) (fits' : s'.Fits) {now : Instant}
    (alike : s.withoutExpired now = s'.withoutExpired now) (op : ResponseStore.Op) :
    (ResponseStore.step now op s).1.read? = (ResponseStore.step now op s').1.read? ∧
      (ResponseStore.step now op s).2.withoutExpired now =
        (ResponseStore.step now op s').2.withoutExpired now := by
  have hremoved : ∀ p : String → Bool,
      withoutExpired now { s with entries := s.entries.filter fun k _ => p k } =
        withoutExpired now { s' with entries := s'.entries.filter fun k _ => p k } := by
    intro p
    rw [withoutExpired_filter_key, withoutExpired_filter_key, alike]
  cases op with
  | get key =>
      have hfound : (MemoryStore.get now key s).1 = (MemoryStore.get now key s').1 := by
        rw [get_eq_get?_onlyLive, get_eq_get?_onlyLive]
        exact congrArg (fun s => s.entries.get? key) alike
      refine ⟨congrArg some hfound, ?_⟩
      show (MemoryStore.get now key s).2.withoutExpired now =
        (MemoryStore.get now key s').2.withoutExpired now
      rw [withoutExpired_get, withoutExpired_get, alike]
  | set key e =>
      refine ⟨rfl, ?_⟩
      show (set now key e s).withoutExpired now = (set now key e s').withoutExpired now
      rw [withoutExpired_set fits, withoutExpired_set fits', alike]
  | purge key => exact ⟨rfl, hremoved fun k => k != key⟩
  | purgePrefix start => exact ⟨rfl, hremoved fun k => !start.toList.isPrefixOf k.toList⟩

/-- Reads put into a run change none of its own, when it is begun in stores that differ
    in expired entries only. -/
theorem reads_alike {calls : List (Instant × ResponseStore.Call)}
    (ordered : calls.Pairwise fun a b => a.1.nanos ≤ b.1.nanos) {t : Instant}
    (begun : ∀ c ∈ calls, t.nanos ≤ c.1.nanos) {s s' : MemoryStore} (fits : s.Fits)
    (fits' : s'.Fits) (alike : s.withoutExpired t = s'.withoutExpired t) :
    ResponseStore.reads
        (ResponseStore.ownReplies calls (ResponseStore.run (ResponseStore.withAdded calls) s).1) =
      ResponseStore.reads (ResponseStore.run (ResponseStore.ownOps calls) s').1 := by
  induction calls generalizing t s s' with
  | nil => rfl
  | cons c calls ih =>
      obtain ⟨now, call⟩ := c
      obtain ⟨later, rest⟩ := List.pairwise_cons.1 ordered
      -- What had expired at `t` has expired now.
      have hnow : s.withoutExpired now = s'.withoutExpired now := by
        have hle : t.nanos ≤ now.nanos := begun _ List.mem_cons_self
        rw [← withoutExpired_later hle s, alike, withoutExpired_later hle]
      cases call with
      | own op =>
          obtain ⟨hread, hstep⟩ := step_alike fits fits' hnow op
          have hrest := ih rest later (fits_step fits now op) (fits_step fits' now op) hstep
          simp only [ResponseStore.withAdded, List.map_cons, ResponseStore.Call.op,
            ResponseStore.run, runSteps, ResponseStore.ownOps, ResponseStore.ownReplies,
            ResponseStore.reads, List.filterMap_cons, hread] at hrest ⊢
          rw [hrest]
      | added key =>
          -- The read that was put in drops expired entries at most.
          have hget : (ResponseStore.step now (.get key) s).2.withoutExpired now =
              s'.withoutExpired now := (withoutExpired_get now key s).trans hnow
          exact ih rest later (fits_step fits now (.get key)) fits' hget

/-- Reads put anywhere into a run of a store inside the process, bounded or not, change
    nothing in what the run's own reads find, as long as the clock does not go back.
    Of entries that expire at the same time the one under the first key makes room. -/
theorem reads_with_added_reads (bound : Option Nat) (calls : List (Instant × ResponseStore.Call))
    (ordered : calls.Pairwise fun a b => a.1.nanos ≤ b.1.nanos) :
    ResponseStore.reads (ResponseStore.ownReplies calls
        (ResponseStore.run (ResponseStore.withAdded calls) (ofBound bound)).1) =
      ResponseStore.reads (ResponseStore.run (ResponseStore.ownOps calls) (ofBound bound)).1 :=
  reads_alike ordered (t := ⟨0⟩) (fun _ _ => Nat.zero_le _) (fits_ofBound bound)
    (fits_ofBound bound) rfl

/-- Two entries in a store with room for two. A read at the instant when the first one
    expires is put in before the next write. -/
def readBeforeWrite : List (Instant × ResponseStore.Call) :=
  [(⟨1⟩, .own (.set "short" ⟨200, .empty, [1], "", some ⟨5⟩⟩)),
    (⟨2⟩, .own (.set "long" ⟨200, .empty, [2], "", some ⟨9⟩⟩)), (⟨5⟩, .added "short"),
    (⟨5⟩, .own (.set "new" ⟨200, .empty, [3], "", some ⟨7⟩⟩)), (⟨6⟩, .own (.get "long"))]

/-- That read drops the entry which the write has to drop without it, and the entry that
    is left is found either way. -/
theorem reads_with_added_reads_before_write :
    (readBeforeWrite.Pairwise fun a b => a.1.nanos ≤ b.1.nanos) ∧
      (ResponseStore.run (ResponseStore.withAdded (readBeforeWrite.take 3))
        (ofBound (some 2))).2.size = 1 ∧
      (ResponseStore.run (ResponseStore.ownOps (readBeforeWrite.take 3))
        (ofBound (some 2))).2.size = 2 ∧
      ResponseStore.reads (ResponseStore.run (ResponseStore.ownOps readBeforeWrite)
        (ofBound (some 2))).1 = [some ⟨200, .empty, [2], "", some ⟨9⟩⟩] ∧
      ResponseStore.reads (ResponseStore.ownReplies readBeforeWrite
        (ResponseStore.run (ResponseStore.withAdded readBeforeWrite) (ofBound (some 2))).1) =
          [some ⟨200, .empty, [2], "", some ⟨9⟩⟩] := by
  have ordered : readBeforeWrite.Pairwise fun a b => a.1.nanos ≤ b.1.nanos := by decide
  have own : ResponseStore.reads (ResponseStore.run (ResponseStore.ownOps readBeforeWrite)
      (ofBound (some 2))).1 = [some ⟨200, .empty, [2], "", some ⟨9⟩⟩] := by decide
  exact ⟨ordered, by decide, by decide, own,
    (reads_with_added_reads (some 2) readBeforeWrite ordered).trans own⟩

end MemoryStore

end GatewayCache
