/-
  GatewayCache.Proofs.Session.Served

  What a lookup serves after any run of calls.

  All that the store of a session holds was put there by the last call that
  wrote under the key with effect, with no removal since (`writtenLast_of_held`).
  A lookup serves only what is held and has time left, so it serves that write;
  and where a body made the write, the body went through as a whole
  (`served_is_last_write`).
-/

import GatewayCache.Proofs.Http.Target
import GatewayCache.Proofs.Session.Origin

namespace GatewayCache

open GatewayCache.Http

/-- The entry that an outcome serves, or has the client keep its copy of. -/
def Lookup.served? : Lookup → Option Entry
  | .hit e => some e
  | .notModified e => some e
  | .miss _ => none
  | .bypass => none

namespace ResponseCache

variable {σ : Type} [ResponseStore σ]

/-- An entry that answers a request is served if it may be. -/
theorem served?_answer {request : Request} {stored e : Entry}
    (h : (answer request stored).served? = some e) :
    stored = e ∧ Policy.mayServe request e.replay = true := by
  unfold answer at h
  dsimp only at h
  split at h
  · cases h
  · next hmay =>
      have hserve : Policy.mayServe request stored.replay = true := by simpa using hmay
      split at h
      · obtain rfl := Option.some.inj h
        exact ⟨rfl, hserve⟩
      · obtain rfl := Option.some.inj h
        exact ⟨rfl, hserve⟩

/-- A lookup serves what the store gives under the key of the request. -/
theorem served?_lookup {now : Instant} {request : Request} {c : ResponseCache σ} {e : Entry}
    (h : (c.lookup now request).1.served? = some e) :
    (ResponseStore.get now (CacheKey.derive request).hash c.store).1 = some e ∧
      Policy.mayServe request e.replay = true := by
  unfold lookup at h
  split at h
  · cases h
  · dsimp only at h
    cases hget : (ResponseStore.get now (CacheKey.derive request).hash c.store).1 with
    | none =>
        rw [hget] at h
        cases h
    | some stored =>
        rw [hget] at h
        obtain ⟨rfl, hserve⟩ := served?_answer h
        exact ⟨rfl, hserve⟩

end ResponseCache

namespace Session

/-- The session of a cache before the first call, its store inside the process and
    empty. -/
def fresh (bound : Option Nat) (settings : CacheSettings) : Session MemoryStore :=
  start (MemoryStore.ofBound bound) settings

/-! ## The last write under a key -/

/-- The call `op` wrote `e` under the key with time left, and no call after it
    wrote there again with effect or removed the key. -/
structure WrittenLast {σ : Type} [ResponseStore σ] (s₀ : Session σ) (key : String) (e : Entry)
    (before : List (Instant × Op)) (written : Instant) (op : Op) (after : List (Instant × Op)) :
    Prop where
  write : storeOp? written op (run before s₀).2 = some (.set key e)
  effective : e.isLive written = true
  kept : ∀ c ∈ storeOps after ((run before s₀).2.step written op).2, c.2.displaces key c.1 = false

/-- The entry that is held under a key was written there last. -/
theorem writtenLast_of_held {bound : Option Nat} {settings : CacheSettings}
    {ops : List (Instant × Op)} {key : String} {e : Entry}
    (h : (run ops (fresh bound settings)).2.cache.store.entries.get? key = some e) :
    ∃ before written op after, ops = before ++ (written, op) :: after ∧
      WrittenLast (fresh bound settings) key e before written op after := by
  rw [run_store] at h
  obtain ⟨earlier, written, later, hsplit, live, kept⟩ := MemoryStore.standing_of_held h
  obtain ⟨before, op, after, rfl, -, hop, rfl⟩ := exists_call_of_storeOps hsplit
  exact ⟨before, written, op, after, rfl, hop, live, kept⟩

/-- What a lookup serves is held and has time left. -/
theorem held_of_served {s : Session MemoryStore} {now : Instant} {request : Request} {e : Entry}
    (h : (s.cache.lookup now request).1.served? = some e) :
    s.cache.store.entries.get? (CacheKey.derive request).hash = some e ∧ e.isLive now = true :=
  MemoryStore.get_eq_some (ResponseCache.served?_lookup h).1

/-! ## Lookups -/

/-- After any run of calls a lookup serves exactly the last effective write under
    the key of its request, not removed since and not yet expired. A write that
    was not a direct one stored a body whose stream ended by itself without a
    failure: all the bytes that the stream gave, under the status of the plan,
    for the lifetime of the plan from the instant when the body was finished. -/
theorem served_is_last_write (bound : Option Nat) (settings : CacheSettings)
    (ops : List (Instant × Op)) (now : Instant) (request : Request) (e : Entry)
    (h : ((run ops (fresh bound settings)).2.cache.lookup now request).1.served? = some e) :
    ∃ before written op after, ops = before ++ (written, op) :: after ∧
      WrittenLast (fresh bound settings) (CacheKey.derive request).hash e before written op after ∧
      (∃ expiry, e.expiresAt = some expiry ∧ now.nanos < expiry.nanos) ∧
      (op = .store (.set (CacheKey.derive request).hash e) ∨
        ∃ (i : Nat) (o : Origin) (finished : Instant) (n : Nat),
          (op = .poll i .prompt ∨ op = .land i) ∧
          o.Completed (fresh bound settings) (before ++ [(written, op)]) i finished n ∧
          o.plan.key = CacheKey.derive request ∧
          e.body = o.stream.content n ∧ e.status = o.plan.status ∧
          e.expiresAt = some (finished.advance o.plan.ttl)) := by
  obtain ⟨held, live⟩ := held_of_served h
  obtain ⟨before, written, op, after, rfl, last⟩ := writtenLast_of_held held
  refine ⟨before, written, op, after, rfl, last, Entry.isLive_iff.1 live, ?_⟩
  have accounted := accounted_run (MemoryStore.ofBound bound) settings before
  rcases origin_of_write accounted last.write with direct | ⟨i, o, finished, n, hop, hkey, rfl, hc⟩
  · exact .inl direct
  · -- The entry is live, so its expiry did not fall behind the calendar's end.
    obtain ⟨expiry, hexpiry, -⟩ := Entry.isLive_iff.1 live
    have hafter : finished.after? o.plan.ttl = some expiry := hexpiry
    obtain ⟨rfl, -⟩ := Instant.after?_eq_some_iff.1 hafter
    refine .inr ⟨i, o, finished, n, hop, hc, ?_, rfl, rfl, hexpiry⟩
    cases hk : o.plan.key
    cases hd : CacheKey.derive request
    simp_all

/-! ### A visit -/

/-- A request for the root of a server. -/
def rootRequest (fields : Fields) : Request := ⟨.get, .root, fields⟩

/-- Calls that pass a body on under a new plan, in a session that has none yet,
    and then have the scheduler make its write. -/
def visit (request : Request) (response : Response) (stream : BodyStream) : List (Instant × Op) :=
  [(⟨0⟩, .decide request response), (⟨1⟩, .wrap 0 stream)] ++
    List.replicate (stream.answers.length + 1) (⟨2⟩, .poll 0 .deferred) ++ [(⟨3⟩, .land 0)]

theorem served_is_last_write_visit :
    ∃ e, ((run (visit (rootRequest .empty) ⟨200, .empty⟩ ⟨[.chunk [1], .pending, .chunk [2]], 0⟩)
        (fresh (some 1) ⟨true, ⟨60⟩, 2⟩)).2.cache.lookup ⟨61⟩
          (rootRequest .empty)).1.served? = some e ∧
      e.expiresAt = some ⟨62⟩ ∧
      ∃ before written op after, visit (rootRequest .empty) ⟨200, .empty⟩
          ⟨[.chunk [1], .pending, .chunk [2]], 0⟩ = before ++ (written, op) :: after ∧
        WrittenLast (fresh (some 1) ⟨true, ⟨60⟩, 2⟩)
          (CacheKey.derive (rootRequest .empty)).hash e before written op after := by
  have h : ((run (visit (rootRequest .empty) ⟨200, .empty⟩ ⟨[.chunk [1], .pending, .chunk [2]], 0⟩)
      (fresh (some 1) ⟨true, ⟨60⟩, 2⟩)).2.cache.lookup ⟨61⟩
        (rootRequest .empty)).1.served? = some ⟨200, .empty, [1, 2], "", some ⟨62⟩⟩ := by
    decide +kernel
  obtain ⟨before, written, op, after, hsplit, last, -⟩ := served_is_last_write _ _ _ _ _ _ h
  exact ⟨_, h, rfl, before, written, op, after, hsplit, last⟩

end Session

end GatewayCache
