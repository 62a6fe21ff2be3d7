/-
  GatewayCache.Proofs.Session.History

  The history of a session: what its calls did to the store.

  Every call makes at most one operation on the store, and `storeOp?` says
  which. So a run of calls does to the store what the run of these operations
  does (`run_store`), and a result about runs of a store becomes one about
  sessions: the call behind a given operation is found by `exists_call_of_storeOps`,
  and how it came to make a write is listed by `Writes`.
-/

import GatewayCache.Proofs.Session.Moves
import GatewayCache.Proofs.Store.Standing

namespace GatewayCache.Session

open GatewayCache.Http

variable {σ : Type}

/-! ## Operations on the store -/

/-- The write that settling makes at once. -/
def settledOp? (now : Instant) (scheduler : Scheduler) (plan : StorePlan) :
    Option CapturedBody → Option ResponseStore.Op
  | none => none
  | some body =>
      if body.isWhole ∧ scheduler = .prompt then
        some (.set plan.key.hash (ResponseCache.plannedEntry now plan body.bytes))
      else none

/-- The operation that a call makes on the store. -/
def storeOp? (now : Instant) (op : Op) (s : Session σ) : Option ResponseStore.Op :=
  match op with
  | .lookup request =>
      if !s.cache.settings.takesPart request || Policy.wantsRevalidation request then none
      else some (.get (CacheKey.derive request).hash)
  | .decide _ _ => none
  | .wrap _ _ => none
  | .poll i scheduler =>
      s.bodies[i]?.bind fun b => settledOp? now scheduler b.plan b.capture.poll.2.1
  | .close i scheduler =>
      s.bodies[i]?.bind fun b => settledOp? now scheduler b.plan b.capture.close.1
  | .land i => s.bodies[i]?.bind fun b => b.waiting.map (.set b.plan.key.hash)
  | .store op => some op

theorem storeOp?_onBody (now : Instant) (i : Nat) (scheduler : Scheduler) (o : Capture.Op)
    (s : Session σ) :
    storeOp? now (.onBody i scheduler o) s =
      s.bodies[i]?.bind fun b => settledOp? now scheduler b.plan (b.capture.step o).2.1 := by
  cases o <;> rfl

/-! ## Writes -/

/-- How a call comes to make a write. -/
inductive Writes (now : Instant) (s : Session σ) : Op → String → Entry → Prop where
  | direct (key : String) (e : Entry) : Writes now s (.store (.set key e)) key e
  /-- A step on a body hands over the whole of it. -/
  | finished {i : Nat} {b : OpenBody} {o : Capture.Op} {done : CapturedBody}
      (h : s.bodies[i]? = some b) (handed : (b.capture.step o).2.1 = some done)
      (whole : done.isWhole = true) :
      Writes now s (.onBody i .prompt o) b.plan.key.hash
        (ResponseCache.plannedEntry now b.plan done.bytes)
  | landed {i : Nat} {b : OpenBody} {e : Entry} (h : s.bodies[i]? = some b)
      (waits : b.waiting = some e) : Writes now s (.land i) b.plan.key.hash e

theorem writes_of_onBody {now : Instant} {i : Nat} {scheduler : Scheduler} {o : Capture.Op}
    {s : Session σ} {key : String} {e : Entry}
    (h : storeOp? now (.onBody i scheduler o) s = some (.set key e)) :
    Writes now s (.onBody i scheduler o) key e := by
  rw [storeOp?_onBody] at h
  obtain ⟨b, hb, hset⟩ := Option.bind_eq_some_iff.1 h
  cases handed : (b.capture.step o).2.1 with
  | none =>
      rw [handed] at hset
      cases hset
  | some done =>
      rw [handed, settledOp?] at hset
      split at hset
      next hc =>
        obtain ⟨whole, rfl⟩ := hc
        obtain ⟨rfl, rfl⟩ := ResponseStore.Op.set.inj (Option.some.inj hset)
        exact .finished hb handed whole
      next => cases hset

theorem writes_of_storeOp? {now : Instant} {op : Op} {s : Session σ} {key : String} {e : Entry}
    (h : storeOp? now op s = some (.set key e)) : Writes now s op key e := by
  cases op with
  | lookup request =>
      simp only [storeOp?] at h
      split at h <;> cases h
  | decide request response => cases h
  | wrap j stream => cases h
  | poll i scheduler => exact writes_of_onBody (o := .poll) h
  | close i scheduler => exact writes_of_onBody (o := .close) h
  | land i =>
      obtain ⟨b, hb, h⟩ := Option.bind_eq_some_iff.1 h
      obtain ⟨e', waits, hset⟩ := Option.map_eq_some_iff.1 h
      obtain ⟨rfl, rfl⟩ := ResponseStore.Op.set.inj hset
      exact .landed hb waits
  | store op =>
      obtain rfl : op = .set key e := Option.some.inj h
      exact .direct key e

/-! ## One call -/

variable [ResponseStore σ]

/-- The store after an operation, or after none. -/
def storeAfter (now : Instant) (store : σ) : Option ResponseStore.Op → σ
  | none => store
  | some op => (ResponseStore.step now op store).2

theorem store_of_settled {now : Instant} {scheduler : Scheduler} {plan : StorePlan}
    {body : Option CapturedBody} {left : Option Entry} {c c' : ResponseCache σ}
    (h : ResponseCache.Settled now plan c scheduler body left c') :
    c'.store = storeAfter now c.store (settledOp? now scheduler plan body) := by
  cases h with
  | nothing => rfl
  | @skipped scheduler body h =>
      have hnone : ¬ (body.isWhole = true ∧ scheduler = .prompt) := by
        rintro ⟨whole, rfl⟩
        rw [ResponseCache.countsAsStored, whole] at h
        cases h
      rw [settledOp?, if_neg hnone]
      rfl
  | written whole =>
      rw [settledOp?, if_pos ⟨whole, rfl⟩]
      rfl
  | left =>
      rw [settledOp?, if_neg fun h => by cases h.2]
      rfl

/-- A call does to the store what its operation does. -/
theorem Moves.store {now : Instant} {s t : Session σ} {op : Op} {reply : Reply}
    (h : Moves now s op reply t) :
    t.cache.store = storeAfter now s.cache.store (storeOp? now op s) := by
  cases h with
  | bypassed h =>
      rw [storeOp?, if_pos h]
      rfl
  | looked h asked =>
      rw [storeOp?, if_neg (Bool.eq_false_iff.1 h), storeAfter, ResponseStore.step, asked]
  | stepped o h settled =>
      rw [storeOp?_onBody, h]
      exact store_of_settled settled
  | unstepped scheduler o h =>
      rw [storeOp?_onBody, h]
      rfl
  | landed h waits =>
      simp only [storeOp?, h, Option.bind_some, waits]
      rfl
  | idle h waits =>
      simp only [storeOp?, h, Option.bind_some, waits]
      rfl
  | unlanded h =>
      rw [storeOp?, h]
      rfl
  | _ => rfl

theorem step_store (now : Instant) (op : Op) (s : Session σ) :
    (s.step now op).2.cache.store = storeAfter now s.cache.store (storeOp? now op s) :=
  (moves_step now op s).store

/-! ## Runs -/

/-- The operations that a run of calls makes on the store, in order. -/
def storeOps : List (Instant × Op) → Session σ → List (Instant × ResponseStore.Op)
  | [], _ => []
  | (now, op) :: ops, s =>
      ((storeOp? now op s).map fun o => (now, o)).toList ++ storeOps ops (s.step now op).2

/-- A run of calls does to the store what their operations do. -/
theorem run_store (ops : List (Instant × Op)) (s : Session σ) :
    (run ops s).2.cache.store = (ResponseStore.run (storeOps ops s) s.cache.store).2 := by
  induction ops generalizing s with
  | nil => rfl
  | cons op ops ih =>
      obtain ⟨now, op⟩ := op
      have hrest := ih (s.step now op).2
      rw [step_store] at hrest
      have hrun : (run ((now, op) :: ops) s).2 = (run ops (s.step now op).2).2 := rfl
      rw [hrun, hrest, storeOps]
      cases storeOp? now op s with
      | none => rfl
      | some o => rfl

/-- Every operation on the store comes from one call. -/
theorem exists_call_of_storeOps {ops : List (Instant × Op)} {s : Session σ}
    {before after : List (Instant × ResponseStore.Op)} {now : Instant} {o : ResponseStore.Op}
    (h : storeOps ops s = before ++ (now, o) :: after) :
    ∃ earlier op later, ops = earlier ++ (now, op) :: later ∧ storeOps earlier s = before ∧
      storeOp? now op (run earlier s).2 = some o ∧
      storeOps later ((run earlier s).2.step now op).2 = after := by
  induction ops generalizing s before with
  | nil => cases before <;> cases h
  | cons c ops ih =>
      obtain ⟨at', op⟩ := c
      rw [storeOps] at h
      -- Where the first call makes no operation, the one looked for comes later.
      cases hop : storeOp? at' op s with
      | none =>
          rw [hop] at h
          obtain ⟨earlier, op', later, rfl, hb, ho, ha⟩ := ih h
          refine ⟨(at', op) :: earlier, op', later, rfl, ?_, ho, ha⟩
          rw [storeOps, hop, hb]
          rfl
      | some o' =>
          rw [hop] at h
          -- Otherwise it is this one exactly when none is to stand before it.
          cases before with
          | nil =>
              obtain ⟨⟨rfl, rfl⟩, ha⟩ : (at' = now ∧ o' = o) ∧ _ = after := by simpa using h
              exact ⟨[], op, ops, rfl, rfl, hop, ha⟩
          | cons b before =>
              obtain ⟨hb, h⟩ : (at', o') = b ∧ _ = before ++ (now, o) :: after := by simpa using h
              obtain ⟨earlier, op', later, rfl, hb', ho, ha⟩ := ih h
              refine ⟨(at', op) :: earlier, op', later, rfl, ?_, ho, ha⟩
              rw [storeOps, hop, hb', ← hb]
              rfl

end GatewayCache.Session
