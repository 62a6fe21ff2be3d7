/-
  GatewayCache.Proofs.Session.Moves

  What one call of a session does.

  `Moves` lists every way in which a call can go, with its reply and the session after
  it, and `moves_step` says that there is no other. A poll and a close make the same kind
  of move: a consumer's step on a body, and `Settled` lists what becomes of the body if
  the step hands it over. What calls do to the store, to the counters and to the bodies
  on their way is read off these two lists, and so is that they leave the settings alone.
-/

import GatewayCache.ResponseCache.Session

namespace GatewayCache

open GatewayCache.Http

/-! ## Settling -/

namespace ResponseCache

variable {σ : Type} [ResponseStore σ]

/-- Whether a body that was handed over counts as stored: it is whole, and there is a
    scheduler. -/
def countsAsStored (scheduler : Scheduler) (body : CapturedBody) : Bool :=
  body.isWhole && scheduler != .absent

/-- What settling does with what a step on a body handed over: the entry that it leaves to
    the scheduler, and the cache after it. -/
inductive Settled (now : Instant) (plan : StorePlan) (c : ResponseCache σ) :
    Scheduler → Option CapturedBody → Option Entry → ResponseCache σ → Prop where
  /-- Nothing was handed over. -/
  | nothing (scheduler : Scheduler) : Settled now plan c scheduler none none c
  | skipped {scheduler : Scheduler} {body : CapturedBody}
      (h : countsAsStored scheduler body = false) :
      Settled now plan c scheduler (some body) none { c with counters := c.counters.countSkip }
  /-- The write is made at once. -/
  | written {body : CapturedBody} (whole : body.isWhole = true) :
      Settled now plan c .prompt (some body) none
        (write now plan (plannedEntry now plan body.bytes)
          { c with counters := c.counters.countStore })
  /-- The write is left to the scheduler, and counted already. -/
  | left {body : CapturedBody} (whole : body.isWhole = true) :
      Settled now plan c .deferred (some body) (some (plannedEntry now plan body.bytes))
        { c with counters := c.counters.countStore }

theorem settled_settleIfDone (now : Instant) (scheduler : Scheduler) (plan : StorePlan)
    (body : Option CapturedBody) (c : ResponseCache σ) :
    Settled now plan c scheduler body (c.settleIfDone now scheduler plan body).1
      (c.settleIfDone now scheduler plan body).2 := by
  cases body with
  | none => exact .nothing scheduler
  | some body =>
      cases whole : body.isWhole with
      | false =>
          simp only [settleIfDone, settle, whole, Bool.false_eq_true, if_false]
          exact .skipped (by rw [countsAsStored, whole, Bool.false_and])
      | true =>
          simp only [settleIfDone, settle, whole, if_true]
          cases scheduler with
          | absent => exact .skipped (by rw [countsAsStored, whole]; rfl)
          | prompt => exact .written whole
          | deferred => exact .left whole

namespace Settled

variable {now : Instant} {plan : StorePlan} {c c' : ResponseCache σ} {scheduler : Scheduler}
  {body : CapturedBody} {left : Option Entry}

theorem settings {body : Option CapturedBody} (h : Settled now plan c scheduler body left c') :
    c'.settings = c.settings := by
  cases h <;> rfl

/-- What is handed over counts once. -/
theorem counters (h : Settled now plan c scheduler (some body) left c') :
    c'.counters = if countsAsStored scheduler body then c.counters.countStore
      else c.counters.countSkip := by
  cases h with
  | skipped h =>
      rw [h]
      rfl
  | written whole =>
      rw [countsAsStored, whole]
      rfl
  | left whole =>
      rw [countsAsStored, whole]
      rfl

/-- Only a whole body leaves something to the scheduler: its entry. -/
theorem left_eq {body : Option CapturedBody} {e : Entry}
    (h : Settled now plan c scheduler body (some e) c') :
    ∃ done, body = some done ∧ done.isWhole = true ∧ e = plannedEntry now plan done.bytes := by
  cases h with
  | left whole => exact ⟨_, rfl, whole, rfl⟩

/-- Where nothing was handed over, nothing changes. -/
theorem of_none (h : Settled now plan c scheduler none left c') : left = none ∧ c' = c := by
  cases h
  exact ⟨rfl, rfl⟩

end Settled

/-- The outcome of a lookup by what was found under the key of the request. -/
def outcomeOf (request : Request) : Option Entry → Lookup
  | none => .miss (CacheKey.derive request)
  | some e => answer request e

end ResponseCache

namespace Session

/-! ## Moves -/

/-- The call that makes a consumer's step on the body at a position. -/
def Op.onBody (i : Nat) (scheduler : Scheduler) : Capture.Op → Op
  | .poll => .poll i scheduler
  | .close => .close i scheduler

/-- The reply to a consumer's step on a body. -/
def Reply.ofStep : Option Polled → Reply
  | some answer => .polled answer
  | none => .done

variable {σ : Type} [ResponseStore σ]

/-- All that a call can do: the reply, and the session after it. -/
inductive Moves (now : Instant) (s : Session σ) : Op → Reply → Session σ → Prop where
  /-- The store is not asked. -/
  | bypassed {request : Request}
      (h : (!s.cache.settings.takesPart request || Policy.wantsRevalidation request) = true) :
      Moves now s (.lookup request) (.lookup .bypass)
        { s with cache := { s.cache with counters := s.cache.counters.countLookup .bypass } }
  | looked {request : Request} {found : Option Entry} {store : σ}
      (h : (!s.cache.settings.takesPart request || Policy.wantsRevalidation request) = false)
      (asked : ResponseStore.get now (CacheKey.derive request).hash s.cache.store =
        (found, store)) :
      Moves now s (.lookup request) (.lookup (ResponseCache.outcomeOf request found))
        { s with
          cache := { s.cache with
            store
            counters := s.cache.counters.countLookup (ResponseCache.outcomeOf request found) } }
  | planned {request : Request} {response : Response} {plan : StorePlan}
      (h : s.cache.settings.decide request response = .store plan) :
      Moves now s (.decide request response) (.decided (some plan))
        { s with plans := s.plans ++ [plan] }
  | declined {request : Request} {response : Response}
      (h : s.cache.settings.decide request response = .skip) :
      Moves now s (.decide request response) (.decided none)
        { s with cache := { s.cache with counters := s.cache.counters.countSkip } }
  | ignored {request : Request} {response : Response}
      (h : s.cache.settings.decide request response = .ignore) :
      Moves now s (.decide request response) (.decided none) s
  | opened {j : Nat} {plan : StorePlan} (stream : BodyStream) (h : s.plans[j]? = some plan) :
      Moves now s (.wrap j stream) .done
        { s with bodies := s.bodies ++ [s.cache.wrap plan stream] }
  | unopened {j : Nat} (stream : BodyStream) (h : s.plans[j]? = none) :
      Moves now s (.wrap j stream) .absent s
  /-- A poll or a close: the capture takes the step, and what it hands over is settled. -/
  | stepped {i : Nat} {b : OpenBody} {scheduler : Scheduler} {left : Option Entry}
      {cache : ResponseCache σ} (o : Capture.Op) (h : s.bodies[i]? = some b)
      (settled : ResponseCache.Settled now b.plan s.cache scheduler (b.capture.step o).2.1 left
        cache) :
      Moves now s (.onBody i scheduler o) (.ofStep (b.capture.step o).1)
        { s with
          cache
          bodies := s.bodies.set i
            { b with capture := (b.capture.step o).2.2, waiting := left <|> b.waiting } }
  | unstepped {i : Nat} (scheduler : Scheduler) (o : Capture.Op) (h : s.bodies[i]? = none) :
      Moves now s (.onBody i scheduler o) .absent s
  | landed {i : Nat} {b : OpenBody} {e : Entry} (h : s.bodies[i]? = some b)
      (waits : b.waiting = some e) :
      Moves now s (.land i) .done
        { s with
          cache := s.cache.write now b.plan e
          bodies := s.bodies.set i { b with waiting := none } }
  /-- No write was left to the scheduler. -/
  | idle {i : Nat} {b : OpenBody} (h : s.bodies[i]? = some b) (waits : b.waiting = none) :
      Moves now s (.land i) .done s
  | unlanded {i : Nat} (h : s.bodies[i]? = none) : Moves now s (.land i) .absent s
  | direct (op : ResponseStore.Op) :
      Moves now s (.store op) (.store (ResponseStore.step now op s.cache.store).1)
        { s with cache := { s.cache with store := (ResponseStore.step now op s.cache.store).2 } }

theorem moves_step (now : Instant) (op : Op) (s : Session σ) :
    Moves now s op (s.step now op).1 (s.step now op).2 := by
  cases op with
  | lookup request =>
      simp only [step, ResponseCache.lookup]
      split
      next h => exact .bypassed h
      next h => exact .looked (Bool.eq_false_iff.2 h) rfl
  | decide request response =>
      simp only [step, ResponseCache.plan]
      cases h : s.cache.settings.decide request response with
      | ignore => simpa using Moves.ignored h
      | skip => simpa using Moves.declined h
      | store plan => exact .planned h
  | wrap j stream =>
      simp only [step]
      cases h : s.plans[j]? with
      | none => exact .unopened stream h
      | some plan => exact .opened stream h
  | poll i scheduler =>
      simp only [step]
      cases h : s.bodies[i]? with
      | none => exact .unstepped scheduler .poll h
      | some b => exact .stepped .poll h (ResponseCache.settled_settleIfDone ..)
  | close i scheduler =>
      simp only [step]
      cases h : s.bodies[i]? with
      | none => exact .unstepped scheduler .close h
      | some b => exact .stepped .close h (ResponseCache.settled_settleIfDone ..)
  | land i =>
      simp only [step]
      cases h : s.bodies[i]? with
      | none => exact .unlanded h
      | some b =>
          simp only [ResponseCache.landBody]
          cases waits : b.waiting with
          | some e => exact .landed h waits
          | none =>
              -- The body is put back as it was.
              obtain ⟨hlt, rfl⟩ := List.getElem?_eq_some_iff.1 h
              simpa using Moves.idle h waits
  | store op => exact .direct op

/-! ## Settings -/

theorem Moves.settings {now : Instant} {s t : Session σ} {op : Op} {reply : Reply}
    (h : Moves now s op reply t) : t.cache.settings = s.cache.settings := by
  cases h with
  | stepped o h settled => exact settled.settings
  | _ => rfl

/-- No run changes the settings. -/
theorem run_settings (ops : List (Instant × Op)) (s : Session σ) :
    (run ops s).2.cache.settings = s.cache.settings :=
  runSteps_induction (P := fun t : Session σ => t.cache.settings = s.cache.settings)
    (fun now op t h => (moves_step now op t).settings.trans h) ops rfl

end Session

end GatewayCache
