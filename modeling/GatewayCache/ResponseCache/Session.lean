/-
  GatewayCache.ResponseCache.Session

  A response cache in use: calls one after the other, with any number of bodies
  on their way at the same time.

  A session remembers the plans that were made and the bodies that were opened,
  in order, so that later calls can name them by position. The write of a body
  that went through is made by the call that finishes the body, or is left to
  the scheduler and made by a later call.
-/

import GatewayCache.ResponseCache

namespace GatewayCache

open GatewayCache.Http

/-- A cache with the plans made and the bodies opened so far. -/
structure Session (σ : Type) where
  cache : ResponseCache σ
  plans : List StorePlan := []
  bodies : List OpenBody := []

namespace Session

/-- The session before the first call. -/
def start {σ : Type} (store : σ) (settings : CacheSettings) : Session σ :=
  { cache := { store, settings } }

/-- One call. `scheduler` tells when the write of a finished body is made. -/
inductive Op where
  | lookup (request : Request)
  | decide (request : Request) (response : Response)
  /-- A stream wrapped under the plan at a position. -/
  | wrap (plan : Nat) (stream : BodyStream)
  | poll (body : Nat) (scheduler : Scheduler)
  | close (body : Nat) (scheduler : Scheduler)
  /-- The scheduler makes the write that a body left to it. -/
  | land (body : Nat)
  /-- A call on the store itself. -/
  | store (op : ResponseStore.Op)

/-- What a call answers. -/
inductive Reply where
  | lookup (outcome : Lookup)
  | decided (plan : Option StorePlan)
  | polled (answer : Polled)
  | store (reply : ResponseStore.Reply)
  /-- The call was made. -/
  | done
  /-- There is no plan or body at the position. -/
  | absent

variable {σ : Type} [ResponseStore σ]

/-- One call at one instant. -/
def step (now : Instant) (op : Op) (s : Session σ) : Reply × Session σ :=
  match op with
  | .lookup request =>
      let (outcome, cache) := s.cache.lookup now request
      (.lookup outcome, { s with cache })
  | .decide request response =>
      let (plan, cache) := s.cache.plan request response
      (.decided plan, { s with cache, plans := s.plans ++ plan.toList })
  | .wrap i stream =>
      match s.plans[i]? with
      | none => (.absent, s)
      | some plan => (.done, { s with bodies := s.bodies ++ [s.cache.wrap plan stream] })
  | .poll i scheduler =>
      match s.bodies[i]? with
      | none => (.absent, s)
      | some b =>
          let (answer, b, cache) := s.cache.pollBody now scheduler b
          (.polled answer, { s with cache, bodies := s.bodies.set i b })
  | .close i scheduler =>
      match s.bodies[i]? with
      | none => (.absent, s)
      | some b =>
          let (b, cache) := s.cache.closeBody now scheduler b
          (.done, { s with cache, bodies := s.bodies.set i b })
  | .land i =>
      match s.bodies[i]? with
      | none => (.absent, s)
      | some b =>
          let (b, cache) := s.cache.landBody now b
          (.done, { s with cache, bodies := s.bodies.set i b })
  | .store op =>
      let (reply, store) := ResponseStore.step now op s.cache.store
      (.store reply, { s with cache := { s.cache with store } })

/-- Calls one after the other. -/
abbrev run : List (Instant × Op) → Session σ → List Reply × Session σ := runSteps step

end Session

end GatewayCache
