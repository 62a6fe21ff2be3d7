/-
  GatewayCache.ResponseCache

  The response cache of a gateway: the `ResponseCache` with its `lookup`, its
  `store_decision` (`plan`) and its `capture` (`wrap`, and `settle` for what becomes of
  a body once it is handed over).

  A request is looked up first. If the server behind had to be asked, the cache
  decides whether its response may be stored, and if so plans how. The body
  then passes through a capture, and once it went through as a whole the
  response is stored as planned. Every call is counted by its outcome.
-/

import GatewayCache.Capture
import GatewayCache.Key
import GatewayCache.Policy
import GatewayCache.Store
import GatewayCache.Validators

namespace GatewayCache

open GatewayCache.Http

/-! ## Outcomes and counters -/

/-- The outcome of a lookup. -/
inductive Lookup where
  /-- The stored response answers the request. -/
  | hit (entry : Entry)
  /-- The client's own copy answers the request. -/
  | notModified (entry : Entry)
  /-- Nothing usable is stored under the key. -/
  | miss (key : CacheKey)
  /-- The cache takes no part in the request. -/
  | bypass
deriving DecidableEq, Repr

/-- What is needed to store a response once its body went through. -/
structure StorePlan where
  key : CacheKey
  status : UInt16
  fields : Fields
  ttl : Span
deriving Repr

/-- How often each outcome came about. A call adds one to one counter at most, and no
    run makes the 2^64 calls that would take a counter beyond a machine word, so the
    counts are plain numbers. -/
structure Counters where
  hits : Nat := 0
  misses : Nat := 0
  notModified : Nat := 0
  bypasses : Nat := 0
  stores : Nat := 0
  skips : Nat := 0
deriving DecidableEq, Repr, Inhabited

namespace Counters

/-- One more lookup with an outcome. -/
def countLookup (n : Counters) : Lookup → Counters
  | .hit _ => { n with hits := n.hits + 1 }
  | .notModified _ => { n with notModified := n.notModified + 1 }
  | .miss _ => { n with misses := n.misses + 1 }
  | .bypass => { n with bypasses := n.bypasses + 1 }

/-- One more response stored. -/
def countStore (n : Counters) : Counters := { n with stores := n.stores + 1 }

/-- One more response not stored. -/
def countSkip (n : Counters) : Counters := { n with skips := n.skips + 1 }

/-- Lookups that the cache answered. -/
def served (n : Counters) : Nat := n.hits + n.notModified

/-- Lookups that the cache took part in. -/
def attempted (n : Counters) : Nat := n.served + n.misses

end Counters

/-! ## Decisions -/

/-- How a cache works. A body above `maxObjectSize` is not stored. -/
structure CacheSettings where
  enabled : Bool
  defaultTtl : Span
  maxObjectSize : Nat
deriving DecidableEq, Repr

/-- Whether a response is to be stored. -/
inductive Decision where
  /-- The cache takes no part in the request. -/
  | ignore
  /-- The response is not worth storing, or must not be stored. -/
  | skip
  | store (plan : StorePlan)
deriving Repr

namespace CacheSettings

/-- The length of the body that a response declares, if it is a number. -/
def declaredLength? (f : Fields) : Option Nat :=
  (f.firstText? FieldName.contentLength).bind fun t =>
    Text.Decimal.read Text.Decimal.word64 (Text.trim t.toList)

/-- Whether a response declares a body above the size limit. -/
def declaredTooLarge (s : CacheSettings) (f : Fields) : Bool :=
  match declaredLength? f with
  | none => false
  | some n => decide (s.maxObjectSize < n)

/-- How long a response is to be kept. A response without directives is kept
    for as long as the client asks for, if it asks. -/
def lifetime (s : CacheSettings) (request : Request) (response : Response) : Span :=
  let requested := Policy.requestedLifetime request
  if !response.fields.has FieldName.cacheControl && 0 < requested.nanos then requested
  else Policy.lifetime response.fields s.defaultTtl

/-- Whether the cache takes part in a request. -/
def takesPart (s : CacheSettings) (request : Request) : Bool :=
  s.enabled && Policy.isEligible request

/-- Whether and how a response is to be stored. -/
def decide (s : CacheSettings) (request : Request) (response : Response) : Decision :=
  if !s.takesPart request then .ignore
  else if !Policy.isCacheable request response then .skip
  else if s.declaredTooLarge response.fields then .skip
  else
    let ttl := s.lifetime request response
    -- A response that is stale at once is not worth storing.
    if ttl.nanos = 0 then .skip
    else .store ⟨CacheKey.derive request, response.status, response.fields, ttl⟩

end CacheSettings

/-! ## The cache -/

/-- A store, how to use it, and the counters. -/
structure ResponseCache (σ : Type) where
  store : σ
  settings : CacheSettings
  counters : Counters := {}

/-- When the write of a body that went through is made. -/
inductive Scheduler where
  /-- Never: there is no scheduler. -/
  | absent
  /-- At once. -/
  | prompt
  /-- By a call of its own. -/
  | deferred
deriving DecidableEq, Repr

/-- A body on its way to the client, with the plan for its response. -/
structure OpenBody where
  plan : StorePlan
  capture : Capture
  /-- The entry that the scheduler still has to write. -/
  waiting : Option Entry := none
deriving Repr

namespace ResponseCache

variable {σ : Type} [ResponseStore σ]

/-- The entry that a plan and a body make when the body is complete. -/
def plannedEntry (now : Instant) (plan : StorePlan) (body : List UInt8) : Entry :=
  Entry.ofResponse now plan.status plan.fields body plan.ttl

/-- How a live entry under the key of a request answers it. -/
def answer (request : Request) (entry : Entry) : Lookup :=
  let stored := entry.replay
  if !Policy.mayServe request stored then .miss (CacheKey.derive request)
  else if Policy.isConditional request && Validators.confirms request stored then
    .notModified entry
  else .hit entry

/-- Looks a request up. -/
def lookup (now : Instant) (request : Request) (c : ResponseCache σ) : Lookup × ResponseCache σ :=
  if !c.settings.takesPart request || Policy.wantsRevalidation request then
    (.bypass, { c with counters := c.counters.countLookup .bypass })
  else
    let key := CacheKey.derive request
    let (found, store) := ResponseStore.get now key.hash c.store
    let outcome := match found with
      | none => .miss key
      | some entry => answer request entry
    (outcome, { c with store, counters := c.counters.countLookup outcome })

/-- Decides whether and how to store a response. -/
def plan (request : Request) (response : Response) (c : ResponseCache σ) :
    Option StorePlan × ResponseCache σ :=
  match c.settings.decide request response with
  | .ignore => (none, c)
  | .skip => (none, { c with counters := c.counters.countSkip })
  | .store p => (some p, c)

/-- A body that passes through the cache. -/
def wrap (plan : StorePlan) (stream : BodyStream) (c : ResponseCache σ) : OpenBody :=
  { plan, capture := Capture.ofStream stream c.settings.maxObjectSize }

/-- Puts a planned entry into the store. -/
def write (now : Instant) (plan : StorePlan) (e : Entry) (c : ResponseCache σ) : ResponseCache σ :=
  { c with store := ResponseStore.set now plan.key.hash e c.store }

/-- Makes the entry of a response whose body went through as a whole: the entry
    that is left to the scheduler, if the write is not made at once. Without a
    scheduler the response is not stored. -/
def settle (now : Instant) (scheduler : Scheduler) (plan : StorePlan) (body : CapturedBody)
    (c : ResponseCache σ) : Option Entry × ResponseCache σ :=
  let skipped := { c with counters := c.counters.countSkip }
  if body.isWhole then
    let entry := plannedEntry now plan body.bytes
    let counted := { c with counters := c.counters.countStore }
    match scheduler with
    | .absent => (none, skipped)
    | .prompt => (none, counted.write now plan entry)
    | .deferred => (some entry, counted)
  else (none, skipped)

/-- Settles what a body handed over, if it did. -/
def settleIfDone (now : Instant) (scheduler : Scheduler) (plan : StorePlan)
    (body : Option CapturedBody) (c : ResponseCache σ) : Option Entry × ResponseCache σ :=
  match body with
  | none => (none, c)
  | some b => c.settle now scheduler plan b

/-- Polls a body. -/
def pollBody (now : Instant) (scheduler : Scheduler) (b : OpenBody) (c : ResponseCache σ) :
    Polled × OpenBody × ResponseCache σ :=
  let (answer, body, capture) := b.capture.poll
  let (left, c) := c.settleIfDone now scheduler b.plan body
  (answer, { b with capture, waiting := left <|> b.waiting }, c)

/-- Closes a body. -/
def closeBody (now : Instant) (scheduler : Scheduler) (b : OpenBody) (c : ResponseCache σ) :
    OpenBody × ResponseCache σ :=
  let (body, capture) := b.capture.close
  let (left, c) := c.settleIfDone now scheduler b.plan body
  ({ b with capture, waiting := left <|> b.waiting }, c)

/-- Makes the write that a body left to the scheduler. -/
def landBody (now : Instant) (b : OpenBody) (c : ResponseCache σ) : OpenBody × ResponseCache σ :=
  match b.waiting with
  | none => (b, c)
  | some e => ({ b with waiting := none }, c.write now b.plan e)

end ResponseCache

end GatewayCache
