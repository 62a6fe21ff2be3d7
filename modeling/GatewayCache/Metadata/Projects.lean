/-
  GatewayCache.Metadata.Projects

  Data of projects, cached in front of their source: the `CachedProjectStore` with the
  two caches of section 4.5 of the specification, and the `ProjectGuard` that asks it.

  Every request needs to know whether its project is active and which
  credential it uses. Each is asked for at the source only if the cache has no
  live answer. Faults are passed on and never cached, nor is an empty
  credential, which may mean that none was set yet. The guard lets a request
  through only on the word that its project is active.
-/

import GatewayCache.Fault
import GatewayCache.Metadata.RecencyCache

namespace GatewayCache

/-- A source of project data whose state is `π`. -/
class ProjectSource (π : Type) where
  /-- Whether a project is active. -/
  active : String → π → Except Fault Bool × π
  /-- The credential of a project; empty if it has none. -/
  credential : String → π → Except Fault String × π

/-- A change in the life of a project. -/
inductive ProjectEvent where
  | created (id : String)
  | updated (id : String)
  | deleted (id : String)
deriving DecidableEq, Repr

/-- The project that an event is about. -/
def ProjectEvent.id : ProjectEvent → String
  | .created id => id
  | .updated id => id
  | .deleted id => id

/-- Why the guard refuses a request. -/
inductive DenyReason where
  /-- The source could not be asked. -/
  | serviceUnavailable
  | projectInactive
deriving DecidableEq, Repr

/-- The code of a reason. -/
def DenyReason.code : DenyReason → String
  | .serviceUnavailable => "service_unavailable"
  | .projectInactive => "project_inactive"

/-- The guard's decision. -/
inductive GuardDecision where
  | allow
  | deny (reason : DenyReason)
deriving DecidableEq, Repr

/-- Whether the guard lets the request through. -/
def GuardDecision.isAllowed : GuardDecision → Bool
  | .allow => true
  | .deny _ => false

/-- A source with two caches in front of it. -/
structure Projects (π : Type) where
  source : π
  activity : RecencyCache Bool
  credentials : RecencyCache String

namespace Projects

variable {π : Type}

/-- A source with empty caches in front of it. -/
def create (source : π) (c : ProjectConfig) : Projects π :=
  ⟨source, RecencyCache.ofConfig c.active, RecencyCache.ofConfig c.credential⟩

/-! ## Asking -/

section Asking

variable [ProjectSource π]

/-- Whether a project is active. -/
def isActive (now : Instant) (id : String) (p : Projects π) : Except Fault Bool × Projects π :=
  let (found, activity) := p.activity.get now id
  let p := { p with activity }
  match found with
  | some active => (.ok active, p)
  | none =>
      let (answer, source) := ProjectSource.active id p.source
      let p := { p with source }
      match answer with
      | .error e => (.error e, p)
      | .ok active => (.ok active, { p with activity := (p.activity.set now id active).2 })

/-- The credential of a project. -/
def credential (now : Instant) (id : String) (p : Projects π) :
    Except Fault String × Projects π :=
  let (found, credentials) := p.credentials.get now id
  let p := { p with credentials }
  match found with
  | some secret => (.ok secret, p)
  | none =>
      let (answer, source) := ProjectSource.credential id p.source
      let p := { p with source }
      match answer with
      | .error e => (.error e, p)
      | .ok secret =>
          -- It may be set at any moment, so the source is asked again next time.
          if secret = "" then (.ok secret, p)
          else (.ok secret, { p with credentials := (p.credentials.set now id secret).2 })

/-- What the guard makes of the answer to the question for activity. -/
def decision : Except Fault Bool → GuardDecision
  | .ok true => .allow
  | .ok false => .deny .projectInactive
  | .error _ => .deny .serviceUnavailable

/-- The guard: whether a request of a project may pass. -/
def check (now : Instant) (id : String) (p : Projects π) : GuardDecision × Projects π :=
  let (answer, p) := p.isActive now id
  (decision answer, p)

end Asking

/-! ## Forgetting -/

/-- Forgets what is cached of a project. -/
def invalidate (id : String) (p : Projects π) : Projects π :=
  { p with activity := (p.activity.purge id).2, credentials := (p.credentials.purge id).2 }

/-- Every event makes the cached data of its project worthless. -/
def onEvent (e : ProjectEvent) (p : Projects π) : Projects π := p.invalidate e.id

/-! ## Runs -/

/-- One call. -/
inductive Op where
  | isActive (id : String)
  | credential (id : String)
  | check (id : String)
  | invalidate (id : String)
  | event (e : ProjectEvent)
deriving Repr

/-- What a call answers. -/
inductive Reply where
  | activity (answer : Except Fault Bool)
  | secret (answer : Except Fault String)
  | decided (decision : GuardDecision)
  | done

variable [ProjectSource π]

/-- One call at one instant. -/
def step (now : Instant) (op : Op) (p : Projects π) : Reply × Projects π :=
  match op with
  | .isActive id => let (answer, p) := p.isActive now id; (.activity answer, p)
  | .credential id => let (answer, p) := p.credential now id; (.secret answer, p)
  | .check id => let (d, p) := p.check now id; (.decided d, p)
  | .invalidate id => (.done, p.invalidate id)
  | .event e => (.done, p.onEvent e)

/-- Calls one after the other. -/
abbrev run : List (Instant × Op) → Projects π → List Reply × Projects π := runSteps step

end Projects

end GatewayCache
