/-
  GatewayCache.Config

  The settings of a gateway's caches, and which of them are usable.

  Settings that were left out have defaults. Checking finds the first value
  that a cache could not work with.
-/

import GatewayCache.Clock
import GatewayCache.Fault
import GatewayCache.ResponseCache
import GatewayCache.Store.Memory
import GatewayCache.Store.Networked
import GatewayCache.Text.Blank

namespace GatewayCache

/-! ## Settings -/

/-- Where stored responses are kept. -/
inductive Backend where
  /-- Inside the process, at most a number of entries if one is given. -/
  | memory (maxEntries : Option Nat)
  /-- On a server, under keys with a common start. -/
  | redis (url : String) (keyPrefix : String) (scanCount : Nat)
deriving DecidableEq, Repr

namespace Backend

/-- The start of keys on a server, unless it is set. -/
def defaultKeyPrefix : String := "proxy:resp:"

/-- The process itself, without a bound. -/
def default : Backend := .memory none

/-- A server, with defaults for all but its address. -/
def redisAt (url : String) : Backend := .redis url defaultKeyPrefix defaultScanCount

/-- The name of the kind of place. -/
def kind : Backend → String
  | .memory _ => "memory"
  | .redis _ _ _ => "redis"

end Backend

/-- Settings of the response cache. -/
structure ResponseConfig where
  enabled : Bool := true
  defaultTtlSeconds : Nat := 300
  maxObjectSize : Nat := 1048576
  backend : Backend := Backend.default
deriving DecidableEq, Repr

/-- Settings of one cache of project data. -/
structure MetadataConfig where
  ttlSeconds : Nat
  maxEntries : Nat
deriving DecidableEq, Repr

/-- Settings of the two caches of project data. -/
structure ProjectConfig where
  active : MetadataConfig := ⟨30, 10000⟩
  credential : MetadataConfig := ⟨60, 10000⟩
deriving DecidableEq, Repr

/-- All settings. -/
structure Config where
  response : ResponseConfig := {}
  project : ProjectConfig := {}
deriving DecidableEq, Repr

/-- The settings that a response cache works by. -/
def ResponseConfig.settings (c : ResponseConfig) : CacheSettings :=
  ⟨c.enabled, Span.ofSeconds c.defaultTtlSeconds, c.maxObjectSize⟩

/-! ## Checking -/

namespace Config

/-- The longest time that project data may be kept: one year. -/
def longestTtlSeconds : Nat := 31536000

/-- The two caches of project data. -/
inductive ProjectCache where
  | active
  | credential
deriving DecidableEq, Repr

/-- What makes settings unusable. -/
inductive Problem where
  | zeroObjectSize
  | zeroStoreBound
  | missingUrl
  | zeroScanCount
  | zeroTtl (cache : ProjectCache)
  | longTtl (cache : ProjectCache)
  | zeroEntries (cache : ProjectCache)
deriving DecidableEq, Repr

/-- Where a cache of project data stands among the settings. -/
def ProjectCache.path : ProjectCache → String
  | .active => "project.active"
  | .credential => "project.credential"

/-- The setting that a problem is about. -/
def Problem.field : Problem → String
  | .zeroObjectSize => "response.max_object_size"
  | .zeroStoreBound => "response.backend.max_entries"
  | .missingUrl => "response.backend.url"
  | .zeroScanCount => "response.backend.scan_count"
  | .zeroTtl cache => cache.path ++ ".ttl_secs"
  | .longTtl cache => cache.path ++ ".ttl_secs"
  | .zeroEntries cache => cache.path ++ ".max_entries"

/-- What is wrong with the setting. -/
def Problem.details : Problem → String
  | .zeroObjectSize => "must be greater than zero"
  | .zeroStoreBound => "must be greater than zero when set"
  | .missingUrl => "redis backend needs a url"
  | .zeroScanCount => "must be greater than zero"
  | .zeroTtl _ => "must be greater than zero"
  | .longTtl _ => "must not exceed one year"
  | .zeroEntries _ => "must be greater than zero"

/-- The name by which this part of the library reports faults. -/
def faultSource : String := "config"

/-- The fault that a problem is told as. -/
def Problem.fault (p : Problem) : Fault :=
  .configuration "invalid cache configuration"
    { field := some p.field, details := some p.details, source := some faultSource }

/-- The first problem with the place for stored responses. -/
def backendProblem? : Backend → Option Problem
  | .memory (some 0) => some .zeroStoreBound
  | .memory _ => none
  | .redis url _ scanCount =>
      if Text.trim url.toList = [] then some .missingUrl
      else if scanCount = 0 then some .zeroScanCount
      else none

/-- The first problem with a cache of project data. -/
def metadataProblem? (cache : ProjectCache) (c : MetadataConfig) : Option Problem :=
  if c.ttlSeconds = 0 then some (.zeroTtl cache)
  else if longestTtlSeconds < c.ttlSeconds then some (.longTtl cache)
  else if c.maxEntries = 0 then some (.zeroEntries cache)
  else none

/-- The first problem with the settings. -/
def problem? (c : Config) : Option Problem :=
  (if c.response.maxObjectSize = 0 then some .zeroObjectSize else none)
    <|> backendProblem? c.response.backend
    <|> metadataProblem? .active c.project.active
    <|> metadataProblem? .credential c.project.credential

/-- Fails on settings with a problem. -/
def check (c : Config) : Except Fault Unit :=
  match c.problem? with
  | none => .ok ()
  | some p => .error p.fault

/-- The settings themselves, if they have no problem. -/
def checked (c : Config) : Except Fault Config := do
  c.check
  return c

end Config

/-! ## Opening stores -/

namespace Backend

/-- The fault of a server address. -/
def addressFault : Fault :=
  .backend "invalid redis url: Redis URL did not parse - InvalidClientConfig"
    { field := some "response.backend.url", source := some "redis" }

/-- Opens the place for stored responses. Connections to servers are not opened
    from here, so every address is refused. -/
def openStore : Backend → Except Fault MemoryStore
  | .memory maxEntries => .ok (MemoryStore.ofBound maxEntries)
  | .redis _ _ _ => .error addressFault

/-- The part of a server's keys that holds entries. -/
def space (keyPrefix : String) (scanCount : Nat) : KeySpace :=
  KeySpace.scanning { start := keyPrefix } scanCount

end Backend

end GatewayCache
