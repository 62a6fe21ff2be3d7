/-
  GatewayCache.Config.Environment

  Settings overridden by environment variables.

  Variables are looked at in a fixed order, and the first one that cannot be
  read is the fault that is told. The place for stored responses keeps its
  settings when its kind is named again. In the end the settings are checked.
-/

import GatewayCache.Config

namespace GatewayCache.Config

/-- The value of each variable that is set. -/
abbrev Variables := String → Option String

/-- The variables by name. -/
def enabledVariable : String := "PROXY_CACHE_ENABLED"
def ttlVariable : String := "PROXY_CACHE_TTL_SECS"
def objectSizeVariable : String := "PROXY_CACHE_MAX_OBJECT_BYTES"
def backendVariable : String := "PROXY_CACHE_BACKEND"
def urlVariable : String := "PROXY_CACHE_REDIS_URL"
def keyPrefixVariable : String := "PROXY_CACHE_REDIS_PREFIX"
def activeTtlVariable : String := "PROXY_CACHE_PROJECT_ACTIVE_TTL_SECS"
def credentialTtlVariable : String := "PROXY_CACHE_PROJECT_CREDENTIAL_TTL_SECS"
def activeEntriesVariable : String := "PROXY_CACHE_PROJECT_ACTIVE_MAX_ENTRIES"
def credentialEntriesVariable : String := "PROXY_CACHE_PROJECT_CREDENTIAL_MAX_ENTRIES"

/-! ## Values of variables -/

/-- The fault of a variable that cannot be read. -/
def variableFault (name value : String) : Fault :=
  .configuration ("cannot parse environment variable " ++ name)
    { field := some name, details := some ("value '" ++ value ++ "'"), source := some faultSource }

/-- A truth value, spelled in small letters. -/
def readBoolean (cs : List Char) : Option Bool :=
  if cs = "true".toList then some true
  else if cs = "false".toList then some false
  else none

/-- A number of at most 64 bits. -/
def readNumber (cs : List Char) : Option Nat := Text.Decimal.read Text.Decimal.word64 cs

/-- The value of a variable, blanks around it left out; `current` if it is not
    set. -/
def override {α : Type} (read : List Char → Option α) (vars : Variables) (name : String)
    (current : α) : Except Fault α :=
  match vars name with
  | none => .ok current
  | some value =>
      match read (Text.trim value.toList) with
      | some a => .ok a
      | none => .error (variableFault name value)

/-! ## The place for stored responses -/

/-- The fault of a kind of place that does not exist. -/
def unknownBackendFault (kind : String) : Fault :=
  .configuration ("unknown cache backend '" ++ kind ++ "'")
    { field := some backendVariable, details := some "expected 'memory' or 'redis'",
      source := some faultSource }

/-- The place of a kind: the current one if it is of this kind, or else the
    default one. -/
def ofKind (kind : String) (current : Backend) : Except Fault Backend :=
  if kind = "memory" then
    .ok (match current with
      | .memory _ => current
      | .redis _ _ _ => Backend.default)
  else if kind = "redis" then
    .ok (match current with
      | .memory _ => Backend.redisAt ""
      | .redis _ _ _ => current)
  else .error (unknownBackendFault kind)

/-- The place with the address and the key prefix of the variables, which
    matter on a server only. -/
def overrideServer (vars : Variables) : Backend → Backend
  | .memory maxEntries => .memory maxEntries
  | .redis url keyPrefix scanCount =>
      .redis ((vars urlVariable).getD url) ((vars keyPrefixVariable).getD keyPrefix) scanCount

/-- The place that the variables choose. -/
def overrideBackend (vars : Variables) (current : Backend) : Except Fault Backend := do
  -- A kind that is named again keeps the settings of the place.
  let chosen ← match vars backendVariable with
    | none => .ok current
    | some kind => ofKind (Text.trimmed kind) current
  return overrideServer vars chosen

/-! ## All settings -/

/-- The settings with all variables applied. -/
def applyVariables (c : Config) (vars : Variables) : Except Fault Config := do
  let enabled ← override readBoolean vars enabledVariable c.response.enabled
  let defaultTtlSeconds ← override readNumber vars ttlVariable c.response.defaultTtlSeconds
  let maxObjectSize ← override readNumber vars objectSizeVariable c.response.maxObjectSize
  let backend ← overrideBackend vars c.response.backend
  let activeTtl ← override readNumber vars activeTtlVariable c.project.active.ttlSeconds
  let credentialTtl ← override readNumber vars credentialTtlVariable c.project.credential.ttlSeconds
  let activeEntries ← override readNumber vars activeEntriesVariable c.project.active.maxEntries
  let credentialEntries ←
    override readNumber vars credentialEntriesVariable c.project.credential.maxEntries
  return { response := { enabled, defaultTtlSeconds, maxObjectSize, backend },
           project := { active := ⟨activeTtl, activeEntries⟩,
                        credential := ⟨credentialTtl, credentialEntries⟩ } }

/-- The settings with all variables applied, if they have no problem then. -/
def applyEnvironment (c : Config) (vars : Variables) : Except Fault Config := do
  let c ← c.applyVariables vars
  c.checked

end GatewayCache.Config
