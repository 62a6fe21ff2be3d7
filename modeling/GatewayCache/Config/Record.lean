/-
  GatewayCache.Config.Record

  Settings as structured documents, and their records in JSON and in YAML.

  A group of settings is a map; where the format allows it, also a list of its
  values in order. What is left out has its default, except that project caches
  need both values. Unknown names are skipped, repeated ones are not accepted.
  The place for stored responses is told by its kind, and its other members
  have to be well formed even if they are skipped.
-/

import GatewayCache.Config
import GatewayCache.Json.Reader
import GatewayCache.Json.Writer
import GatewayCache.Yaml.Reader

namespace GatewayCache.Config

/-! ## Writing -/

/-- The record of a place for stored responses. -/
def writeBackend : Backend → List UInt8
  | .memory maxEntries =>
      Json.map [("kind", Json.quoted "memory"),
        ("max_entries", match maxEntries with
          | none => Json.nullWord
          | some n => Json.natural n)]
  | .redis url keyPrefix scanCount =>
      Json.map [("kind", Json.quoted "redis"), ("url", Json.quoted url),
        ("key_prefix", Json.quoted keyPrefix), ("scan_count", Json.natural scanCount)]

/-- The record of a cache of project data. -/
def writeMetadata (c : MetadataConfig) : List UInt8 :=
  Json.map [("ttl_secs", Json.natural c.ttlSeconds), ("max_entries", Json.natural c.maxEntries)]

/-- The record of all settings. -/
def write (c : Config) : List UInt8 :=
  Json.map [
    ("response", Json.map [("enabled", Json.boolean c.response.enabled),
      ("default_ttl_secs", Json.natural c.response.defaultTtlSeconds),
      ("max_object_size", Json.natural c.response.maxObjectSize),
      ("backend", writeBackend c.response.backend)]),
    ("project", Json.map [("active", writeMetadata c.project.active),
      ("credential", writeMetadata c.project.credential)])]

/-! ## Reading -/

/-- What a text format allows. -/
structure Format where
  /-- Groups may be lists of their values in order. -/
  byPosition : Bool
  /-- How deep maps and lists may lie in each other where values are kept. -/
  depth : Nat

/-- The rules for JSON. -/
def Format.json : Format := ⟨true, 127⟩

/-- The rules for YAML. -/
def Format.yaml : Format := ⟨false, 128⟩

/-- The value that a field has, or a default if it is absent. -/
def orDefault {α : Type} (default : α) (read : Document → Option α) : Option Document → Option α
  | none => some default
  | some d => read d

/-- A number of 64 bits. -/
def number? (d : Document) : Option Nat := d.natural? Text.Decimal.word64

/-- A number of 64 bits that was kept: to a kept zero a sign does not matter. -/
def keptNumber? : Document → Option Nat
  | .negativeZero => some 0
  | d => number? d

/-- A kept number of 64 bits, or none for null and where nothing is written. -/
def optionalNumber? : Document → Option (Option Nat)
  | .absent => some none
  | .null => some none
  | d => (keptNumber? d).map some

/-- The member of a place that a key names. A number names one by position. -/
def memberName? (names : List String) : Document → Option String
  | .text s => some s
  | .natural i => some (names.getD i "")
  | _ => none

/-- The settings of a place of one kind from fields in order. -/
def backendOfFields? (kind : String) (fields : List (Option Document)) : Option Backend :=
  match kind, fields with
  | "memory", [maxEntries] => (orDefault none optionalNumber? maxEntries).map Backend.memory
  | "redis", [some url, keyPrefix, scanCount] => do
      let url ← url.text?
      let keyPrefix ← orDefault Backend.defaultKeyPrefix Document.text? keyPrefix
      let scanCount ← orDefault defaultScanCount keptNumber? scanCount
      some (.redis url keyPrefix scanCount)
  | _, _ => none

/-- The names of the members of a kind of place, in order. -/
def backendNames (kind : String) : List String :=
  if kind = "memory" then ["max_entries"] else ["url", "key_prefix", "scan_count"]

/-- Whether a member of a place tells its kind. -/
def isKindMember (m : Document × Document) : Bool :=
  match m.1 with
  | .text s => s == "kind"
  | _ => false

/-- A place for stored responses, from a map with a kind or from a list that
    starts with one. `depth` bounds how deep the values in it may go. -/
def backendOfDocument? (depth : Nat) : Document → Option Backend
  | .map ms => do
      let others := ms.filter fun m => !isKindMember m
      match ms.filter isKindMember with
      | [m] =>
          let kind ← m.2.text?
          -- Members that this kind does not have are skipped, but kept until
          -- the kind is known.
          if others.all fun m => m.1.isKeepable depth && m.2.isKeepable depth then
            let names := backendNames kind
            let named ← others.mapM fun m => (memberName? names m.1).map fun n => (n, m.2)
            backendOfFields? kind (← Document.namedFields? names named)
          else none
      | _ => none
  | .list (d :: ds) => do
      let kind ← d.text?
      if ds.all (Document.isKeepable depth) then
        backendOfFields? kind (← Document.positionalFields? (backendNames kind) ds)
      else none
  | _ => none

/-- Settings of the response cache. The place lies `level` maps deep. -/
def responseOfDocument? (f : Format) (d : Document) : Option ResponseConfig := do
  let defaults : ResponseConfig := {}
  match ← d.record? f.byPosition ["enabled", "default_ttl_secs", "max_object_size", "backend"] with
  | [enabled, defaultTtl, maxObjectSize, backend] =>
      let enabled ← orDefault defaults.enabled Document.boolean? enabled
      let defaultTtlSeconds ← orDefault defaults.defaultTtlSeconds number? defaultTtl
      let maxObjectSize ← orDefault defaults.maxObjectSize number? maxObjectSize
      let backend ← orDefault defaults.backend (backendOfDocument? (f.depth - 3)) backend
      some { enabled, defaultTtlSeconds, maxObjectSize, backend }
  | _ => none

/-- Settings of one cache of project data. -/
def metadataOfDocument? (f : Format) (d : Document) : Option MetadataConfig := do
  match ← d.record? f.byPosition ["ttl_secs", "max_entries"] with
  | [some ttl, some maxEntries] => some ⟨← number? ttl, ← number? maxEntries⟩
  | _ => none

/-- Settings of both caches of project data. -/
def projectOfDocument? (f : Format) (d : Document) : Option ProjectConfig := do
  let defaults : ProjectConfig := {}
  match ← d.record? f.byPosition ["active", "credential"] with
  | [active, credential] =>
      let active ← orDefault defaults.active (metadataOfDocument? f) active
      let credential ← orDefault defaults.credential (metadataOfDocument? f) credential
      some { active, credential }
  | _ => none

/-- All settings. -/
def ofDocument? (f : Format) (d : Document) : Option Config := do
  match ← d.record? f.byPosition ["response", "project"] with
  | [response, project] =>
      let response ← orDefault {} (responseOfDocument? f) response
      let project ← orDefault {} (projectOfDocument? f) project
      some { response, project }
  | _ => none

/-- The result of reading, a failure told as a fault. -/
def orFault {α : Type} (fault : Fault) : Option α → Except Fault α
  | some a => .ok a
  | none => .error fault

/-- The settings in a JSON text, not checked. -/
def readJson (s : String) : Except Fault Config :=
  orFault .record ((Json.readText s).bind (ofDocument? Format.json))

/-- The settings in a YAML text, if they have no problem. -/
def readYaml (s : String) : Except Fault Config := do
  let c ← orFault .outline ((Yaml.readText s).bind (ofDocument? Format.yaml))
  c.checked

/-- The settings of the project caches in a JSON text, not checked. -/
def readProjectJson (s : String) : Except Fault ProjectConfig :=
  orFault .record ((Json.readText s).bind (projectOfDocument? Format.json))

/-- The place for stored responses in a JSON text, not checked. -/
def readBackendJson (s : String) : Except Fault Backend :=
  orFault .record ((Json.readText s).bind (backendOfDocument? (Format.json.depth - 1)))

end GatewayCache.Config
