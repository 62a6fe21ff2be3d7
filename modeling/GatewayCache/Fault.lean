/-
  GatewayCache.Fault

  What can go wrong outside of lookups, and how it is told.

  Lookups never fail. Faults come from the configuration, from building a
  store, and from the source of project data. A fault may say which field it is
  about, what exactly was wrong and which part noticed it.
-/

namespace GatewayCache

/-- Where a fault comes from. -/
structure FaultContext where
  field : Option String := none
  details : Option String := none
  source : Option String := none
deriving DecidableEq, Repr, Inhabited

/-- A fault. Three kinds carry a message of this library; the others come from
    reading foreign text or from a server. -/
inductive Fault where
  | configuration (message : String) (context : FaultContext)
  | provider (message : String) (context : FaultContext)
  | backend (message : String) (context : FaultContext)
  /-- A server refused a command or gave no usable reply. -/
  | server
  /-- A record or a configuration in JSON could not be read. -/
  | record
  /-- A configuration in YAML could not be read. -/
  | outline
deriving DecidableEq, Repr

namespace FaultContext

/-- The parts that are present, each with its label. -/
def parts (c : FaultContext) : List String :=
  (c.field.map ("field: " ++ ·)).toList ++ (c.details.map ("details: " ++ ·)).toList
    ++ (c.source.map ("source: " ++ ·)).toList

/-- The parts in brackets, or nothing when there are none. -/
def text (c : FaultContext) : String :=
  if c.parts.isEmpty then "" else " (" ++ String.intercalate ", " c.parts ++ ")"

end FaultContext

namespace Fault

/-- The text of a fault, where this library words it. -/
def text? : Fault → Option String
  | .configuration m c => some ("Configuration error: " ++ m ++ c.text)
  | .provider m c => some ("Metadata provider error: " ++ m ++ c.text)
  | .backend m c => some ("Cache backend error: " ++ m ++ c.text)
  | .server => none
  | .record => none
  | .outline => none

/-- The context of a fault, where it has one. -/
def context? : Fault → Option FaultContext
  | .configuration _ c => some c
  | .provider _ c => some c
  | .backend _ c => some c
  | .server => none
  | .record => none
  | .outline => none

end Fault

end GatewayCache
