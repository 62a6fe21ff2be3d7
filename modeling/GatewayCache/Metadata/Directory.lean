/-
  GatewayCache.Metadata.Directory

  A source of project data inside the process: a provider for a `CachedProjectStore`
  that answers from a list.

  It counts the questions that reach it, and can be made to fail. A project
  that is not listed is inactive and has no credential.
-/

import GatewayCache.Dict
import GatewayCache.Metadata.Projects

namespace GatewayCache

/-- The data of one project. -/
structure ProjectData where
  active : Bool
  credential : String
deriving DecidableEq, Repr

/-- Listed projects, the fault that every question meets if there is one, and
    the questions asked so far. -/
structure Directory where
  listed : Dict ProjectData := Dict.empty
  fault : Option Fault := none
  activeQuestions : Nat := 0
  credentialQuestions : Nat := 0

namespace Directory

/-- The data of a project, listed or not. -/
def dataOf (d : Directory) (id : String) : ProjectData := (d.listed.get? id).getD ⟨false, ""⟩

/-- An answer, unless every question meets a fault. -/
def orFault {α : Type} (d : Directory) (a : α) : Except Fault α :=
  match d.fault with
  | none => .ok a
  | some e => .error e

/-- Lists a project, or changes its data. -/
def upsert (d : Directory) (id : String) (data : ProjectData) : Directory :=
  { d with listed := d.listed.insert id data }

/-- Takes a project off the list; tells whether it was there. -/
def remove (d : Directory) (id : String) : Bool × Directory :=
  (d.listed.contains id, { d with listed := d.listed.erase id })

instance : ProjectSource Directory where
  active id d :=
    (d.orFault (d.dataOf id).active, { d with activeQuestions := d.activeQuestions + 1 })
  credential id d :=
    (d.orFault (d.dataOf id).credential,
      { d with credentialQuestions := d.credentialQuestions + 1 })

end Directory

end GatewayCache
