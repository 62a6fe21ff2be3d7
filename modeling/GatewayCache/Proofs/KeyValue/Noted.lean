/-
  GatewayCache.Proofs.KeyValue.Noted

  Key-value stores together with the calls that were made to them.

  Any store can be watched in this way (`Noted`). It answers as it would on its own, and
  a call is noted whether it succeeds or fails.
-/

import GatewayCache.KeyValue.Rehearsal

namespace GatewayCache

/-- A key-value store, and the calls that were made to it. -/
structure Noted (κ : Type) where
  kv : κ
  calls : List KeyValueCall

namespace Noted

variable {κ : Type} [KeyValueStore κ]

/-- An answer of the store, and its call noted. -/
def answered {α : Type} (call : KeyValueCall) (calls : List KeyValueCall) (answer : α × κ) :
    α × Noted κ :=
  (answer.1, ⟨answer.2, calls ++ [call]⟩)

instance : KeyValueStore (Noted κ) where
  get key s := answered (.get key) s.calls (KeyValueStore.get key s.kv)
  setFor key value seconds s :=
    answered (.setFor key value seconds) s.calls (KeyValueStore.setFor key value seconds s.kv)
  delete keys s := answered (.delete keys) s.calls (KeyValueStore.delete keys s.kv)
  scan cursor pattern count s :=
    answered (.scan cursor pattern count) s.calls (KeyValueStore.scan cursor pattern count s.kv)

theorem scan_eq {cursor count : Nat} {pattern : String} {kv kv' : κ}
    {answer : Except Fault ScanPage}
    (h : KeyValueStore.scan cursor pattern count kv = (answer, kv')) (calls : List KeyValueCall) :
    KeyValueStore.scan cursor pattern count (⟨kv, calls⟩ : Noted κ) =
      (answer, ⟨kv', calls ++ [.scan cursor pattern count]⟩) := by
  show answered _ calls (KeyValueStore.scan cursor pattern count kv) = _
  rw [h]
  rfl

theorem delete_eq {keys : List String} {kv kv' : κ} {answer : Except Fault Nat}
    (h : KeyValueStore.delete keys kv = (answer, kv')) (calls : List KeyValueCall) :
    KeyValueStore.delete keys (⟨kv, calls⟩ : Noted κ) =
      (answer, ⟨kv', calls ++ [.delete keys]⟩) := by
  show answered _ calls (KeyValueStore.delete keys kv) = _
  rw [h]
  rfl

end Noted

end GatewayCache
