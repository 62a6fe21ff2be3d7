/-
  GatewayCache.Proofs.Store.Sweep

  Sweeps that come to an end.

  A sweep goes on until a page names no further cursor or a scan fails, so whether it
  ends is up to the key-value store. `Sweeps` says how a sweep ends, whatever the pages
  hold. A sweep that ends has just the result that it ends with (`Sweeps.sweep_eq`), and
  so one at most (`Sweeps.unique`).
-/

import GatewayCache.Store.Networked

namespace GatewayCache.KeySpace

variable {κ : Type} [KeyValueStore κ] {pattern : String} {count cursor removed : Nat} {kv : κ}

/-- How a sweep from a cursor on ends. -/
inductive Sweeps (pattern : String) (count : Nat) : (cursor removed : Nat) → κ → Nat × κ → Prop
  | failed {cursor removed kv fault scanned}
      (scan : KeyValueStore.scan cursor pattern count kv = (.error fault, scanned)) :
      Sweeps pattern count cursor removed kv (removed, scanned)
  | last {cursor removed kv page scanned gone kv'}
      (scan : KeyValueStore.scan cursor pattern count kv = (.ok page, scanned))
      (discarded : discard page.keys scanned = (gone, kv')) (ends : page.next = 0) :
      Sweeps pattern count cursor removed kv (removed + gone, kv')
  | more {cursor removed kv page scanned gone kv' result}
      (scan : KeyValueStore.scan cursor pattern count kv = (.ok page, scanned))
      (discarded : discard page.keys scanned = (gone, kv')) (goesOn : page.next ≠ 0)
      (rest : Sweeps pattern count page.next (removed + gone) kv' result) :
      Sweeps pattern count cursor removed kv result

theorem Sweeps.sweep_eq {result : Nat × κ} (h : Sweeps pattern count cursor removed kv result) :
    sweep pattern count cursor removed kv = result := by
  induction h with
  | failed scan =>
      rw [KeySpace.sweep_eq, sweepPage, scan]
  | last scan discarded ends =>
      rw [KeySpace.sweep_eq, sweepPage, scan]
      simp only [discarded, if_pos ends]
  | more scan discarded goesOn _ ih =>
      rw [KeySpace.sweep_eq, sweepPage, scan]
      simp only [discarded, if_neg goesOn]
      exact ih

/-- A sweep ends with one result at most. -/
theorem Sweeps.unique {a b : Nat × κ} (ha : Sweeps pattern count cursor removed kv a)
    (hb : Sweeps pattern count cursor removed kv b) : a = b :=
  ha.sweep_eq.symm.trans hb.sweep_eq

end GatewayCache.KeySpace
