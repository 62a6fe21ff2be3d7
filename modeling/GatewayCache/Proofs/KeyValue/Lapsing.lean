/-
  GatewayCache.Proofs.KeyValue.Lapsing

  Key-value stores that drop what they hold in time.

  Bytes put for some seconds are read until the seconds have passed, and not any more
  behind that (`KeyValueStore.Lapses`). Only lengths of time count, so the clock of the
  store may differ from the one of its user. A table of leases is such a store
  (`LeaseTable.lapses`).
-/

import GatewayCache.Clock
import GatewayCache.Dict
import GatewayCache.KeyValue
import GatewayCache.Text.Glob

namespace GatewayCache

/-- Where time passes by `wait`, what was put for a number of seconds stands that long.
    Whether it still stands in the very moment when the seconds are over is left open. -/
structure KeyValueStore.Lapses {κ : Type} [KeyValueStore κ] (wait : Span → κ → κ) : Prop where
  stands : ∀ key value seconds (d : Span) (kv kv' : κ), 0 < seconds →
    KeyValueStore.setFor key value seconds kv = (.ok (), kv') →
    d.nanos < (Span.ofSeconds seconds).nanos →
    (KeyValueStore.get key (wait d kv')).1 = .ok (some value)
  lapsed : ∀ key value seconds (d : Span) (kv kv' : κ), 0 < seconds →
    KeyValueStore.setFor key value seconds kv = (.ok (), kv') →
    (Span.ofSeconds seconds).nanos < d.nanos →
    (KeyValueStore.get key (wait d kv')).1 = .ok none

/-! ## Leases -/

/-- Bytes, and the instant when they are given up. -/
structure Lease where
  value : List UInt8
  ends : Instant

/-- Leases by key, and the clock that ends them. -/
structure LeaseTable where
  clock : Instant
  leases : Dict Lease

namespace LeaseTable

/-- The table some time later. -/
def wait (d : Span) (t : LeaseTable) : LeaseTable := { t with clock := t.clock.advance d }

/-- The leases that have not ended. -/
def running (t : LeaseTable) : Dict Lease :=
  t.leases.filter fun _ l => t.clock.nanos < l.ends.nanos

instance : KeyValueStore LeaseTable where
  get key t := (.ok ((t.running.get? key).map (·.value)), t)
  setFor key value seconds t :=
    let lease := ⟨value, t.clock.advance (.ofSeconds seconds)⟩
    (.ok (), { t with leases := t.leases.insert key lease })
  delete keys t :=
    (.ok (t.running.filter fun k _ => keys.contains k).size,
      { t with leases := t.leases.filter fun k _ => !keys.contains k })
  scan _ pattern _ t :=
    (.ok ⟨0, t.running.keys.filter fun k => Text.Glob.isMatch pattern.toList k.toList⟩, t)

/-- After some time a lease is read if it was made for longer. -/
theorem get_wait {key : String} {value : List UInt8} {seconds : Nat} {t t' : LeaseTable}
    (put : KeyValueStore.setFor key value seconds t = (.ok (), t')) (d : Span) :
    (KeyValueStore.get key (t'.wait d)).1 =
      .ok (if d.nanos < (Span.ofSeconds seconds).nanos then some value else none) := by
  cases put
  show Except.ok (((wait d _).running.get? key).map _) = _
  simp only [running, wait, Dict.get?_filter, Dict.get?_insert, if_true, Option.filter_some,
    Instant.advance, Nat.add_lt_add_iff_left, decide_eq_true_eq]
  split <;> rfl

theorem lapses : KeyValueStore.Lapses wait where
  stands key value seconds d t t' _ put within := by
    rw [get_wait put, if_pos within]
  lapsed key value seconds d t t' _ put past := by
    rw [get_wait put, if_neg (Nat.lt_asymm past)]

end LeaseTable

end GatewayCache
