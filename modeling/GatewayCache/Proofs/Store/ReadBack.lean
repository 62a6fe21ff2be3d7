/-
  GatewayCache.Proofs.Store.ReadBack

  Entries are read back from a store on top of a key-value store.

  What a store on top of a key-value store reads is the record under the full key
  (`KeySpace.get_eq_of_answer`), and what it writes is put there (`KeySpace.set_of_remaining`).
  An entry with time left is put under its full key for at least one second
  (`Entry.secondsToHold_pos`), so a key-value store that keeps what it is given
  (`KeyValueStore.Keeps`) still has the record when it is read, and the record gives
  the entry but for its expiry (`read_back_without_expiry`).
-/

import GatewayCache.Proofs.Entry.Record
import GatewayCache.Proofs.KeyValue.Exact
import GatewayCache.Store.Networked

namespace GatewayCache

/-! ## Key-value stores that keep what they are given -/

namespace KeyValueStore

/-- Bytes that were just put under a key, for a second or more, are what is read
    from there. -/
def Keeps (κ : Type) [KeyValueStore κ] : Prop :=
  ∀ key value seconds (kv : κ), 0 < seconds →
    (get key (setFor key value seconds kv).2).1 = .ok (some value)

theorem View.Exact.keeps {κ : Type} [KeyValueStore κ] {v : View κ} (exact : v.Exact) :
    Keeps κ := by
  intro key value seconds kv _
  rw [exact.get, exact.holdings_setFor, Dict.get?_insert, if_pos rfl]
  rfl

end KeyValueStore

/-! ## Seconds left -/

theorem Span.secondsRoundedUp_pos {d : Span} (h : 0 < d.nanos) : 0 < d.secondsRoundedUp := by
  obtain ⟨hreach, -⟩ := d.secondsRoundedUp_bounds
  by_contra hzero
  rw [Nat.eq_zero_of_not_pos hzero, Nat.zero_mul] at hreach
  exact absurd h (Nat.not_lt_of_le hreach)

theorem Span.secondsToHold_pos {d : Span} (h : 0 < d.nanos) : 0 < d.secondsToHold := by
  rw [d.secondsToHold_eq]
  exact secondsRoundedUp_pos (Nat.lt_min.2 ⟨h, by decide⟩)

/-- What is left of the time of a live entry rounds up to at least one second. -/
theorem Entry.secondsToHold_pos {e : Entry} {now : Instant} {left : Span}
    (h : e.remaining? now = some left) : 0 < left.secondsToHold := by
  obtain ⟨expiry, -, huntil⟩ := Option.bind_eq_some_iff.1 h
  obtain ⟨hlater, hleft⟩ := Instant.until?_eq_some_iff.1 huntil
  exact Span.secondsToHold_pos (by omega)

/-! ## Reading back -/

namespace KeySpace

variable {κ : Type} [KeyValueStore κ]

/-- A record that is found under the full key is what is read; where none is found,
    nothing is. -/
theorem get_eq_of_answer {space : KeySpace} {key : String} {kv kv' : κ}
    {found : Option (List UInt8)}
    (h : KeyValueStore.get (space.key key) kv = (.ok found, kv')) :
    space.get key kv = (found.bind Entry.read, kv') := by
  rw [get, h]
  cases found <;> rfl

theorem get_of_answer {space : KeySpace} {key : String} {kv : κ} {found : Option (List UInt8)}
    (h : (KeyValueStore.get (space.key key) kv).1 = .ok found) :
    (space.get key kv).1 = found.bind Entry.read :=
  congrArg Prod.fst (get_eq_of_answer (Prod.ext h rfl))

/-- An entry with time left is put under the full key for its seconds left. -/
theorem set_of_remaining {e : Entry} {now : Instant} {left : Span}
    (h : e.remaining? now = some left) (space : KeySpace) (key : String) (kv : κ) :
    space.set now key e kv =
      (KeyValueStore.setFor (space.key key) e.write left.secondsToHold kv).2 := by
  rw [set, h]

theorem get_set (keeps : KeyValueStore.Keeps κ) (space : KeySpace) {now : Instant} {e : Entry}
    (live : e.isLive now = true) (key : String) (kv : κ) :
    (space.get key (space.set now key e kv)).1 = Entry.read e.write := by
  obtain ⟨left, hleft⟩ := Option.isSome_iff_exists.1 live
  have hkept := keeps (space.key key) e.write left.secondsToHold kv
    (Entry.secondsToHold_pos hleft)
  rw [set_of_remaining hleft, get_of_answer hkept, Option.bind_some]

end KeySpace

namespace NetworkedStore

/-- What a key-value store holds as the record of an entry is read as the entry,
    its expiry left to that store. -/
theorem get_of_held {κ : Type} [KeyValueStore κ] {s : NetworkedStore κ} {key : String} {e : Entry}
    (h : (KeyValueStore.get (s.space.key key) s.kv).1 = .ok (some e.write)) (now : Instant) :
    (ResponseStore.get now key s).1 = some { e with expiresAt := none } := by
  show (s.space.get key s.kv).1 = _
  rw [KeySpace.get_of_answer h, Option.bind_some, Entry.read_write]

/-- Whatever its status, fields, body, variants and expiry, an entry is read back from
    its record with all but the expiry. So on a key-value store that keeps what it is
    given, it is read back right after it was written with time left. -/
theorem read_back_without_expiry (e : Entry) :
    Entry.read e.write = some { e with expiresAt := none } ∧
      ∀ (κ : Type) [KeyValueStore κ], KeyValueStore.Keeps κ →
        ∀ (store : NetworkedStore κ) (now : Instant) (key : String), e.isLive now = true →
          (ResponseStore.get now key (ResponseStore.set now key e store)).1 =
            some { e with expiresAt := none } := by
  refine ⟨Entry.read_write e, fun κ _ keeps store now key live => ?_⟩
  exact (KeySpace.get_set keeps store.space live key store.kv).trans (Entry.read_write e)

/-- An entry whose texts need escapes, with a field without values and a body that
    ends in the middle of a group of base64. -/
def quoted : Entry :=
  ⟨65535, Dict.ofList [("a\"\\", ["\u0001", "é\n"]), ("empty", [])], [255, 0], "\t😀", some ⟨2⟩⟩

/-- It is read back in its last nanosecond, over what was there before. -/
theorem read_back_without_expiry_quoted :
    KeyValueStore.Keeps Table ∧ quoted.isLive ⟨1⟩ = true ∧
      (ResponseStore.get ⟨1⟩ "k" (ResponseStore.set ⟨1⟩ "k" quoted
        (⟨{ start := "p:" }, ⟨Dict.ofList [("p:k", ⟨[0], 9⟩)], []⟩⟩ : NetworkedStore Table))).1 =
        some { quoted with expiresAt := none } := by
  have keeps : KeyValueStore.Keeps Table := Table.exact.keeps
  have live : quoted.isLive ⟨1⟩ = true := by decide
  exact ⟨keeps, live, (read_back_without_expiry quoted).2 Table keeps _ ⟨1⟩ "k" live⟩

end NetworkedStore

end GatewayCache
