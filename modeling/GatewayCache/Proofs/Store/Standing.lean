/-
  GatewayCache.Proofs.Store.Standing

  What stands under a key of a store inside the process.

  An entry stands under a key after a run of operations when the run wrote it
  there with time left and neither wrote under the key again with time left nor
  removed the key since. Such a store may lose what stands, since it makes room
  and drops what has expired, but all that it holds stands: each operation keeps
  that up (`get?_step`), and so does a whole run (`standing_of_held`).
-/

import GatewayCache.Store.Memory
import Mathlib.Data.List.Induction

namespace GatewayCache

namespace ResponseStore

/-! ## Standing entries -/

/-- Whether an operation ends what stood under a key: a write under it that has
    time left, or a removal that covers it. -/
def Op.displaces (key : String) (now : Instant) : Op → Bool
  | .get _ => false
  | .set k e => k == key && e.isLive now
  | .purge k => k == key
  | .purgePrefix start => start.toList.isPrefixOf key.toList

/-- The entry that the operations wrote under the key last with time left, if no
    removal came after it. -/
def Standing (ops : List (Instant × Op)) (key : String) (e : Entry) : Prop :=
  ∃ before written after, ops = before ++ (written, .set key e) :: after ∧
    e.isLive written = true ∧ ∀ c ∈ after, c.2.displaces key c.1 = false

theorem standing_concat_set {e : Entry} {now : Instant} (live : e.isLive now = true)
    (ops : List (Instant × Op)) (key : String) : Standing (ops ++ [(now, .set key e)]) key e :=
  ⟨ops, now, [], rfl, live, by simp⟩

/-- What stands keeps standing when the next operation does not displace it. -/
theorem Standing.concat {ops : List (Instant × Op)} {key : String} {e : Entry} {now : Instant}
    {op : Op} (h : Standing ops key e) (hop : op.displaces key now = false) :
    Standing (ops ++ [(now, op)]) key e := by
  obtain ⟨before, written, after, rfl, live, kept⟩ := h
  refine ⟨before, written, after ++ [(now, op)], by simp, live, ?_⟩
  intro c hc
  rcases List.mem_append.1 hc with hc | hc
  · exact kept c hc
  · rw [List.mem_singleton.1 hc]
    exact hop

end ResponseStore

namespace MemoryStore

/-! ## What making room keeps -/

theorem get?_of_onlyLive {m : Dict Entry} {now : Instant} {k : String} {e : Entry}
    (h : (onlyLive m now).get? k = some e) : m.get? k = some e := by
  rw [onlyLive, Dict.get?_filter, Option.filter_eq_some_iff] at h
  exact h.1

theorem get?_of_dropSoonest {m : Dict Entry} {k : String} {e : Entry}
    (h : (dropSoonest m).get? k = some e) : m.get? k = some e := by
  unfold dropSoonest at h
  split at h
  · exact h
  · rw [Dict.get?_erase] at h
    split at h
    · cases h
    · exact h

theorem get?_of_dropSoonestTimes {n : Nat} {m : Dict Entry} {k : String} {e : Entry}
    (h : (dropSoonestTimes n m).get? k = some e) : m.get? k = some e := by
  induction n generalizing m with
  | zero => exact h
  | succ n ih => exact get?_of_dropSoonest (ih h)

/-- Making room only removes: what is left was there before. -/
theorem get?_of_makeRoom {bound : Nat} {m : Dict Entry} {key : String} {now : Instant} {k : String}
    {e : Entry} (h : (makeRoom bound m key now).get? k = some e) : m.get? k = some e := by
  unfold makeRoom at h
  split at h
  · exact h
  · exact get?_of_onlyLive (get?_of_dropSoonestTimes h)

/-! ## One operation -/

/-- What is held after a write was written, or was held under another key. -/
theorem get?_set {now : Instant} {key k : String} {e e' : Entry} {s : MemoryStore}
    (h : (set now key e' s).entries.get? k = some e) :
    (key = k ∧ e' = e ∧ e.isLive now = true) ∨
      (s.entries.get? k = some e ∧ (key == k && e'.isLive now) = false) := by
  unfold set at h
  split at h
  next live =>
    rw [Dict.get?_insert] at h
    split at h
    next hk =>
      obtain rfl := Option.some.inj h
      exact .inl ⟨hk.symm, rfl, live⟩
    next hk =>
      refine .inr ⟨?_, by simp [Ne.symm hk]⟩
      -- Without a bound nothing had to go; with one, some of the others may have.
      cases hb : s.bound with
      | none => simpa [hb] using h
      | some n => exact get?_of_makeRoom (by simpa [hb] using h)
  next dead => exact .inr ⟨h, by simp [dead]⟩

/-- What is held after an operation was written by it with time left, or was
    held before and not displaced. -/
theorem get?_step {now : Instant} {op : ResponseStore.Op} {s : MemoryStore} {k : String} {e : Entry}
    (h : (ResponseStore.step now op s).2.entries.get? k = some e) :
    (op = .set k e ∧ e.isLive now = true) ∨
      (s.entries.get? k = some e ∧ op.displaces k now = false) := by
  cases op with
  | get key =>
      have hget : (MemoryStore.get now key s).2.entries.get? k = some e := h
      refine .inr ⟨?_, rfl⟩
      unfold MemoryStore.get at hget
      split at hget
      · exact hget
      · split at hget
        · exact hget
        · rw [Dict.get?_erase] at hget
          split at hget
          · cases hget
          · exact hget
  | set key e' =>
      rcases get?_set h with ⟨rfl, rfl, live⟩ | held
      · exact .inl ⟨rfl, live⟩
      · exact .inr held
  | purge key =>
      have hpurge : (s.entries.erase key).get? k = some e := h
      rw [Dict.get?_erase] at hpurge
      split at hpurge
      · cases hpurge
      · next hk => exact .inr ⟨hpurge, by simpa [ResponseStore.Op.displaces] using Ne.symm hk⟩
  | purgePrefix start =>
      have hkept : (s.entries.filter fun k' _ => !start.toList.isPrefixOf k'.toList).get? k =
          some e := h
      rw [Dict.get?_filter, Option.filter_eq_some_iff] at hkept
      exact .inr ⟨hkept.1, by simpa [ResponseStore.Op.displaces] using hkept.2⟩

/-- What is read is held and has time left. -/
theorem get_eq_some {now : Instant} {key : String} {s : MemoryStore} {e : Entry}
    (h : (MemoryStore.get now key s).1 = some e) :
    s.entries.get? key = some e ∧ e.isLive now = true := by
  unfold MemoryStore.get at h
  split at h
  · cases h
  · next held =>
      split at h
      · next live =>
          obtain rfl := Option.some.inj h
          exact ⟨held, live⟩
      · cases h

/-- What is held with time left is read. -/
theorem get_of_held {s : MemoryStore} {now : Instant} {key : String} {e : Entry}
    (h : s.entries.get? key = some e) (hlive : e.isLive now = true) :
    (ResponseStore.get now key s).1 = some e := by
  show (MemoryStore.get now key s).1 = some e
  rw [MemoryStore.get, h]
  simp [hlive]

/-! ## Runs -/

theorem get?_ofBound (bound : Option Nat) (k : String) : (ofBound bound).entries.get? k = none := by
  cases bound <;> rfl

/-- All that a run leaves in the store stands. -/
theorem standing_of_held {bound : Option Nat} {ops : List (Instant × ResponseStore.Op)} {k : String}
    {e : Entry} (h : (ResponseStore.run ops (ofBound bound)).2.entries.get? k = some e) :
    ResponseStore.Standing ops k e := by
  induction ops using List.reverseRecOn with
  | nil =>
      have hnone : (ofBound bound).entries.get? k = some e := h
      rw [get?_ofBound] at hnone
      cases hnone
  | append_singleton ops c ih =>
      rw [ResponseStore.run, runSteps_concat] at h
      -- The last operation wrote the entry, or it was held before and stood then.
      rcases get?_step h with ⟨hop, live⟩ | ⟨held, kept⟩
      · obtain ⟨now, op⟩ := c
        rw [show op = .set k e from hop]
        exact ResponseStore.standing_concat_set live ops k
      · exact (ih held).concat kept

end MemoryStore

end GatewayCache
