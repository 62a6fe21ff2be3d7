/-
  GatewayCache.Proofs.Store.Expiring

  A store inside the process as a map whose entries expire.

  What is read stands under its key and has time left, whatever the bound. Without a
  bound nothing ever makes room, so an operation keeps what has time left and is not
  displaced (`held_step`). The clock does not go back, so what has time left had it
  all along, and what stands with time left is held (`held_of_standing`). Expired
  entries that linger are never seen: reading gives exactly what stands and has time
  left (`get_run_gives_standing`).
-/

import GatewayCache.Proofs.Store.Standing

namespace GatewayCache

/-- Time left later is time left before. -/
theorem Entry.isLive_of_le {e : Entry} {t u : Instant} (h : t.nanos ≤ u.nanos)
    (live : e.isLive u = true) : e.isLive t = true := by
  obtain ⟨expiry, hexpiry, hlt⟩ := isLive_iff.1 live
  exact isLive_iff.2 ⟨expiry, hexpiry, Nat.lt_of_le_of_lt h hlt⟩

theorem Entry.isLive_eq_false_iff {e : Entry} {now : Instant} :
    e.isLive now = false ↔ ∀ expiry, e.expiresAt = some expiry → expiry.nanos ≤ now.nanos := by
  rw [← Bool.not_eq_true, isLive_iff]
  simp only [not_exists, not_and, Nat.not_lt]

namespace ResponseStore

/-! ## Histories -/

/-- The clock does not go back during the operations, nor up to `now`. -/
structure Chronological (ops : List (Instant × Op)) (now : Instant) : Prop where
  ordered : ops.Pairwise fun a b => a.1.nanos ≤ b.1.nanos
  past : ∀ c ∈ ops, c.1.nanos ≤ now.nanos

theorem Chronological.of_concat {ops : List (Instant × Op)} {c : Instant × Op} {now : Instant}
    (h : Chronological (ops ++ [c]) now) : Chronological ops c.1 ∧ c.1.nanos ≤ now.nanos := by
  obtain ⟨ordered, -, hlast⟩ := List.pairwise_append.1 h.ordered
  exact ⟨⟨ordered, fun d hd => hlast d hd c List.mem_cons_self⟩, h.past c (by simp)⟩

/-- What stands was written by the last operation, or stood before and was not
    displaced. -/
theorem Standing.of_concat {ops : List (Instant × Op)} {now : Instant} {op : Op} {key : String}
    {e : Entry} (h : Standing (ops ++ [(now, op)]) key e) :
    (op = .set key e ∧ e.isLive now = true) ∨
      (Standing ops key e ∧ op.displaces key now = false) := by
  obtain ⟨before, written, after, hsplit, live, kept⟩ := h
  rcases List.eq_nil_or_concat after with rfl | ⟨earlier, last, rfl⟩
  · obtain ⟨-, hlast⟩ := List.append_inj' hsplit rfl
    obtain ⟨rfl, rfl⟩ := Prod.mk.inj (List.cons.inj hlast).1
    exact .inl ⟨rfl, live⟩
  · rw [List.concat_eq_append, ← List.cons_append, ← List.append_assoc] at hsplit
    obtain ⟨rfl, hlast⟩ := List.append_inj' hsplit rfl
    obtain rfl := (List.cons.inj hlast).1
    exact .inr ⟨⟨before, written, earlier, rfl, live, fun c hc => kept c (by simp [hc])⟩,
      kept (now, op) (by simp)⟩

end ResponseStore

namespace MemoryStore

/-- What is written with time left is held. -/
theorem get?_set_self {now : Instant} {key : String} {e : Entry} (live : e.isLive now = true)
    (s : MemoryStore) : (set now key e s).entries.get? key = some e := by
  unfold set
  rw [if_pos live, Dict.get?_insert, if_pos rfl]

/-! ## Without a bound -/

theorem bound_step (now : Instant) (op : ResponseStore.Op) (s : MemoryStore) :
    (ResponseStore.step now op s).2.bound = s.bound := by
  cases op with
  | get key =>
      show (MemoryStore.get now key s).2.bound = s.bound
      unfold MemoryStore.get
      split
      · rfl
      · split <;> rfl
  | set key e =>
      show (set now key e s).bound = s.bound
      unfold set
      split <;> rfl
  | purge key => rfl
  | purgePrefix start => rfl

theorem bound_run (ops : List (Instant × ResponseStore.Op)) (s : MemoryStore) :
    (ResponseStore.run ops s).2.bound = s.bound :=
  runSteps_induction (P := fun t => t.bound = s.bound)
    (fun now op t h => (bound_step now op t).trans h) ops rfl

/-- An operation on a store without a bound keeps what has time left and is not
    displaced. -/
theorem held_step {now : Instant} {op : ResponseStore.Op} {s : MemoryStore} {k : String} {e : Entry}
    (unbounded : s.bound = none) (held : s.entries.get? k = some e) (live : e.isLive now = true)
    (kept : op.displaces k now = false) :
    (ResponseStore.step now op s).2.entries.get? k = some e := by
  cases op with
  | get key =>
      show (MemoryStore.get now key s).2.entries.get? k = some e
      unfold MemoryStore.get
      split
      · exact held
      · next found hfound =>
          split
          · exact held
          · next expired =>
              -- Only what has expired is dropped, so it is not what is held under `k`.
              have hne : k ≠ key := by
                rintro rfl
                obtain rfl := Option.some.inj (held.symm.trans hfound)
                exact expired live
              rw [Dict.get?_erase, if_neg hne, held]
  | set key e' =>
      show (set now key e' s).entries.get? k = some e
      unfold set
      split
      · next live' =>
          have hne : k ≠ key := by
            rintro rfl
            simp [ResponseStore.Op.displaces, live'] at kept
          simp only [unbounded]
          rw [Dict.get?_insert, if_neg hne, held]
      · exact held
  | purge key =>
      show (s.entries.erase key).get? k = some e
      have hne : k ≠ key := by
        rintro rfl
        simp [ResponseStore.Op.displaces] at kept
      rw [Dict.get?_erase, if_neg hne, held]
  | purgePrefix start =>
      show (s.entries.filter fun k' _ => !start.toList.isPrefixOf k'.toList).get? k = some e
      have hkept : start.toList.isPrefixOf k.toList = false := kept
      rw [Dict.get?_filter, held, Option.filter_some, hkept]
      rfl

/-- What stands and has time left is held. -/
theorem held_of_standing {ops : List (Instant × ResponseStore.Op)} {now : Instant} {k : String}
    {e : Entry} (chronological : ResponseStore.Chronological ops now)
    (standing : ResponseStore.Standing ops k e) (live : e.isLive now = true) :
    (ResponseStore.run ops unbounded).2.entries.get? k = some e := by
  induction ops using List.reverseRecOn generalizing now with
  | nil =>
      obtain ⟨before, written, after, hsplit, -⟩ := standing
      cases before <;> cases hsplit
  | append_singleton ops c ih =>
      obtain ⟨earlier, hle⟩ := chronological.of_concat
      have hbound : (ResponseStore.run ops unbounded).2.bound = none := bound_run ops unbounded
      rw [ResponseStore.run, runSteps_concat]
      rcases standing.of_concat with ⟨hop, hlive⟩ | ⟨stood, kept⟩
      · rw [hop]
        exact get?_set_self hlive (ResponseStore.run ops unbounded).2
      · have hlive := Entry.isLive_of_le hle live
        exact held_step hbound (ih earlier stood hlive) hlive kept

/-! ## Reading -/

/-- After any operations a store inside the process reads only what was written last
    with time left, was not removed since and has not expired; without a bound, and
    as long as the clock does not go back, it reads all of that. A write without time
    left changes nothing. -/
theorem get_run_gives_standing (bound : Option Nat) (ops : List (Instant × ResponseStore.Op))
    (now : Instant) (key : String) (e : Entry) :
    ((ResponseStore.get now key (ResponseStore.run ops (ofBound bound)).2).1 = some e →
      ResponseStore.Standing ops key e ∧
        ∃ expiry, e.expiresAt = some expiry ∧ now.nanos < expiry.nanos) ∧
    (bound = none → ResponseStore.Chronological ops now → ResponseStore.Standing ops key e →
      (∃ expiry, e.expiresAt = some expiry ∧ now.nanos < expiry.nanos) →
      (ResponseStore.get now key (ResponseStore.run ops (ofBound bound)).2).1 = some e) ∧
    ((∀ expiry, e.expiresAt = some expiry → expiry.nanos ≤ now.nanos) →
      ∀ s : MemoryStore, ResponseStore.set now key e s = s) := by
  refine ⟨fun hread => ?_, fun hbound chronological standing hexpiry => ?_, fun hexpired s => ?_⟩
  · obtain ⟨held, live⟩ := get_eq_some hread
    exact ⟨standing_of_held held, Entry.isLive_iff.1 live⟩
  · have live := Entry.isLive_iff.2 hexpiry
    subst hbound
    exact get_of_held (held_of_standing chronological standing live) live
  · show set now key e s = s
    unfold set
    rw [Entry.isLive_eq_false_iff.2 hexpired]
    rfl

/-- A second write under one key that comes at the instant when its entry expires. -/
def lateWrite : List (Instant × ResponseStore.Op) :=
  [(⟨1⟩, .set "k" ⟨200, .empty, [1], "", some ⟨9⟩⟩),
    (⟨2⟩, .set "k" ⟨200, .empty, [2], "", some ⟨2⟩⟩), (⟨2⟩, .purge "other")]

/-- It leaves the earlier entry to be read. -/
theorem get_run_gives_standing_after_late_write :
    ResponseStore.Chronological lateWrite ⟨8⟩ ∧
      (ResponseStore.get ⟨8⟩ "k" (ResponseStore.run lateWrite (ofBound none)).2).1 =
        some ⟨200, .empty, [1], "", some ⟨9⟩⟩ := by
  have chronological : ResponseStore.Chronological lateWrite ⟨8⟩ := ⟨by decide, by decide⟩
  have standing : ResponseStore.Standing lateWrite "k" ⟨200, .empty, [1], "", some ⟨9⟩⟩ :=
    ⟨[], ⟨1⟩, _, rfl, by decide, by decide⟩
  exact ⟨chronological, (get_run_gives_standing none lateWrite ⟨8⟩ "k" _).2.1 rfl chronological
    standing ⟨⟨9⟩, rfl, by decide⟩⟩

end MemoryStore

end GatewayCache
