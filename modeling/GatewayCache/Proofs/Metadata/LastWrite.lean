/-
  GatewayCache.Proofs.Metadata.LastWrite

  What a recency cache gives was written last and has not expired.

  Every item stems from the last write under its key and expires when the lifetime of
  values has passed since then, however often it was read (`stems_run`): a write puts
  a new item in the place of the old one, and nothing else changes a value or an
  expiry. So a value that is read is the one written last, and its time is not over
  (`gives_last_written`).
-/

import GatewayCache.Proofs.Metadata.Items

namespace GatewayCache.RecencyCache

variable {ν : Type} {c : RecencyCache ν} {key : String}

/-! ## Last writes -/

/-- Whether an operation ends what was written under a key: a write under it, its
    removal, or the removal of all items. -/
def Op.ends (key : String) : Op ν → Bool
  | .get _ => false
  | .brokenGet _ => false
  | .set k _ => k == key
  | .purge k => k == key
  | .clear => true

/-- The last write under a key put this value there at this instant, and no removal
    came after it. -/
def LastWritten (ops : List (Instant × Op ν)) (key : String) (value : ν) (written : Instant) :
    Prop :=
  ∃ before after, ops = before ++ (written, .set key value) :: after ∧
    ∀ o ∈ after, o.2.ends key = false

theorem lastWritten_concat_set (ops : List (Instant × Op ν)) (key : String) (value : ν)
    (now : Instant) : LastWritten (ops ++ [(now, .set key value)]) key value now :=
  ⟨ops, [], rfl, nofun⟩

theorem LastWritten.concat {ops : List (Instant × Op ν)} {value : ν} {written now : Instant}
    {op : Op ν} (h : LastWritten ops key value written) (hop : op.ends key = false) :
    LastWritten (ops ++ [(now, op)]) key value written := by
  obtain ⟨before, after, rfl, kept⟩ := h
  refine ⟨before, after ++ [(now, op)], by simp, fun o ho => ?_⟩
  rcases List.mem_append.1 ho with ho | ho
  · exact kept o ho
  · rw [List.mem_singleton.1 ho]
    exact hop

/-! ## Items and their writes -/

theorem Op.Reads.ends_eq_false {op : Op ν} {k : String} (h : op.Reads k) (key : String) :
    op.ends key = false := by
  rcases h with rfl | rfl <;> rfl

/-- An item that is there after an operation was written by it, or was there before
    and was not ended by it, unless the operation came too late for the calendar. -/
theorem written_or_kept {now : Instant} {op : Op ν} {touched : Option String}
    {items : List (TimedItem ν)} (moves : Moves now c op touched items) {i : TimedItem ν}
    (hi : i ∈ items) :
    (op = .set i.key i.value ∧ now.after? c.ttl = some i.expiresAt) ∨
      (i ∈ c.items ∧ (op.ends i.key = true → now.after? c.ttl = none)) := by
  -- What does not end the key keeps the item without a condition.
  have stands : op.ends i.key = false → op.ends i.key = true → now.after? c.ttl = none := by
    intro hfalse htrue
    rw [hfalse] at htrue
    cases htrue
  cases moves with
  | missed reads => exact .inr ⟨hi, stands (reads.ends_eq_false i.key)⟩
  | used reads held =>
      refine .inr ⟨?_, stands (reads.ends_eq_false i.key)⟩
      rcases List.mem_cons.1 hi with rfl | hi
      · exact held
      · exact (mem_others.1 hi).1
  | expired reads => exact .inr ⟨(mem_others.1 hi).1, stands (reads.ends_eq_false i.key)⟩
  | leftOut undated => exact .inr ⟨hi, fun _ => undated⟩
  | written dated =>
      rcases List.mem_cons.1 hi with rfl | hi
      · exact .inl ⟨rfl, dated⟩
      · obtain ⟨held, hne⟩ := mem_others.1 hi
        exact .inr ⟨held, stands (beq_false_of_ne hne.symm)⟩
  | displaced dated absent =>
      rcases List.mem_cons.1 hi with rfl | hi
      · exact .inl ⟨rfl, dated⟩
      · have held : i ∈ c.items := List.dropLast_subset _ hi
        have hne : i.key ≠ _ := find?_eq_none_iff.1 absent i held
        exact .inr ⟨held, stands (beq_false_of_ne hne.symm)⟩
  | purged =>
      obtain ⟨held, hne⟩ := mem_others.1 hi
      exact .inr ⟨held, stands (beq_false_of_ne hne.symm)⟩
  | cleared => cases hi

/-- An item stems from the last write under its key, and expires when the lifetime of
    values has passed since. -/
def Stems (ops : List (Instant × Op ν)) (ttl : Span) (i : TimedItem ν) : Prop :=
  ∃ written, LastWritten ops i.key i.value written ∧ i.expiresAt = written.advance ttl

/-- Every item that a run leaves in an empty cache stems from its last write. -/
theorem stems_run {ops : List (Instant × Op ν)} (empty : c.items = [])
    (dated : ∀ o ∈ ops, (o.1.after? c.ttl).isSome = true) {i : TimedItem ν}
    (hi : i ∈ (run ops c).2.items) : Stems ops c.ttl i := by
  induction ops using List.reverseRecOn with
  | nil =>
      have hnone : i ∈ c.items := hi
      rw [empty] at hnone
      cases hnone
  | append_singleton ops o ih =>
      obtain ⟨now, op⟩ := o
      have httl := (settings_run ops c).2
      rw [run, runSteps_concat] at hi
      rcases written_or_kept (moves_step now op (run ops c).2) hi with
        ⟨rfl, hexpiry⟩ | ⟨held, kept⟩
      · rw [httl] at hexpiry
        exact ⟨now, lastWritten_concat_set ops i.key i.value now,
          (Instant.after?_eq_some_iff.1 hexpiry).1⟩
      · have hnow : (now.after? (run ops c).2.ttl).isSome = true := by
          rw [httl]
          exact dated (now, op) (by simp)
        have stands : op.ends i.key = false := by
          rw [← Bool.not_eq_true]
          intro hends
          rw [kept hends] at hnow
          cases hnow
        obtain ⟨written, last, hexpiry⟩ := ih (fun o ho => dated o (by simp [ho])) held
        exact ⟨written, last.concat stands, hexpiry⟩

/-! ## Reading -/

/-- A value that is read is that of a live item under the key. -/
theorem exists_item_of_get {now : Instant} {value : ν} (h : (c.get now key).1 = some value) :
    ∃ i ∈ c.items, i.key = key ∧ i.value = value ∧ i.isLive now = true := by
  unfold get at h
  split at h
  · cases h
  · next i hfind =>
      obtain ⟨held, hkey⟩ := mem_of_find? hfind
      split at h
      · next live => exact ⟨i, held, hkey, Option.some.inj h, live⟩
      · cases h

/-- Whatever the lifetime and the room of the cache and whatever was done to it while
    the calendar reached one year further: a value that is read is the one that was
    written last under its key, no removal came after it, and it was written less than
    the lifetime ago, of which one year counts at most. -/
theorem gives_last_written (ttl : Span) (capacity : Nat) {ops : List (Instant × Op ν)}
    (dated : ∀ o ∈ ops, (o.1.after? longestTtl).isSome = true) {now : Instant} {value : ν}
    (h : ((run ops (create ttl capacity)).2.get now key).1 = some value) :
    ∃ written, LastWritten ops key value written ∧
      now.nanos < written.nanos + min ttl.nanos longestTtl.nanos := by
  obtain ⟨i, hi, rfl, rfl, live⟩ := exists_item_of_get h
  have hdated : ∀ o ∈ ops, (o.1.after? (ttl.min longestTtl)).isSome = true := fun o ho =>
    Instant.after?_isSome_of_le (Nat.le_refl _) (Nat.min_le_right _ _) (dated o ho)
  obtain ⟨written, last, hexpiry⟩ := stems_run (c := create ttl capacity) rfl hdated hi
  refine ⟨written, last, ?_⟩
  have hlive : now.nanos < i.expiresAt.nanos := of_decide_eq_true live
  rwa [hexpiry] at hlive

/-- A key that is written, displaced, written again and read, with room for one. -/
def rewritten : List (Instant × Op Nat) :=
  [(⟨0⟩, .set "a" 1), (⟨1⟩, .set "b" 2), (⟨2⟩, .get "a"), (⟨2⟩, .set "a" 3), (⟨3⟩, .get "a"),
    (⟨3⟩, .purge "b")]

/-- In its last nanosecond the second value is read. -/
theorem gives_last_written_rewritten :
    (∀ o ∈ rewritten, (o.1.after? longestTtl).isSome = true) ∧
      ((run rewritten (create ⟨5⟩ 0)).2.get ⟨6⟩ "a").1 = some 3 ∧
      ∃ written, LastWritten rewritten "a" 3 written ∧ 6 < written.nanos + 5 := by
  have dated : ∀ o ∈ rewritten, (o.1.after? longestTtl).isSome = true := by decide
  have hread : ((run rewritten (create ⟨5⟩ 0)).2.get ⟨6⟩ "a").1 = some 3 := by decide
  obtain ⟨written, last, hlt⟩ := gives_last_written ⟨5⟩ 0 dated hread
  have hle : written.nanos + min 5 longestTtl.nanos ≤ written.nanos + 5 :=
    Nat.add_le_add_left (Nat.min_le_left _ _) _
  exact ⟨dated, hread, written, last, Nat.lt_of_lt_of_le hlt hle⟩

end GatewayCache.RecencyCache
