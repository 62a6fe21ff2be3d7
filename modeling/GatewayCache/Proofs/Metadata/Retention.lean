/-
  GatewayCache.Proofs.Metadata.Retention

  How long a recency cache retains a value.

  An item that is not ended and has not expired is held, or it was displaced, and then
  as many other keys as there is room for were touched since its last touch (`Lost`);
  operations keep it so (`held_or_lost`). A value with time left for whose key fewer
  keys were touched is therefore read (`retains_recently_touched`). Beyond the end of
  the calendar nothing is written, so there the last value is not read, however few
  keys were touched (`not_retains_recently_touched`).
-/

import GatewayCache.Proofs.Metadata.Recency

namespace GatewayCache.RecencyCache

variable {ν : Type} {c : RecencyCache ν} {now : Instant} {key : String} {history : List String}
  {items : List (TimedItem ν)}

/-! ## Held or lost -/

/-- An item is gone, and as many other keys as there is room for were touched since the
    last touch of its key. -/
structure Lost (c : RecencyCache ν) (key : String) (history : List String) : Prop where
  absent : ∀ i ∈ c.items, i.key ≠ key
  crowded : c.capacity ≤ (touchedSince key history).dedup.length

/-- A key under which nothing is held is touched only by a write. -/
theorem touched_ne {op : Op ν} {touched : Option String} (moves : Moves now c op touched items)
    (stands : op.ends key = false) (absent : ∀ i ∈ c.items, i.key ≠ key) :
    touched ≠ some key := by
  have hwrite : ∀ {k : String}, (k == key) = false → (some k : Option String) ≠ some key :=
    fun hk he => beq_eq_false_iff_ne.1 hk (Option.some.inj he)
  cases moves with
  | used _ held => exact fun he => absent _ held (Option.some.inj he)
  | leftOut => exact hwrite stands
  | written => exact hwrite stands
  | displaced => exact hwrite stands
  | _ => exact (Option.some_ne_none key).symm

/-- What is gone stays gone until its key is written again. -/
theorem Lost.step (h : Lost c key history) (now : Instant) {op : Op ν}
    (stands : op.ends key = false) :
    Lost (c.step now op).2 key (history ++ (op.touched? (c.step now op).1).toList) := by
  have hmoves := moves_step now op c
  have hsince := touchedSince_subset (touched_ne hmoves stands h.absent) history
  constructor
  · intro i hi
    rcases written_or_kept hmoves hi with ⟨rfl, -⟩ | ⟨held, -⟩
    · exact beq_eq_false_iff_ne.1 stands
    · exact h.absent i held
  · rw [(settings_step now op c).1]
    exact Nat.le_trans h.crowded (length_dedup_le hsince)

/-- A write puts its item in front of items with other keys. -/
theorem exists_front_of_set {expiresAt : Instant} (dated : now.after? c.ttl = some expiresAt)
    (key : String) (value : ν) :
    ∃ rest, (c.set now key value).2.items = ⟨key, value, expiresAt⟩ :: rest ∧
      ∀ j ∈ rest, j.key ≠ key := by
  rcases items_set dated key value with ⟨-, hitems⟩ | ⟨absent, -, hitems⟩
  · exact ⟨_, hitems, fun j hj => (mem_others.1 hj).2⟩
  · exact ⟨_, hitems, fun j hj => find?_eq_none_iff.1 absent j (List.dropLast_subset _ hj)⟩

/-- After a write and operations that do not end it nor come after its expiry, its item
    is held or lost. -/
theorem held_or_lost (tidy : c.Tidy) (before after : List (Instant × Op ν)) (value : ν)
    {written expiresAt : Instant} (dated : written.after? c.ttl = some expiresAt)
    (stands : ∀ o ∈ after, o.2.ends key = false)
    (live : ∀ o ∈ after, o.1.nanos < expiresAt.nanos) :
    let ops := before ++ (written, .set key value) :: after
    Ahead key (touches ops c) (run ops c).2.items ∧
      (⟨key, value, expiresAt⟩ ∈ (run ops c).2.items ∨ Lost (run ops c).2 key (touches ops c)) := by
  intro ops
  induction after using List.reverseRecOn with
  | nil =>
      have httl : written.after? (run before c).2.ttl = some expiresAt := by
        rwa [(settings_run before c).2]
      obtain ⟨rest, hfront, hrest⟩ := exists_front_of_set httl key value
      have hrun : (run ops c).2.items = ⟨key, value, expiresAt⟩ :: rest := by
        rw [run, runSteps_concat]
        exact hfront
      rw [hrun]
      exact ⟨ahead_of_front (i := ⟨key, value, expiresAt⟩) hrest _, .inl List.mem_cons_self⟩
  | append_singleton after o ih =>
      obtain ⟨now, op⟩ := o
      obtain ⟨ahead, held⟩ := ih (fun o ho => stands o (by simp [ho])) fun o ho => live o (by simp [ho])
      have hop : op.ends key = false := stands (now, op) (by simp)
      have hsplit : ops = (before ++ (written, .set key value) :: after) ++ [(now, op)] := by
        simp [ops]
      rw [hsplit, run, runSteps_concat, touches_concat]
      generalize before ++ (written, .set key value) :: after = earlier at ahead held
      have htidy := tidy_run earlier tidy
      have hmoves := moves_step now op (run earlier c).2
      refine ⟨ahead.step hmoves fun hends => absurd hends (hop ▸ Bool.false_ne_true), ?_⟩
      rcases held with held | lost
      · have hlive : (⟨key, value, expiresAt⟩ : TimedItem ν).isLive now = true :=
          decide_eq_true (live (now, op) (by simp))
        rcases kept_or_displaced htidy hmoves held hop fun _ => hlive with kept | ⟨k, w, rfl, h⟩
        · exact .inl kept
        · refine .inr ⟨h.gone htidy, ?_⟩
          rw [(settings_step now (.set k w) (run earlier c).2).1]
          exact h.crowded htidy ahead
      · exact .inr (lost.step now hop)

/-! ## Reading and writing -/

/-- What is held with time left is read. -/
theorem get_of_held (tidy : c.Tidy) {i : TimedItem ν} (held : i ∈ c.items)
    (live : i.isLive now = true) : (c.get now i.key).1 = some i.value := by
  have hfind : c.find? i.key = some i := tidy.find?_eq_some_iff.2 ⟨held, rfl⟩
  rw [get, hfind]
  simp only [live, if_true]

/-- A write of the key takes one item away and leaves all others: the cache was full
    and did not hold the key, and the last touch of the item is the oldest one. -/
structure DisplacesOldest (room : Nat) (history : List String) (c c' : RecencyCache ν)
    (key : String) (i : TimedItem ν) : Prop where
  absent : c.find? key = none
  introduced : (c'.find? key).isSome = true
  full : c.size = room
  gone : c'.find? i.key = none
  alone : ∀ j ∈ c.items, j ≠ i → j ∈ c'.items
  touched : i.key ∈ history
  oldest : ∀ j ∈ c.items, j ≠ i → j.key ∈ touchedSince i.key history

theorem Displaces.displacesOldest {c c' : RecencyCache ν} {value : ν} {i : TimedItem ν}
    (h : Displaces now c key value i c'.items) (tidy : c.Tidy)
    (ahead : Ahead i.key history c.items) (touched : i.key ∈ history) :
    DisplacesOldest c.capacity history c c' key i where
  absent := h.absent
  introduced := h.introduced
  full := Nat.le_antisymm tidy.fits h.full
  gone := find?_eq_none_iff.2 (h.gone tidy)
  alone _ hj hne := h.alone hj hne
  touched := touched
  oldest j hj hne := h.oldest ahead j (h.mem_dropLast hj hne)

/-- A value whose time is not over is read, if since the last touch of its key fewer
    other keys were touched than there is room for. -/
theorem get_of_few_touches (tidy : c.Tidy) {ops : List (Instant × Op ν)}
    (past : ∀ o ∈ ops, o.1.nanos ≤ now.nanos) {value : ν} {written expiresAt : Instant}
    (last : LastWritten ops key value written) (dated : written.after? c.ttl = some expiresAt)
    (live : now.nanos < expiresAt.nanos)
    (few : (touchedSince key (touches ops c)).dedup.length < c.capacity) :
    ((run ops c).2.get now key).1 = some value := by
  obtain ⟨before, after, rfl, stands⟩ := last
  -- No operation after the write found its item expired.
  have hlive : ∀ o ∈ after, o.1.nanos < expiresAt.nanos := fun o ho =>
    Nat.lt_of_le_of_lt (past o (by simp [ho])) live
  rcases (held_or_lost tidy before after value dated stands hlive).2 with held | lost
  · exact get_of_held (tidy_run _ tidy) held (decide_eq_true live)
  · have hcrowded := lost.crowded
    rw [(settings_run _ c).1] at hcrowded
    exact absurd hcrowded (Nat.not_le_of_lt few)

/-- An item under another key that a write takes away was displaced, and its last touch
    is the oldest one. -/
theorem displacesOldest_of_gone (tidy : c.Tidy) (empty : c.items = [])
    {ops : List (Instant × Op ν)} (past : ∀ o ∈ ops, o.1.nanos ≤ now.nanos) {value : ν}
    {i : TimedItem ν} (held : i ∈ (run ops c).2.items) (other : i.key ≠ key)
    (gone : i ∉ ((run ops c).2.set now key value).2.items) :
    DisplacesOldest c.capacity (touches ops c) (run ops c).2 ((run ops c).2.set now key value).2
      key i := by
  have htidy := tidy_run ops tidy
  obtain ⟨hcapacity, httl⟩ := settings_run ops c
  have stands : (Op.set key value).ends i.key = false := beq_false_of_ne other.symm
  have reads : ¬ (Op.set key value).Reads i.key := by
    rintro (h | h) <;> cases h
  have hmoves := moves_set now key value (run ops c).2
  rcases kept_or_displaced htidy hmoves held stands (absurd · reads) with kept | ⟨k, w, hop, h⟩
  · exact absurd kept gone
  · obtain ⟨rfl, rfl⟩ := Op.set.inj hop
    -- The write has an expiry, and so had all writes before it.
    have hdated : ∀ o ∈ ops, (o.1.after? c.ttl).isSome = true := fun o ho =>
      Instant.after?_isSome_of_le (past o ho) (Nat.le_refl _) (httl ▸ h.dated)
    rw [← hcapacity]
    exact h.displacesOldest htidy (ahead_run empty hdated i.key) (mem_touches_of_held empty held)

/-- A write that introduces its key into a full cache takes an item away. -/
theorem exists_gone_of_introduced (tidy : c.Tidy) {value : ν} (absent : c.find? key = none)
    (introduced : ((c.set now key value).2.find? key).isSome = true)
    (full : c.size = c.capacity) : ∃ i ∈ c.items, i ∉ (c.set now key value).2.items := by
  cases hdated : now.after? c.ttl with
  | none =>
      rw [set_of_undated hdated, absent] at introduced
      cases introduced
  | some expiresAt =>
      obtain ⟨i, h⟩ := exists_displaces tidy value hdated absent (Nat.le_of_eq full.symm)
      exact ⟨i, h.held, fun hi => h.gone tidy i hi rfl⟩

/-- For any lifetime of values and any room, one place at least, and as long as no
    operation is later than now: a value that was written last under its key, and not
    removed since, is read until it expires, if since the last touch of its key fewer
    other keys were touched than there is room for. A write takes another item away
    only if the cache is full and does not hold the key, and then just the one whose
    last touch is oldest. -/
theorem retains_recently_touched (ttl : Span) (capacity : Nat) {ops : List (Instant × Op ν)}
    {now : Instant} (past : ∀ o ∈ ops, o.1.nanos ≤ now.nanos) (key : String) (value : ν) :
    let c := (run ops (create ttl capacity)).2
    let c' := (c.set now key value).2
    let history := touches ops (create ttl capacity)
    (∀ written expiresAt, LastWritten ops key value written →
      written.after? (ttl.min longestTtl) = some expiresAt → now.nanos < expiresAt.nanos →
      (touchedSince key history).dedup.length < max capacity 1 →
        (c.get now key).1 = some value) ∧
    (∀ i ∈ c.items, i.key ≠ key → i ∉ c'.items →
      DisplacesOldest (max capacity 1) history c c' key i) ∧
    (c.find? key = none → (c'.find? key).isSome = true → c.size = max capacity 1 →
      ∃ i ∈ c.items, i ∉ c'.items) := by
  intro c c' history
  have tidy : (create ttl capacity : RecencyCache ν).Tidy := tidy_create ttl capacity
  have hcapacity : c.capacity = max capacity 1 := (settings_run ops (create ttl capacity)).1
  refine ⟨?_, ?_, ?_⟩
  · intro written expiresAt last dated live few
    exact get_of_few_touches tidy past last dated live few
  · intro i held other gone
    exact displacesOldest_of_gone tidy rfl past held other gone
  · intro absent introduced full
    exact exists_gone_of_introduced (tidy_run ops tidy) absent introduced
      (full.trans hcapacity.symm)

/-- With room for two, the first of two keys is read before a third one is written. -/
def reread : List (Instant × Op Nat) :=
  [(⟨0⟩, .set "a" 1), (⟨1⟩, .set "b" 2), (⟨2⟩, .get "b"), (⟨3⟩, .get "a")]

/-- The third one displaces the second, and the first is still read. -/
theorem retains_recently_touched_reread :
    (∀ o ∈ reread, o.1.nanos ≤ 4) ∧
      ((run (reread ++ [(⟨4⟩, .set "c" 3)]) (create ⟨9⟩ 2)).2.get ⟨8⟩ "a").1 = some 1 ∧
      DisplacesOldest 2 ["a", "b", "b", "a"] (run reread (create ⟨9⟩ 2)).2
        ((run reread (create ⟨9⟩ 2)).2.set ⟨4⟩ "c" 3).2 "c" ⟨"b", 2, ⟨10⟩⟩ := by
  have past : ∀ o ∈ reread, o.1.nanos ≤ 4 := by decide
  have past' : ∀ o ∈ reread ++ [(⟨4⟩, .set "c" 3)], o.1.nanos ≤ 8 := by decide
  have last : LastWritten (reread ++ [(⟨4⟩, .set "c" 3)]) "a" 1 ⟨0⟩ := ⟨[], _, rfl, by decide⟩
  refine ⟨past, ?_, ?_⟩
  · exact (retains_recently_touched ⟨9⟩ 2 past' "a" 1).1 ⟨0⟩ ⟨9⟩ last (by decide) (by decide)
      (by decide)
  · exact (retains_recently_touched ⟨9⟩ 2 past "c" 3).2.1 ⟨"b", 2, ⟨10⟩⟩ (by decide) (by decide)
      (by decide)

/-- At the last second of the calendar a write is left out, although its lifetime has
    not passed and no other key is touched. -/
theorem not_retains_recently_touched :
    ¬ ∀ (ttl : Span) (capacity : Nat) (ops : List (Instant × Op Nat)) (now : Instant),
      0 < ttl.nanos → ops.Pairwise (fun a b => a.1.nanos ≤ b.1.nanos) →
      (∀ o ∈ ops, o.1.nanos ≤ now.nanos) → ∀ key value written,
      LastWritten ops key value written →
      now.nanos < written.nanos + min ttl.nanos longestTtl.nanos →
      (touchedSince key (touches ops (create ttl capacity))).dedup.length < max capacity 1 →
        ((run ops (create ttl capacity)).2.get now key).1 = some value := by
  intro h
  let dusk : Instant := ⟨Instant.lastSecond * nanosPerSecond⟩
  have hread := h (Span.ofSeconds 60) 1 [(dusk, .set "a" 1)] dusk (by decide)
    (List.pairwise_singleton _ _) (by decide) "a" 1 dusk ⟨[], [], rfl, nofun⟩ (by decide)
    (by decide)
  exact absurd hread (by decide)

end GatewayCache.RecencyCache
