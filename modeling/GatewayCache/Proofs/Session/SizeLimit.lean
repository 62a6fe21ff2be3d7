/-
  GatewayCache.Proofs.Session.SizeLimit

  The size limit, at the decision to store and at the capture.

  A capture keeps no more than its limit, so neither the entries that wait for the
  scheduler (`WaitingWithin.run`) nor those that are written have longer bodies. The
  decision to store compares the declared length with the same limit, and where the
  declaration is true it declines just the bodies that the capture would cut off. Both
  hold for every limit but zero: for a capture zero is no limit, so it passes any body
  on as a whole, while the decision declines every length above zero
  (`size_limit_kept_unless_zero`, `not_size_limit_kept`).
-/

import GatewayCache.Config
import GatewayCache.Proofs.Capture.Life
import GatewayCache.Proofs.Session.Counted

namespace GatewayCache

open GatewayCache.Http

/-! ## What a capture keeps -/

namespace Capture

variable {s : BodyStream} {limit n : Nat} {c : Capture} {body : CapturedBody}

theorem length_handed_le (hlimit : limit ≠ 0) (reachedEnd : Bool) :
    (handed s limit n reachedEnd).bytes.length ≤ limit := by
  show (upTo limit (s.content n)).length ≤ limit
  rw [upTo, if_neg hlimit, List.length_take]
  exact Nat.min_le_left _ _

theorem Tracks.length_le_of_step {op : Op} (h : Tracks s limit c) (hlimit : limit ≠ 0)
    (hb : (c.step op).2.1 = some body) : body.bytes.length ≤ limit := by
  obtain ⟨n, -, -, rfl, -⟩ := h.handed_of_step hb
  exact length_handed_le hlimit _

/-- A body that came to its end is not whole exactly if it exceeds a limit. -/
theorem CopyOf.isWhole_eq_false_iff {answered : List Polled} {reachedEnd : Prop}
    (h : CopyOf body limit answered reachedEnd) (complete : body.complete = true) :
    body.isWhole = false ↔ limit < body.total ∧ limit ≠ 0 := by
  rw [CapturedBody.isWhole, complete, Bool.true_and, Bool.not_eq_false', h.truncated]
  omega

end Capture

/-! ## What the decision declines -/

namespace CacheSettings

variable {s : CacheSettings} {request : Request} {response : Response}

/-- Nothing that is asked before the size speaks against storing, and the declared
    size does. -/
structure DeclinesForSize (s : CacheSettings) (request : Request) (response : Response) :
    Prop where
  takesPart : s.takesPart request = true
  cacheable : Policy.isCacheable request response = true
  tooLarge : s.declaredTooLarge response.fields = true

theorem DeclinesForSize.decide_eq (h : s.DeclinesForSize request response) :
    s.decide request response = .skip := by
  rw [decide, h.takesPart, h.cacheable, h.tooLarge]
  rfl

/-- Where the size is asked for and speaks for storing, only a response that is stale
    at once is not stored. -/
theorem exists_plan_of_not_declinesForSize (hpart : s.takesPart request = true)
    (hcacheable : Policy.isCacheable request response = true)
    (h : ¬ s.DeclinesForSize request response) (lasts : (s.lifetime request response).nanos ≠ 0) :
    ∃ plan, s.decide request response = .store plan := by
  have fits : s.declaredTooLarge response.fields = false := by
    rw [← Bool.not_eq_true]
    exact fun tooLarge => h ⟨hpart, hcacheable, tooLarge⟩
  exact ⟨_, decide_eq_store_iff.2 ⟨hpart, hcacheable, fits, lasts, rfl⟩⟩

theorem declaredTooLarge_iff {f : Fields} {n : Nat} (h : declaredLength? f = some n) :
    s.declaredTooLarge f = true ↔ s.maxObjectSize < n := by
  rw [declaredTooLarge, h]
  exact decide_eq_true_iff

end CacheSettings

/-- Checked settings limit the size. -/
theorem Config.maxObjectSize_ne_zero_of_check {c : Config} (h : c.check = .ok ()) :
    c.response.maxObjectSize ≠ 0 := by
  intro hzero
  have hproblem : c.problem? = some .zeroObjectSize := by
    rw [problem?, if_pos hzero]
    rfl
  rw [check, hproblem] at h
  cases h

/-! ## Entries within the limit -/

namespace Session

variable {σ : Type} [ResponseStore σ]

/-- The bodies of all entries that wait for the scheduler are within the limit. -/
def WaitingWithin (limit : Nat) (bodies : List OpenBody) : Prop :=
  ∀ (i : Nat) (b : OpenBody) (e : Entry), bodies[i]? = some b → b.waiting = some e →
    e.body.length ≤ limit

theorem WaitingWithin.set {limit i : Nat} {bodies : List OpenBody} {b : OpenBody}
    (h : WaitingWithin limit bodies) (hb : ∀ e, b.waiting = some e → e.body.length ≤ limit) :
    WaitingWithin limit (bodies.set i b) := by
  intro j b' e hj he
  rw [List.getElem?_set] at hj
  split at hj
  · split at hj
    · obtain rfl := Option.some.inj hj
      exact hb e he
    · cases hj
  · exact h j b' e hj he

section

variable {s₀ : Session σ} {ops : List (Instant × Op)}

/-- Every call leaves the entries that wait within the limit. -/
theorem WaitingWithin.move {now : Instant} {op : Op} {reply : Reply} {t : Session σ}
    (accounted : Accounted s₀ ops (run ops s₀).2) (hlimit : s₀.cache.settings.maxObjectSize ≠ 0)
    (h : WaitingWithin s₀.cache.settings.maxObjectSize (run ops s₀).2.bodies)
    (move : Moves now (run ops s₀).2 op reply t) :
    WaitingWithin s₀.cache.settings.maxObjectSize t.bodies := by
  cases move with
  | opened stream made =>
      intro i b e hi he
      rcases Nat.lt_or_ge i (run ops s₀).2.bodies.length with hlt | hge
      · rw [List.getElem?_append_left hlt] at hi
        exact h i b e hi he
      · -- A body that was just opened leaves nothing to wait.
        rw [List.getElem?_append_right hge, List.getElem?_singleton] at hi
        split at hi
        · obtain rfl := Option.some.inj hi
          cases he
        · cases hi
  | @stepped i b scheduler left cache o hb settled =>
      obtain ⟨origin, ho⟩ := accounted.bodies i b hb
      refine h.set fun e he => ?_
      rcases left_or_waiting he with rfl | hold
      · obtain ⟨done, hd, -, rfl⟩ := settled.left_eq
        exact ho.tracks.length_le_of_step hlimit hd
      · exact h i b e hb hold
  | landed hb waits => exact h.set fun e he => by cases he
  | _ => exact h

theorem WaitingWithin.run (store : σ) {settings : CacheSettings}
    (hlimit : settings.maxObjectSize ≠ 0) (ops : List (Instant × Op)) :
    WaitingWithin settings.maxObjectSize (run ops (start store settings)).2.bodies := by
  induction ops using List.reverseRecOn with
  | nil =>
      intro i b e hi he
      cases hi
  | append_singleton ops c ih =>
      rw [Session.run, runSteps_concat]
      exact WaitingWithin.move (accounted_run store settings ops) hlimit ih
        (moves_step c.1 c.2 _)

/-- What a call writes, unless it is a direct write, is within the limit. -/
theorem length_le_of_write (accounted : Accounted s₀ ops (run ops s₀).2)
    (hlimit : s₀.cache.settings.maxObjectSize ≠ 0)
    (waiting : WaitingWithin s₀.cache.settings.maxObjectSize (run ops s₀).2.bodies)
    {now : Instant} {op : Op} {key : String} {e : Entry}
    (hw : storeOp? now op (run ops s₀).2 = some (.set key e)) (hop : op ≠ .store (.set key e)) :
    e.body.length ≤ s₀.cache.settings.maxObjectSize := by
  cases writes_of_storeOp? hw with
  | direct => exact absurd rfl hop
  | @finished i b o done hb hd whole =>
      obtain ⟨origin, ho⟩ := accounted.bodies i b hb
      exact ho.tracks.length_le_of_step hlimit hd
  | @landed i b e hb waits => exact waiting i b e hb waits

end

/-! ## Both checks -/

/-- For all settings that a cache can be built with: in any session with them no
    capture writes a body above the limit, unless the limit is zero. And where the
    decision to store comes to the size, a body that comes to its end, however it is
    polled, closed and dropped, and whose length was declared as it is, is not whole
    exactly if the decision declines it for its size and the limit is not zero. Checked
    settings have no limit of zero. -/
theorem size_limit_kept_unless_zero (store : σ) (config : ResponseConfig) :
    (∀ (ops : List (Instant × Op)) (now : Instant) (op : Op) (key : String) (e : Entry),
      storeOp? now op (run ops (start store config.settings)).2 = some (.set key e) →
      op ≠ .store (.set key e) → config.maxObjectSize ≠ 0 →
      e.body.length ≤ config.maxObjectSize) ∧
    (∀ (request : Request) (response : Response) (stream : BodyStream) (steps : List Capture.Op)
      (body : CapturedBody),
      config.settings.takesPart request = true → Policy.isCacheable request response = true →
      ((Capture.ofStream stream config.settings.maxObjectSize).run
        (Capture.untilDropped steps)).2.1 = [body] →
      body.complete = true → CacheSettings.declaredLength? response.fields = some body.total →
      (body.isWhole = false ↔
        config.settings.DeclinesForSize request response ∧ config.maxObjectSize ≠ 0) ∧
      (config.settings.DeclinesForSize request response →
        config.settings.decide request response = .skip) ∧
      (¬ config.settings.DeclinesForSize request response →
        (config.settings.lifetime request response).nanos ≠ 0 →
        ∃ plan, config.settings.decide request response = .store plan)) ∧
    ∀ c : Config, c.response = config → c.check = .ok () → config.maxObjectSize ≠ 0 := by
  refine ⟨?_, ?_, ?_⟩
  · intro ops now op key e hw hop hlimit
    exact length_le_of_write (accounted_run store config.settings ops) hlimit
      (WaitingWithin.run store hlimit ops) hw hop
  · intro request response stream steps body hpart hcacheable hhanded complete truthful
    -- The one body that is handed over is a copy up to the limit of what was answered.
    obtain ⟨before, op, after, hsteps, ends⟩ := Capture.exists_endsFlow stream steps
    obtain ⟨body', -, -, hrun, copy⟩ := ends.run config.settings.maxObjectSize after
    rw [← hsteps, hhanded] at hrun
    obtain rfl : body = body' := (List.cons.inj hrun).1
    have hdeclines : config.settings.DeclinesForSize request response ↔
        config.settings.maxObjectSize < body.total := by
      rw [← CacheSettings.declaredTooLarge_iff truthful]
      exact ⟨fun h => h.tooLarge, fun tooLarge => ⟨hpart, hcacheable, tooLarge⟩⟩
    refine ⟨?_, CacheSettings.DeclinesForSize.decide_eq,
      CacheSettings.exists_plan_of_not_declinesForSize hpart hcacheable⟩
    -- Both sides now compare the length with the limit; only the capture exempts zero.
    rw [copy.isWhole_eq_false_iff complete, hdeclines]
    rfl
  · rintro c rfl hcheck
    exact Config.maxObjectSize_ne_zero_of_check hcheck

/-! ### Bodies of one and two bytes -/

/-- Settings with a size limit and defaults for all else. -/
def limitedTo (n : Nat) : ResponseConfig := { maxObjectSize := n }

/-- The entry that is made of a body of one byte at the start of time. -/
def oneByteEntry : Entry := ⟨200, .empty, [1], "", some ⟨300000000000⟩⟩

/-- The poll that finishes the body of one byte writes the entry. -/
theorem storeOp?_passing (n : Nat) (h : n = 0 ∨ n = 1) :
    storeOp? ⟨0⟩ (.poll 0 .prompt)
        (run (passing ⟨0⟩ ⟨200, .empty⟩ [1]) (fresh none (limitedTo n).settings)).2 =
      some (.set rootKey oneByteEntry) := by
  rcases h with rfl | rfl
  · decide +kernel
  · decide +kernel

/-- A response that declares a body of two bytes. -/
def twoBytes : Response := ⟨200, ⟨[(.contentLength, ⟨[0x32], by decide⟩)]⟩⟩

/-- With a limit of one byte a body of one byte is written, and a body of two bytes
    is declined and is not whole. -/
theorem size_limit_kept_unless_zero_one :
    storeOp? ⟨0⟩ (.poll 0 .prompt)
        (run (passing ⟨0⟩ ⟨200, .empty⟩ [1]) (fresh none (limitedTo 1).settings)).2 =
      some (.set rootKey oneByteEntry) ∧
    oneByteEntry.body.length ≤ (limitedTo 1).maxObjectSize ∧
    (limitedTo 1).settings.DeclinesForSize (rootRequest .empty) twoBytes ∧
    (Capture.handed ⟨[.chunk [1, 2]], 0⟩ 1 1 true).isWhole = false := by
  have kept := size_limit_kept_unless_zero MemoryStore.unbounded (limitedTo 1)
  have hwrite := storeOp?_passing 1 (.inr rfl)
  have hpart : (limitedTo 1).settings.takesPart (rootRequest .empty) = true := by decide +kernel
  have hcacheable : Policy.isCacheable (rootRequest .empty) twoBytes = true := by decide +kernel
  have hhanded : ((Capture.ofStream ⟨[.chunk [1, 2]], 0⟩ (limitedTo 1).settings.maxObjectSize).run
      (Capture.untilDropped [.poll, .poll])).2.1 =
        [Capture.handed ⟨[.chunk [1, 2]], 0⟩ 1 1 true] := by decide
  have hdeclines : (limitedTo 1).settings.DeclinesForSize (rootRequest .empty) twoBytes :=
    ⟨hpart, hcacheable, by decide +kernel⟩
  have hwhole := (kept.2.1 _ twoBytes _ _ _ hpart hcacheable hhanded (by decide)
    (by decide +kernel)).1.2 ⟨hdeclines, by decide⟩
  exact ⟨hwrite, kept.1 _ _ _ _ _ hwrite (by simp) (by decide), hdeclines, hwhole⟩

/-- With a limit of zero a capture writes a body of one byte. -/
theorem not_size_limit_kept :
    ¬ ∀ (config : ResponseConfig) (ops : List (Instant × Op)) (now : Instant) (op : Op)
      (key : String) (e : Entry),
      storeOp? now op (run ops (fresh none config.settings)).2 = some (.set key e) →
      op ≠ .store (.set key e) → e.body.length ≤ config.maxObjectSize := by
  intro h
  have hle := h (limitedTo 0) _ _ _ _ _ (storeOp?_passing 0 (.inl rfl)) (by simp)
  exact absurd hle (by decide)

end Session

end GatewayCache
