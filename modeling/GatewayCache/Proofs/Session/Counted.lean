/-
  GatewayCache.Proofs.Session.Counted

  What it takes that a counted write is a write.

  A call counts a response as stored only when it finishes a whole body and there is a
  scheduler, and such a call is always a poll (`finishing_of_stores_ne`). The entry is
  then written at once, or waits for the scheduler through all later calls
  (`Waits.run`), so in the end it is put under the key of its plan (`Written.store`).
  A store inside the process keeps it if its lifetime ends on the calendar. Beyond
  the calendar the entry has no expiry, and the write that was counted changes
  nothing (`counted_is_stored_on_calendar`, `not_counted_is_stored`).
-/

import GatewayCache.Proofs.ResponseCache.Plan
import GatewayCache.Proofs.Session.Served
import GatewayCache.Proofs.Store.Expiring

namespace GatewayCache

open GatewayCache.Http

/-! ## What is counted -/

theorem Counters.stores_countLookup (n : Counters) (outcome : Lookup) :
    (n.countLookup outcome).stores = n.stores := by
  cases outcome <;> rfl

/-- Only a whole body counts as stored, and only where there is a scheduler. -/
theorem ResponseCache.Settled.of_stores_ne {σ : Type} [ResponseStore σ] {now : Instant}
    {plan : StorePlan} {c c' : ResponseCache σ} {scheduler : Scheduler}
    {body : Option CapturedBody} {left : Option Entry}
    (h : Settled now plan c scheduler body left c') (hne : c'.counters.stores ≠ c.counters.stores) :
    ∃ done, body = some done ∧ done.isWhole = true ∧ scheduler ≠ .absent := by
  cases h with
  | nothing => exact absurd rfl hne
  | skipped => exact absurd rfl hne
  | written whole => exact ⟨_, rfl, whole, Scheduler.noConfusion⟩
  | left whole => exact ⟨_, rfl, whole, Scheduler.noConfusion⟩

namespace Session

variable {σ : Type} [ResponseStore σ]

/-- Only a step on a body that hands over the whole of it counts a response as stored. -/
theorem Moves.handed_of_stores_ne {now : Instant} {s t : Session σ} {op : Op} {reply : Reply}
    (move : Moves now s op reply t) (hne : t.cache.counters.stores ≠ s.cache.counters.stores) :
    ∃ i scheduler o b done, op = .onBody i scheduler o ∧ scheduler ≠ .absent ∧
      s.bodies[i]? = some b ∧ (b.capture.step o).2.1 = some done ∧ done.isWhole = true := by
  cases move with
  | bypassed => exact absurd (Counters.stores_countLookup _ _) hne
  | looked => exact absurd (Counters.stores_countLookup _ _) hne
  | @stepped i b scheduler left cache o hb settled =>
      obtain ⟨done, hd, whole, present⟩ := settled.of_stores_ne hne
      exact ⟨i, scheduler, o, b, done, rfl, present, hb, hd, whole⟩
  | _ => exact absurd rfl hne

/-! ## Finished bodies -/

/-- The next poll of the body at position `i` hands over the whole body. -/
structure Finishing (s : Session σ) (i : Nat) (b : OpenBody) (done : CapturedBody) : Prop where
  body : s.bodies[i]? = some b
  handed : (b.capture.step .poll).2.1 = some done
  whole : done.isWhole = true

/-- Such a step is a poll that finishes a whole body. -/
theorem finishing_of_stores_ne {s₀ : Session σ} {ops : List (Instant × Op)} {now : Instant}
    {op : Op} (h : Accounted s₀ ops (run ops s₀).2)
    (hne : ((run ops s₀).2.step now op).2.cache.counters.stores ≠
      (run ops s₀).2.cache.counters.stores) :
    ∃ i scheduler b done, op = .poll i scheduler ∧ scheduler ≠ .absent ∧
      Finishing (run ops s₀).2 i b done := by
  obtain ⟨i, scheduler, o, b, done, rfl, present, hb, hd, whole⟩ :=
    (moves_step now op _).handed_of_stores_ne hne
  obtain ⟨origin, ho⟩ := h.bodies i b hb
  -- A body that is closed before its end is not whole.
  obtain ⟨rfl, -⟩ := ho.completed hb hd whole now scheduler
  exact ⟨i, scheduler, b, done, rfl, present, hb, hd, whole⟩

/-! ## Entries that wait for the scheduler -/

/-- The body at position `i` was finished under the plan, and its entry waits. -/
def Waits (bodies : List OpenBody) (i : Nat) (plan : StorePlan) (e : Entry) : Prop :=
  ∃ b, bodies[i]? = some b ∧ b.plan = plan ∧ b.waiting = some e ∧ b.capture.finalized = true

/-- A change to one body leaves the entry waiting, unless it takes it from that
    body. -/
theorem Waits.set {bodies : List OpenBody} {i j : Nat} {plan : StorePlan} {e : Entry}
    {b : OpenBody} (h : Waits bodies i plan e)
    (hsame : j = i → b.plan = plan ∧ b.waiting = some e ∧ b.capture.finalized = true) :
    Waits (bodies.set j b) i plan e := by
  obtain ⟨b', hb', hrest⟩ := h
  by_cases hji : j = i
  · have hlt : j < bodies.length := hji ▸ (List.getElem?_eq_some_iff.1 hb').1
    exact ⟨b, by rw [← hji, List.getElem?_set_self hlt], hsame hji⟩
  · exact ⟨b', by rw [List.getElem?_set_ne hji, hb'], hrest⟩

section

variable {s : Session σ} {i : Nat} {plan : StorePlan} {e : Entry}

/-- The entry waits through every call but the scheduler's own. -/
theorem Waits.move {now : Instant} {op : Op} {reply : Reply} {t : Session σ}
    (h : Waits s.bodies i plan e) (move : Moves now s op reply t) (hop : op ≠ .land i) :
    Waits t.bodies i plan e := by
  have ⟨b, hb, hplan, hwaiting, hfinalized⟩ := h
  cases move with
  | opened stream made =>
      refine ⟨b, ?_, hplan, hwaiting, hfinalized⟩
      exact (List.getElem?_append_left (List.getElem?_eq_some_iff.1 hb).1).trans hb
  | stepped o hj settled =>
      refine h.set ?_
      rintro rfl
      obtain rfl := Option.some.inj (hj.symm.trans hb)
      -- A finalized capture hands over nothing, so nothing new is left to wait.
      obtain ⟨hnone, hstays⟩ := Capture.step_of_finalized hfinalized o
      rw [hnone] at settled
      obtain ⟨rfl, -⟩ := settled.of_none
      exact ⟨hplan, hwaiting, hstays⟩
  | landed hj =>
      refine h.set ?_
      rintro rfl
      exact absurd rfl hop
  | _ => exact h

theorem Waits.run (h : Waits s.bodies i plan e) {more : List (Instant × Op)}
    (hmore : ∀ c ∈ more, c.2 ≠ .land i) : Waits (run more s).2.bodies i plan e := by
  induction more generalizing s with
  | nil => exact h
  | cons c more ih =>
      exact ih (h.move (moves_step c.1 c.2 s) (hmore c List.mem_cons_self))
        fun d hd => hmore d (List.mem_cons_of_mem c hd)

end

/-- A whole body that is finished with the write deferred leaves its entry waiting. -/
theorem Finishing.waits {o : Origin} {s₀ s : Session σ} {ops : List (Instant × Op)} {i : Nat}
    {b : OpenBody} {done : CapturedBody} (h : Finishing s i b done)
    (ho : AccountsFor o s₀ ops i b) (now : Instant) :
    Waits (s.step now (.poll i .deferred)).2.bodies i b.plan
      (ResponseCache.plannedEntry now b.plan done.bytes) := by
  have hlt : i < s.bodies.length := (List.getElem?_eq_some_iff.1 h.body).1
  obtain ⟨n, -, -, -, finalized⟩ := ho.tracks.handed_of_step h.handed
  simp only [Session.step, h.body]
  refine ⟨_, List.getElem?_set_self hlt, rfl, ?_, finalized⟩
  have hpoll : b.capture.poll.2.1 = some done := h.handed
  simp only [ResponseCache.pollBody, hpoll, ResponseCache.settleIfDone, ResponseCache.settle,
    h.whole]
  rfl

/-! ## Writes -/

/-- How the write of a body is made that a poll finished at an instant, from the
    session before that poll: the session before the write, its instant, and the
    session after it. -/
inductive Written (s : Session σ) (finished : Instant) (i : Nat) :
    Scheduler → Session σ → Instant → Session σ → Prop where
  /-- The poll makes the write itself. -/
  | prompt : Written s finished i .prompt s finished (s.step finished (.poll i .prompt)).2
  /-- The scheduler makes it after any other calls. -/
  | deferred (more : List (Instant × Op)) (landed : Instant) (unlanded : ∀ c ∈ more, c.2 ≠ .land i) :
      Written s finished i .deferred (run more (s.step finished (.poll i .deferred)).2).2 landed
        ((run more (s.step finished (.poll i .deferred)).2).2.step landed (.land i)).2

/-- The write of a whole body puts its entry under the key of its plan. -/
theorem Written.store {o : Origin} {s₀ s before after : Session σ} {ops : List (Instant × Op)}
    {i : Nat} {b : OpenBody} {done : CapturedBody} {finished landed : Instant}
    {scheduler : Scheduler} (h : Written s finished i scheduler before landed after)
    (hf : Finishing s i b done) (ho : AccountsFor o s₀ ops i b) :
    after.cache.store = ResponseStore.set landed b.plan.key.hash
      (ResponseCache.plannedEntry finished b.plan done.bytes) before.cache.store := by
  cases h with
  | prompt =>
      have hpoll : b.capture.poll.2.1 = some done := hf.handed
      have hop : storeOp? finished (.poll i .prompt) s = some (.set b.plan.key.hash
          (ResponseCache.plannedEntry finished b.plan done.bytes)) := by
        simp [storeOp?, hf.body, settledOp?, hpoll, hf.whole]
      rw [step_store, hop]
      rfl
  | deferred more landed unlanded =>
      obtain ⟨b', hb', hplan, hwaiting, -⟩ := (hf.waits ho finished).run unlanded
      have hop : storeOp? landed (.land i) (run more (s.step finished (.poll i .deferred)).2).2 =
          some (.set b.plan.key.hash
            (ResponseCache.plannedEntry finished b.plan done.bytes)) := by
        simp [storeOp?, hb', hwaiting, hplan]
      rw [step_store, hop]
      rfl

/-! ## The end of the calendar -/

theorem Origin.Completed.decided {o : Origin} {s₀ : Session σ} {ops : List (Instant × Op)}
    {i n : Nat} {finished : Instant} (h : o.Completed s₀ ops i finished n) :
    s₀.cache.settings.decide o.request o.response = .store o.plan := by
  obtain ⟨before, scheduler, after, b, -, opened, -⟩ := h
  obtain ⟨earlier, now, j, later, -, -, planned⟩ := opened
  obtain ⟨first, decision, rest, -, -, decided⟩ := planned
  exact decided

/-- What became of the entry of a body, written before its lifetime has passed: it is
    held, with the end of the lifetime as its expiry, or there is no such instant on the
    calendar and the store is as it was before. -/
structure Origin.Lands (o : Origin) (finished : Instant) (n : Nat) (landed : Instant)
    (before after : Session MemoryStore) : Prop where
  held : (finished.advance o.plan.ttl).onCalendar = true →
    (o.entry finished n).expiresAt = some (finished.advance o.plan.ttl) ∧
      after.cache.store.entries.get? o.plan.key.hash = some (o.entry finished n) ∧
      (ResponseStore.get landed o.plan.key.hash after.cache.store).1 = some (o.entry finished n)
  lost : (finished.advance o.plan.ttl).onCalendar = false →
    (o.entry finished n).expiresAt = none ∧ after.cache.store = before.cache.store

theorem Origin.lands_of_set {o : Origin} {finished landed : Instant} {n : Nat}
    {before after : Session MemoryStore}
    (hset : after.cache.store = ResponseStore.set landed o.plan.key.hash (o.entry finished n)
      before.cache.store)
    (hlanded : landed.nanos < (finished.advance o.plan.ttl).nanos) :
    o.Lands finished n landed before after where
  held := by
    intro hcalendar
    have hexpiry : (o.entry finished n).expiresAt = some (finished.advance o.plan.ttl) :=
      Instant.after?_eq_some_iff.2 ⟨rfl, hcalendar⟩
    have live : (o.entry finished n).isLive landed = true :=
      Entry.isLive_iff.2 ⟨_, hexpiry, hlanded⟩
    have hheld : after.cache.store.entries.get? o.plan.key.hash = some (o.entry finished n) := by
      rw [hset]
      exact MemoryStore.get?_set_self live before.cache.store
    exact ⟨hexpiry, hheld, MemoryStore.get_of_held hheld live⟩
  lost := by
    intro hbeyond
    have hexpiry : (o.entry finished n).expiresAt = none := by
      show finished.after? o.plan.ttl = none
      rw [Instant.after?, hbeyond]
      rfl
    -- Without an expiry the entry passes for one whose lifetime is over.
    have hdead : (o.entry finished n).isLive landed = false := by
      rw [Entry.isLive_eq_false_iff, hexpiry]
      intro expiry h
      cases h
    refine ⟨hexpiry, ?_⟩
    rw [hset]
    show MemoryStore.set landed o.plan.key.hash (o.entry finished n) before.cache.store = _
    rw [MemoryStore.set, hdead]
    rfl

/-- A call that counts a response as stored polls a body up to its end, whole and
    under a plan with a positive lifetime. However its write is then made within the
    lifetime, be it at the same instant, right behind it the store holds the entry, with
    the end of the lifetime as its expiry, if that instant is on the calendar. Beyond the
    calendar the write leaves the store unchanged, although it was counted. -/
theorem counted_is_stored_on_calendar (store : MemoryStore) (settings : CacheSettings)
    (ops : List (Instant × Op)) (now : Instant) (op : Op)
    (h : ((run ops (start store settings)).2.step now op).2.cache.counters.stores ≠
      (run ops (start store settings)).2.cache.counters.stores) :
    ∃ (i : Nat) (scheduler : Scheduler) (o : Origin) (n : Nat),
      op = .poll i scheduler ∧ scheduler ≠ .absent ∧
      o.Completed (start store settings) (ops ++ [(now, op)]) i now n ∧
      settings.decide o.request o.response = .store o.plan ∧
      now.nanos < (now.advance o.plan.ttl).nanos ∧
      ∀ before landed after,
        Written (run ops (start store settings)).2 now i scheduler before landed after →
        landed.nanos < (now.advance o.plan.ttl).nanos → o.Lands now n landed before after := by
  have accounted := accounted_run store settings ops
  obtain ⟨i, scheduler, b, done, rfl, present, finishing⟩ := finishing_of_stores_ne accounted h
  obtain ⟨o, ho⟩ := accounted.bodies i b finishing.body
  obtain ⟨-, n, completed, hentry⟩ :=
    ho.completed finishing.body finishing.handed finishing.whole now scheduler
  have decided : settings.decide o.request o.response = .store o.plan := completed.decided
  -- No plan is made for a lifetime of zero, so the instant of the call is within it.
  have hlasts : o.plan.ttl.nanos ≠ 0 := by
    have plans := CacheSettings.decide_eq_store_iff.1 decided
    rw [plans.plan_eq]
    exact plans.lasts
  have hlonger : now.nanos < (now.advance o.plan.ttl).nanos := by
    simp only [Instant.advance]
    omega
  refine ⟨i, scheduler, o, n, rfl, present, completed, decided, hlonger, ?_⟩
  intro before landed after written hlanded
  have hset := written.store finishing ho
  rw [hentry, ho.plan] at hset
  exact o.lands_of_set hset hlanded

/-! ### Bodies of one chunk -/

/-- Calls at one instant that decide to store a response, wrap a body of one chunk and
    pass the chunk on, so that the next poll meets the end. -/
def passing (now : Instant) (response : Response) (chunk : List UInt8) : List (Instant × Op) :=
  [(now, .decide (rootRequest .empty) response), (now, .wrap 0 ⟨[.chunk chunk], 0⟩),
    (now, .poll 0 .deferred)]

/-- Where responses to the request for the root are written. -/
def rootKey : String := (CacheKey.derive (rootRequest .empty)).hash

/-- The scheduler makes the write at the instant at which it was counted. -/
theorem counted_is_stored_on_calendar_deferred :
    let before := (run (passing ⟨2⟩ ⟨200, .empty⟩ [1]) (fresh none ⟨true, ⟨60⟩, 2⟩)).2
    let counted := (before.step ⟨2⟩ (.poll 0 .deferred)).2
    let landed := (counted.step ⟨2⟩ (.land 0)).2
    counted.cache.counters.stores ≠ before.cache.counters.stores ∧
      (∃ o : Origin, ∃ n, o.Lands ⟨2⟩ n ⟨2⟩ counted landed) ∧
      (ResponseStore.get ⟨2⟩ rootKey landed.cache.store).1 =
        some ⟨200, .empty, [1], "", some ⟨62⟩⟩ := by
  intro before counted landed
  have hcounted : counted.cache.counters.stores ≠ before.cache.counters.stores := by
    decide +kernel
  have hread : (ResponseStore.get ⟨2⟩ rootKey landed.cache.store).1 =
      some ⟨200, .empty, [1], "", some ⟨62⟩⟩ := by
    decide +kernel
  obtain ⟨i, scheduler, o, n, hop, -, -, -, hlonger, lands⟩ :=
    counted_is_stored_on_calendar .unbounded ⟨true, ⟨60⟩, 2⟩ (passing ⟨2⟩ ⟨200, .empty⟩ [1]) ⟨2⟩
      (.poll 0 .deferred) hcounted
  obtain ⟨rfl, rfl⟩ := Op.poll.inj hop
  exact ⟨hcounted, ⟨o, n, lands _ _ _ (.deferred [] ⟨2⟩ (by simp)) hlonger⟩, hread⟩

/-- A response that may be kept for as many seconds as a number of 64 bits can say. -/
def endless : Response :=
  ⟨200, ⟨[(.cacheControl, ⟨Text.Utf8.encode "max-age=18446744073709551615", by decide⟩)]⟩⟩

/-- The session in which its body is about to end. -/
def endingEndless : Session MemoryStore :=
  (run (passing ⟨0⟩ endless [1]) (fresh none ⟨true, ⟨60⟩, 2⟩)).2

/-- A write that is counted and made at once need not leave anything under its key. -/
theorem not_counted_is_stored :
    ¬ ∀ (settings : CacheSettings) (ops : List (Instant × Op)) (now : Instant) (i : Nat)
      (b : OpenBody), (run ops (fresh none settings)).2.bodies[i]? = some b →
      ((run ops (fresh none settings)).2.step now (.poll i .prompt)).2.cache.counters.stores =
        (run ops (fresh none settings)).2.cache.counters.stores + 1 →
      ((run ops (fresh none settings)).2.step now (.poll i .prompt)).2.cache.store.entries.contains
        b.plan.key.hash = true := by
  intro h
  have hcounted : (endingEndless.step ⟨0⟩ (.poll 0 .prompt)).2.cache.counters.stores =
      endingEndless.cache.counters.stores + 1 := by
    decide +kernel
  have hempty : (endingEndless.step ⟨0⟩ (.poll 0 .prompt)).2.cache.store = .unbounded := by
    decide +kernel
  have hopen : endingEndless.bodies[0]?.isSome = true := by
    decide +kernel
  obtain ⟨b, hb⟩ := Option.isSome_iff_exists.1 hopen
  have hheld : (endingEndless.step ⟨0⟩ (.poll 0 .prompt)).2.cache.store.entries.contains
      b.plan.key.hash = true :=
    h ⟨true, ⟨60⟩, 2⟩ (passing ⟨0⟩ endless [1]) ⟨0⟩ 0 b hb hcounted
  rw [hempty] at hheld
  cases hheld

end Session

end GatewayCache
