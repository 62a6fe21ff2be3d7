/-
  GatewayCache.Proofs.Session.Origin

  Where the entries that captures write come from.

  An `Origin` names what stands behind a body of a session: the exchange that
  was decided on, the plan made for it and the stream that was wrapped. Each
  call keeps the session accounted for (`Accounted.move`): every plan was made by
  a decision, every body was opened under such a plan and follows its stream, and
  an entry that waits for the scheduler was made of a whole body. So a write that
  is not a direct one stores what an exchange and its whole body make
  (`origin_of_write`).
-/

import GatewayCache.Proofs.Capture.Progress
import GatewayCache.Proofs.Session.History

namespace GatewayCache.Session

open GatewayCache.Http

variable {σ : Type} [ResponseStore σ]

/-! ## Origins -/

/-- The calls made the plan at position `j`: they decided to store the response
    to the request. -/
def Planned (s₀ : Session σ) (ops : List (Instant × Op)) (j : Nat) (request : Request)
    (response : Response) (plan : StorePlan) : Prop :=
  ∃ before now after, ops = before ++ (now, .decide request response) :: after ∧
    (run before s₀).2.plans.length = j ∧
    s₀.cache.settings.decide request response = .store plan

/-- What stands behind a body: the exchange, the plan made for it, and the
    stream. -/
structure Origin where
  request : Request
  response : Response
  plan : StorePlan
  stream : BodyStream

namespace Origin

/-- The calls opened the body at position `i`: they wrapped the stream under a
    plan that they had made before. -/
def Opened (o : Origin) (s₀ : Session σ) (ops : List (Instant × Op)) (i : Nat) : Prop :=
  ∃ before now j after, ops = before ++ (now, .wrap j o.stream) :: after ∧
    (run before s₀).2.bodies.length = i ∧ Planned s₀ before j o.request o.response o.plan

/-- The calls finished the body at position `i` at an instant: it had passed on
    the first `n` answers of its stream, none of them a failure, and then a poll
    met the end of the stream. -/
def Completed (o : Origin) (s₀ : Session σ) (ops : List (Instant × Op)) (i : Nat)
    (finished : Instant) (n : Nat) : Prop :=
  ∃ before scheduler after b, ops = before ++ (finished, .poll i scheduler) :: after ∧
    o.Opened s₀ before i ∧ (run before s₀).2.bodies[i]? = some b ∧
    b.capture.stream = some (o.stream.after n) ∧ (o.stream.after n).poll.1 = .ended ∧
    ∀ a ∈ o.stream.passed n, a.isFailure = false

/-- The entry made of the whole body. -/
def entry (o : Origin) (finished : Instant) (n : Nat) : Entry :=
  ResponseCache.plannedEntry finished o.plan (o.stream.content n)

end Origin

/-! ### Later calls change no origin -/

section

variable {s₀ : Session σ} {ops : List (Instant × Op)} {o : Origin} {i j n : Nat}
  {finished : Instant} {request : Request} {response : Response} {plan : StorePlan}

theorem Planned.append (h : Planned s₀ ops j request response plan)
    (more : List (Instant × Op)) : Planned s₀ (ops ++ more) j request response plan := by
  obtain ⟨before, now, after, rfl, rest⟩ := h
  exact ⟨before, now, after ++ more, by simp, rest⟩

theorem Origin.Opened.append (h : o.Opened s₀ ops i) (more : List (Instant × Op)) :
    o.Opened s₀ (ops ++ more) i := by
  obtain ⟨before, now, j, after, rfl, rest⟩ := h
  exact ⟨before, now, j, after ++ more, by simp, rest⟩

theorem Origin.Completed.append (h : o.Completed s₀ ops i finished n)
    (more : List (Instant × Op)) : o.Completed s₀ (ops ++ more) i finished n := by
  obtain ⟨before, scheduler, after, b, rfl, rest⟩ := h
  exact ⟨before, scheduler, after ++ more, b, by simp, rest⟩

end

/-! ## Accounted sessions -/

/-- A body that was opened as its origin says, follows its stream, and leaves to
    the scheduler only what it was completed with. -/
structure AccountsFor (o : Origin) (s₀ : Session σ) (ops : List (Instant × Op)) (i : Nat)
    (b : OpenBody) : Prop where
  plan : b.plan = o.plan
  opened : o.Opened s₀ ops i
  tracks : Capture.Tracks o.stream s₀.cache.settings.maxObjectSize b.capture
  waiting : ∀ e, b.waiting = some e →
    ∃ finished n, o.Completed s₀ ops i finished n ∧ e = o.entry finished n

/-- Every plan was made by a decision, and every body has an origin. -/
structure Accounted (s₀ : Session σ) (ops : List (Instant × Op)) (s : Session σ) : Prop where
  plans : ∀ j p, s.plans[j]? = some p → ∃ request response, Planned s₀ ops j request response p
  bodies : ∀ i b, s.bodies[i]? = some b → ∃ o, AccountsFor o s₀ ops i b

theorem AccountsFor.append {o : Origin} {s₀ : Session σ} {ops : List (Instant × Op)} {i : Nat}
    {b : OpenBody} (h : AccountsFor o s₀ ops i b) (more : List (Instant × Op)) :
    AccountsFor o s₀ (ops ++ more) i b where
  plan := h.plan
  opened := h.opened.append more
  tracks := h.tracks
  waiting e he := by
    obtain ⟨finished, n, hc, rfl⟩ := h.waiting e he
    exact ⟨finished, n, hc.append more, rfl⟩

theorem accounted_start (store : σ) (settings : CacheSettings) :
    Accounted (start store settings) [] (start store settings) where
  plans j p h := by cases h
  bodies i b h := by cases h

section

variable {s₀ : Session σ} {ops : List (Instant × Op)} {s : Session σ}

/-- Calls that leave plans and bodies alone keep the session accounted for. -/
theorem Accounted.mono (h : Accounted s₀ ops s) {t : Session σ} (more : List (Instant × Op))
    (hp : t.plans = s.plans) (hb : t.bodies = s.bodies) : Accounted s₀ (ops ++ more) t where
  plans j p hj := by
    obtain ⟨request, response, hplan⟩ := h.plans j p (hp ▸ hj)
    exact ⟨request, response, hplan.append more⟩
  bodies i b hi := by
    obtain ⟨o, ho⟩ := h.bodies i b (hb ▸ hi)
    exact ⟨o, ho.append more⟩

/-- So do calls that change one body and leave it accounted for. -/
theorem Accounted.set (h : Accounted s₀ ops s) {t : Session σ} {more : List (Instant × Op)}
    {i : Nat} {b : OpenBody} {o : Origin} (hp : t.plans = s.plans)
    (hb : t.bodies = s.bodies.set i b) (ho : AccountsFor o s₀ (ops ++ more) i b) :
    Accounted s₀ (ops ++ more) t where
  plans := (h.mono (t := { s with plans := t.plans }) more hp rfl).plans
  bodies k b' hk := by
    rw [hb, List.getElem?_set] at hk
    split at hk
    next hik =>
      split at hk
      · cases hk
        exact ⟨o, hik ▸ ho⟩
      · cases hk
    next =>
      obtain ⟨o', ho'⟩ := h.bodies k b' hk
      exact ⟨o', ho'.append more⟩

end

/-! ## One call -/

section

variable {s₀ : Session σ} {ops : List (Instant × Op)} {i : Nat} {b : OpenBody} {o : Origin}
  {now : Instant} {scheduler : Scheduler} {taken : Capture.Op} {left : Option Entry}
  {c c' : ResponseCache σ}

/-- Only a poll hands over a whole body, and with that it completes the body. -/
theorem AccountsFor.completed {done : CapturedBody} (h : AccountsFor o s₀ ops i b)
    (hb : (run ops s₀).2.bodies[i]? = some b) (hd : (b.capture.step taken).2.1 = some done)
    (whole : done.isWhole = true) (now : Instant) (scheduler : Scheduler) :
    taken = .poll ∧ ∃ n, o.Completed s₀ (ops ++ [(now, .poll i scheduler)]) i now n ∧
      ResponseCache.plannedEntry now b.plan done.bytes = o.entry now n := by
  obtain ⟨n, follows, ended, rfl, -⟩ := h.tracks.handed_of_step hd
  obtain ⟨polled, sound, bytes⟩ := Capture.isWhole_handed_iff.1 whole
  have hpoll : taken = .poll := of_decide_eq_true polled
  refine ⟨hpoll, n, ?_, by rw [Origin.entry, h.plan, bytes]⟩
  exact ⟨ops, scheduler, [], b, rfl, h.opened, hb, follows.stream, ended hpoll, sound⟩

theorem left_or_waiting {left waiting : Option Entry} {e : Entry}
    (h : (left <|> waiting) = some e) : left = some e ∨ waiting = some e := by
  rw [Option.orElse_eq_orElse, Option.orElse_eq_or, Option.or_eq_some_iff] at h
  exact h.imp_right And.right

/-- A consumer's step leaves the body accounted for: the entry that it may leave to the
    scheduler is that of the body that it completed. -/
theorem AccountsFor.step (h : AccountsFor o s₀ ops i b)
    (hb : (run ops s₀).2.bodies[i]? = some b)
    (settled : ResponseCache.Settled now b.plan c scheduler (b.capture.step taken).2.1 left c') :
    AccountsFor o s₀ (ops ++ [(now, .onBody i scheduler taken)]) i
      { b with capture := (b.capture.step taken).2.2, waiting := left <|> b.waiting } where
  plan := h.plan
  opened := h.opened.append _
  tracks := h.tracks.step taken
  waiting e he := by
    rcases left_or_waiting he with rfl | hold
    · obtain ⟨done, hd, whole, rfl⟩ := settled.left_eq
      obtain ⟨rfl, n, completed, entry⟩ := h.completed hb hd whole now scheduler
      exact ⟨now, n, completed, entry⟩
    · exact (h.append _).waiting e hold

end

section

variable {s₀ : Session σ} {ops : List (Instant × Op)}

/-- One more plan was made by a decision. -/
theorem Accounted.planned (h : Accounted s₀ ops (run ops s₀).2) {t : Session σ} {now : Instant}
    {request : Request} {response : Response} {plan : StorePlan}
    (decided : s₀.cache.settings.decide request response = .store plan)
    (hp : t.plans = (run ops s₀).2.plans ++ [plan]) (hb : t.bodies = (run ops s₀).2.bodies) :
    Accounted s₀ (ops ++ [(now, .decide request response)]) t where
  plans j p hj := by
    rw [hp, List.getElem?_append] at hj
    split at hj
    next =>
      obtain ⟨q, r, planned⟩ := h.plans j p hj
      exact ⟨q, r, planned.append _⟩
    next hge =>
      -- Only one plan was added, so this is the one.
      obtain ⟨hzero, rfl⟩ : j - (run ops s₀).2.plans.length = 0 ∧ plan = p := by
        simpa [List.getElem?_singleton] using hj
      exact ⟨request, response, ops, now, [], rfl, by omega, decided⟩
  bodies := (h.mono (t := { (run ops s₀).2 with bodies := t.bodies }) _ rfl hb).bodies

/-- One more body was opened under a plan that a decision made. -/
theorem Accounted.opened (h : Accounted s₀ ops (run ops s₀).2) {t : Session σ} {now : Instant}
    {j : Nat} {plan : StorePlan} {stream : BodyStream}
    (made : (run ops s₀).2.plans[j]? = some plan) (hp : t.plans = (run ops s₀).2.plans)
    (hb : t.bodies = (run ops s₀).2.bodies ++ [(run ops s₀).2.cache.wrap plan stream]) :
    Accounted s₀ (ops ++ [(now, .wrap j stream)]) t where
  plans := (h.mono (t := { (run ops s₀).2 with plans := t.plans }) _ hp rfl).plans
  bodies i b hi := by
    rw [hb, List.getElem?_append] at hi
    split at hi
    next =>
      obtain ⟨o, ho⟩ := h.bodies i b hi
      exact ⟨o, ho.append _⟩
    next hge =>
      obtain ⟨hzero, rfl⟩ : i - (run ops s₀).2.bodies.length = 0 ∧
          (run ops s₀).2.cache.wrap plan stream = b := by
        simpa [List.getElem?_singleton] using hi
      obtain ⟨request, response, planned⟩ := h.plans j plan made
      refine ⟨⟨request, response, plan, stream⟩, rfl, ?_, ?_, fun e he => by cases he⟩
      · exact ⟨ops, now, j, [], rfl, by omega, planned⟩
      · -- The limit of the capture is the one of the first settings.
        rw [← run_settings ops s₀]
        exact Capture.tracks_ofStream stream _

/-- Every call keeps the session accounted for. -/
theorem Accounted.move (h : Accounted s₀ ops (run ops s₀).2) {now : Instant} {op : Op}
    {reply : Reply} {t : Session σ} (move : Moves now (run ops s₀).2 op reply t) :
    Accounted s₀ (ops ++ [(now, op)]) t := by
  cases move with
  | planned decided =>
      rw [run_settings] at decided
      exact h.planned decided rfl rfl
  | opened stream made => exact h.opened made rfl rfl
  | @stepped i b _ _ _ taken hb settled =>
      obtain ⟨o, ho⟩ := h.bodies i b hb
      exact h.set rfl rfl (ho.step hb settled)
  | @landed i b e hb waits =>
      obtain ⟨o, ho⟩ := h.bodies i b hb
      exact h.set rfl rfl { ho.append _ with waiting := fun e he => by cases he }
  | _ => exact h.mono _ rfl rfl

end

/-! ## Runs -/

/-- Every run keeps the session accounted for. -/
theorem accounted_run (store : σ) (settings : CacheSettings) (ops : List (Instant × Op)) :
    Accounted (start store settings) ops (run ops (start store settings)).2 := by
  induction ops using List.reverseRecOn with
  | nil => exact accounted_start store settings
  | append_singleton ops c ih =>
      rw [run, runSteps_concat]
      exact ih.move (moves_step c.1 c.2 _)

/-- A write that a call makes is a direct one, or stores what an exchange and its
    whole body make. -/
theorem origin_of_write {s₀ : Session σ} {ops : List (Instant × Op)}
    (h : Accounted s₀ ops (run ops s₀).2) {now : Instant} {op : Op} {key : String} {e : Entry}
    (hw : storeOp? now op (run ops s₀).2 = some (.set key e)) :
    op = .store (.set key e) ∨
      ∃ (i : Nat) (o : Origin) (finished : Instant) (n : Nat),
        (op = .poll i .prompt ∨ op = .land i) ∧ key = o.plan.key.hash ∧ e = o.entry finished n ∧
        o.Completed s₀ (ops ++ [(now, op)]) i finished n := by
  cases writes_of_storeOp? hw with
  | direct => exact .inl rfl
  | @finished i b taken done hb hd whole =>
      obtain ⟨o, ho⟩ := h.bodies i b hb
      obtain ⟨rfl, n, completed, entry⟩ := ho.completed hb hd whole now .prompt
      exact .inr ⟨i, o, now, n, .inl rfl, by rw [ho.plan], entry, completed⟩
  | @landed i b e hb waits =>
      obtain ⟨o, ho⟩ := h.bodies i b hb
      obtain ⟨finished, n, completed, rfl⟩ := ho.waiting e waits
      exact .inr ⟨i, o, finished, n, .inr rfl, by rw [ho.plan], rfl, completed.append _⟩

end GatewayCache.Session
