/-
  GatewayCache.Proofs.Session.Accounting

  The counters of a session against its calls and the journeys of its bodies.

  All that a call can do to the counters is listed by `CounterMove`: a lookup adds one to
  the counter of its outcome, and a call adds one to the responses stored or skipped
  exactly if it declines to store one or makes a capture hand over its body. The journeys
  of the bodies are told by the calls and their replies alone (`journeys`), and the
  captures are those of the journeys throughout (`Told.move`). So the counters at the end
  of a session follow from its calls and replies (`every_call_is_counted`).
-/

import GatewayCache.Proofs.Capture.Journey
import GatewayCache.Proofs.Counting
import GatewayCache.Proofs.Session.Counted

namespace GatewayCache

open GatewayCache.Http

/-! ## Outcomes -/

/-- The outcome of a lookup without what it found. -/
inductive Outcome where
  | hit
  | notModified
  | miss
  | bypass
deriving DecidableEq, Repr

def Lookup.outcome : Lookup → Outcome
  | .hit _ => .hit
  | .notModified _ => .notModified
  | .miss _ => .miss
  | .bypass => .bypass

namespace Counters

/-- The counter of an outcome. -/
def of (n : Counters) : Outcome → Nat
  | .hit => n.hits
  | .notModified => n.notModified
  | .miss => n.misses
  | .bypass => n.bypasses

/-- Responses that were stored or skipped. -/
def settled (n : Counters) : Nat := n.stores + n.skips

theorem of_countLookup (n : Counters) (l : Lookup) (o : Outcome) :
    (n.countLookup l).of o = n.of o + (l.outcome == o).toNat := by
  cases l <;> cases o <;> rfl

/-- Lookups that were answered. -/
def lookups (n : Counters) : Nat := n.hits + n.misses + n.notModified + n.bypasses

theorem settled_countLookup (n : Counters) (l : Lookup) :
    (n.countLookup l).settled = n.settled := by
  cases l <;> rfl

theorem lookups_countLookup (n : Counters) (l : Lookup) :
    (n.countLookup l).lookups = n.lookups + 1 := by
  cases l <;> simp only [countLookup, lookups] <;> omega

end Counters

/-- The cache takes part in a request unless it ignores the response. -/
theorem CacheSettings.decide_eq_ignore_iff {s : CacheSettings} {request : Request}
    {response : Response} :
    s.decide request response = .ignore ↔ s.takesPart request = false := by
  unfold decide
  cases s.takesPart request with
  | false => simp
  | true =>
      simp only [Bool.not_true, Bool.false_eq_true, if_false, reduceCtorEq, iff_false]
      -- Whoever takes part skips the response or stores it.
      split
      · exact Decision.noConfusion
      · split
        · exact Decision.noConfusion
        · split <;> exact Decision.noConfusion

namespace Session

variable {σ : Type}

/-! ## What calls and replies tell -/

def Op.isLookup : Op → Bool
  | .lookup _ => true
  | _ => false

/-- The scheduler that a call on a body finds. -/
def Op.scheduler? : Op → Option Scheduler
  | .poll _ scheduler => some scheduler
  | .close _ scheduler => some scheduler
  | _ => none

/-- The body that a call takes a step on. -/
def Op.onBody? : Op → Option (Nat × Capture.Op)
  | .poll i _ => some (i, .poll)
  | .close i _ => some (i, .close)
  | _ => none

/-- The reply is that of a lookup with the outcome. -/
def Reply.tells (o : Outcome) : Reply → Bool
  | .lookup l => l.outcome == o
  | _ => false

/-- The cache takes part in the exchange, but the reply is that it is not to be stored. -/
def declines (settings : CacheSettings) : Op → Reply → Bool
  | .decide request _, .decided none => settings.takesPart request
  | _, _ => false

/-- The body that a call makes a capture hand over. -/
def handed? (op : Op) (s : Session σ) : Option CapturedBody :=
  op.onBody?.bind fun o => s.bodies[o.1]?.bind fun b => (b.capture.step o.2).2.1

section

variable (i : Nat) (scheduler : Scheduler) (o : Capture.Op)

@[simp] theorem onBody?_onBody : (Op.onBody i scheduler o).onBody? = some (i, o) := by
  cases o <;> rfl

@[simp] theorem scheduler?_onBody : (Op.onBody i scheduler o).scheduler? = some scheduler := by
  cases o <;> rfl

theorem handed?_onBody (s : Session σ) :
    handed? (.onBody i scheduler o) s = s.bodies[i]?.bind fun b => (b.capture.step o).2.1 := by
  rw [handed?, onBody?_onBody, Option.bind_some]

end

/-! ## One call -/

/-- A call that is no lookup and declines nothing. -/
structure Quiet (settings : CacheSettings) (op : Op) (reply : Reply) : Prop where
  noLookup : op.isLookup = false
  noOutcome : ∀ o, reply.tells o = false
  accepts : declines settings op reply = false

theorem quiet_onBody (settings : CacheSettings) (i : Nat) (scheduler : Scheduler)
    (o : Capture.Op) {reply : Reply} (h : ∀ l, reply.tells l = false) :
    Quiet settings (.onBody i scheduler o) reply where
  noLookup := by cases o <;> rfl
  noOutcome := h
  accepts := by cases o <;> rfl

theorem tells_ofStep (answer : Option Polled) (l : Outcome) :
    (Reply.ofStep answer).tells l = false := by
  cases answer <;> rfl

/-- All that a call can do to the counters. -/
inductive CounterMove (s : Session σ) : Op → Reply → Counters → Prop where
  | looked (request : Request) (l : Lookup) :
      CounterMove s (.lookup request) (.lookup l) (s.cache.counters.countLookup l)
  | declined {request : Request} (response : Response)
      (part : s.cache.settings.takesPart request = true) :
      CounterMove s (.decide request response) (.decided none) s.cache.counters.countSkip
  | settled {op : Op} {reply : Reply} {scheduler : Scheduler} {body : CapturedBody}
      (quiet : Quiet s.cache.settings op reply) (found : op.scheduler? = some scheduler)
      (handed : handed? op s = some body) :
      CounterMove s op reply (if ResponseCache.countsAsStored scheduler body
        then s.cache.counters.countStore else s.cache.counters.countSkip)
  | kept {op : Op} {reply : Reply} (quiet : Quiet s.cache.settings op reply)
      (handed : handed? op s = none) : CounterMove s op reply s.cache.counters

namespace CounterMove

variable {s : Session σ} {op : Op} {reply : Reply} {n : Counters}

theorem of_outcome (h : CounterMove s op reply n) (o : Outcome) :
    n.of o = s.cache.counters.of o + (reply.tells o).toNat := by
  cases h with
  | looked request l => exact s.cache.counters.of_countLookup l o
  | declined response part => cases o <;> rfl
  | settled quiet found handed =>
      rw [quiet.noOutcome o]
      split <;> cases o <;> rfl
  | kept quiet handed =>
      rw [quiet.noOutcome o]
      rfl

theorem lookups (h : CounterMove s op reply n) :
    n.lookups = s.cache.counters.lookups + op.isLookup.toNat := by
  cases h with
  | looked request l => exact s.cache.counters.lookups_countLookup l
  | declined response part => rfl
  | settled quiet found handed =>
      rw [quiet.noLookup]
      split <;> rfl
  | kept quiet handed =>
      rw [quiet.noLookup]
      rfl

theorem settled_eq (h : CounterMove s op reply n) :
    n.settled = s.cache.counters.settled + (declines s.cache.settings op reply).toNat +
      (handed? op s).isSome.toNat := by
  cases h with
  | looked request l => exact s.cache.counters.settled_countLookup l
  | declined response part =>
      rw [declines, part]
      rfl
  | @settled _ _ scheduler body quiet found handed =>
      rw [quiet.accepts, handed]
      cases ResponseCache.countsAsStored scheduler body with
      | false => rfl
      | true => exact Nat.add_right_comm _ 1 _
  | kept quiet handed =>
      rw [quiet.accepts, handed]
      rfl

theorem stores (h : CounterMove s op reply n) (present : op.scheduler? ≠ some .absent) :
    n.stores = s.cache.counters.stores + ((handed? op s).any CapturedBody.isWhole).toNat := by
  cases h with
  | looked request l => exact Counters.stores_countLookup _ l
  | declined response part => rfl
  | @settled _ _ scheduler body quiet found handed =>
      have hpresent : (scheduler != .absent) = true :=
        bne_iff_ne.2 fun h => present (found.trans (congrArg some h))
      rw [handed, ResponseCache.countsAsStored, hpresent, Bool.and_true, Option.any_some]
      cases body.isWhole <;> rfl
  | kept quiet handed =>
      rw [handed]
      rfl

end CounterMove

section

variable [ResponseStore σ]

theorem Moves.counters {now : Instant} {s t : Session σ} {op : Op} {reply : Reply}
    (move : Moves now s op reply t) : CounterMove s op reply t.cache.counters := by
  cases move with
  | @bypassed request => exact .looked request .bypass
  | @looked request found => exact .looked request _
  | declined decided =>
      refine .declined _ ?_
      rw [← Bool.not_eq_false, ← CacheSettings.decide_eq_ignore_iff, decided]
      exact Decision.noConfusion
  | ignored decided =>
      exact .kept ⟨rfl, fun _ => rfl, CacheSettings.decide_eq_ignore_iff.1 decided⟩ rfl
  | @stepped i b scheduler left cache o hb settled =>
      have quiet := quiet_onBody s.cache.settings i scheduler o (tells_ofStep (b.capture.step o).1)
      have hhanded := handed?_onBody i scheduler o s
      rw [hb, Option.bind_some] at hhanded
      generalize (b.capture.step o).2.1 = body at settled hhanded
      cases body with
      | none =>
          obtain ⟨-, rfl⟩ := settled.of_none
          exact .kept quiet hhanded
      | some body =>
          rw [settled.counters]
          exact .settled quiet (scheduler?_onBody i scheduler o) hhanded
  | @unstepped i scheduler o hb =>
      refine .kept (quiet_onBody _ i scheduler o fun _ => rfl) ?_
      rw [handed?_onBody, hb, Option.bind_none]
  -- The rest counts nothing; what lands was counted when the body was handed over.
  | _ => exact .kept ⟨rfl, fun _ => rfl, rfl⟩ rfl

end

/-! ## The journeys of the bodies -/

/-- What a call and its reply do to the journeys of the bodies: a stream that is wrapped
    sets out, and a body that is polled or closed goes one step further. -/
def follow (js : List Journey) (op : Op) (reply : Reply) : List Journey :=
  match op, reply with
  | .wrap _ stream, .done => js ++ [⟨stream, []⟩]
  | op, _ =>
      match op.onBody? with
      | none => js
      | some (i, o) => js.modify i (·.extend o)

theorem follow_onBody (js : List Journey) (i : Nat) (scheduler : Scheduler) (o : Capture.Op)
    (reply : Reply) : follow js (.onBody i scheduler o) reply = js.modify i (·.extend o) := by
  cases o <;> rfl

/-- The captures of the bodies are those of the journeys. -/
def Told (limit : Nat) (js : List Journey) (bodies : List OpenBody) : Prop :=
  bodies.map (·.capture) = js.map (Journey.capture limit)

/-- More journeys are over exactly if a body is handed over, and more of them whole exactly
    if it is. -/
structure Followed (limit : Nat) (js js' : List Journey) (body : Option CapturedBody) : Prop where
  ending : js'.countP Journey.isOver = js.countP Journey.isOver + body.isSome.toNat
  whole : js'.countP (Journey.isWhole limit) =
    js.countP (Journey.isWhole limit) + (body.any CapturedBody.isWhole).toNat

theorem followed_self (limit : Nat) (js : List Journey) : Followed limit js js none :=
  ⟨rfl, rfl⟩

/-- A journey that sets out is on its way. -/
theorem followed_concat (limit : Nat) (js : List Journey) (stream : BodyStream) :
    Followed limit js (js ++ [⟨stream, []⟩]) none := by
  have hflows := Capture.flowing_nil stream
  constructor
  · simp [Journey.isOver_of_flowing hflows]
  · simp [Journey.isWhole_of_flowing hflows]

namespace Told

variable {limit : Nat} {js : List Journey} {bodies : List OpenBody} {i : Nat}

theorem getElem? (h : Told limit js bodies) (i : Nat) :
    js[i]?.map (Journey.capture limit) = bodies[i]?.map (·.capture) := by
  rw [← List.getElem?_map, ← List.getElem?_map, h]

/-- Where there is no body, no journey goes on. -/
theorem modify_absent (h : Told limit js bodies) (hb : bodies[i]? = none)
    (f : Journey → Journey) : js.modify i f = js := by
  have hnone : js[i]? = none := by simpa [hb] using h.getElem? i
  rw [List.modify_eq_set_getElem?, hnone]
  rfl

/-- One more step of a journey is told by the capture that takes it. -/
theorem modify {b : OpenBody} (h : Told limit js bodies) (hb : bodies[i]? = some b)
    (o : Capture.Op) (b' : OpenBody) (hb' : b'.capture = (b.capture.step o).2.2) :
    Told limit (js.modify i (·.extend o)) (bodies.set i b') ∧
      Followed limit js (js.modify i (·.extend o)) (b.capture.step o).2.1 := by
  obtain ⟨j, hj, hcapture⟩ : ∃ j, js[i]? = some j ∧ j.capture limit = b.capture := by
    simpa [hb] using h.getElem? i
  constructor
  · have hmodify : js.modify i (·.extend o) = js.set i (j.extend o) := by
      rw [List.modify_eq_set_getElem?, hj]
      rfl
    have hlast : b'.capture = (j.extend o).capture limit := by
      rw [Journey.capture_extend, hcapture, hb']
    rw [Told, hmodify, List.map_set, List.map_set, h, hlast]
  · have hextends := Journey.extends_extend limit j o
    have hover := countP_modify (p := Journey.isOver) hj (·.extend o)
    have hwhole := countP_modify (p := Journey.isWhole limit) hj (·.extend o)
    rw [hcapture] at hextends
    generalize (b.capture.step o).2.1 = body at hextends
    cases hextends with
    | goesOn ending whole =>
        rw [ending] at hover
        rw [whole] at hwhole
        exact ⟨Nat.add_right_cancel hover, Nat.add_right_cancel hwhole⟩
    | ends body onTheWay ending whole =>
        rw [onTheWay.1, ending] at hover
        rw [onTheWay.2, whole] at hwhole
        exact ⟨hover, hwhole⟩

/-- What leaves the capture as it is leaves the journeys as they are. -/
theorem set_same {b b' : OpenBody} (h : Told limit js bodies) (hb : bodies[i]? = some b)
    (hsame : b'.capture = b.capture) : Told limit js (bodies.set i b') := by
  have hb' : (bodies.map (·.capture))[i]? = some b.capture := by simp [hb]
  obtain ⟨hlt, hget⟩ := List.getElem?_eq_some_iff.1 hb'
  rw [Told, List.map_set, hsame, ← hget, List.set_getElem_self, h]

end Told

section

variable [ResponseStore σ]

/-- Every call takes the journeys along with the bodies, and what it hands over tells
    what becomes of them. -/
theorem Told.move {now : Instant} {s t : Session σ} {op : Op} {reply : Reply} {js : List Journey}
    (h : Told s.cache.settings.maxObjectSize js s.bodies) (move : Moves now s op reply t) :
    Told s.cache.settings.maxObjectSize (follow js op reply) t.bodies ∧
      Followed s.cache.settings.maxObjectSize js (follow js op reply) (handed? op s) := by
  cases move with
  | @opened j plan stream made =>
      refine ⟨?_, followed_concat _ js stream⟩
      show (s.bodies ++ [s.cache.wrap plan stream]).map (·.capture) =
        (js ++ [Journey.mk stream []]).map (Journey.capture s.cache.settings.maxObjectSize)
      rw [List.map_append, List.map_append, h]
      rfl
  | stepped o hb settled =>
      rw [follow_onBody, handed?_onBody, hb, Option.bind_some]
      exact h.modify hb o _ rfl
  | unstepped scheduler o hb =>
      rw [follow_onBody, handed?_onBody, h.modify_absent hb, hb, Option.bind_none]
      exact ⟨h, followed_self _ js⟩
  | landed hb waits => exact ⟨h.set_same hb rfl, followed_self _ js⟩
  | _ => exact ⟨h, followed_self _ js⟩

end

/-! ## Whole sessions -/

/-- What calls and their replies do to the journeys of the bodies. -/
def journeys : List (Op × Reply) → List Journey → List Journey
  | [], js => js
  | (op, reply) :: calls, js => journeys calls (follow js op reply)

/-- A journey that is over is whole or not. -/
theorem countP_isOver (limit : Nat) (js : List Journey) :
    js.countP Journey.isOver = js.countP (Journey.isWhole limit) +
      js.countP (fun j => j.isOver && !j.isWhole limit) := by
  induction js with
  | nil => rfl
  | cons j js ih =>
      simp only [countP_cons_toNat, ih]
      cases hwhole : j.isWhole limit with
      | false =>
          rw [Bool.not_false, Bool.and_true, Bool.toNat_false]
          omega
      | true =>
          rw [Journey.isOver_of_isWhole hwhole, Bool.not_true, Bool.and_false, Bool.toNat_false]
          omega

variable [ResponseStore σ]

/-- The calls of a run, each with its reply. -/
def transcript (ops : List (Instant × Op)) (s : Session σ) : List (Op × Reply) :=
  (ops.map (·.2)).zip (run ops s).1

theorem transcript_cons (now : Instant) (op : Op) (ops : List (Instant × Op)) (s : Session σ) :
    transcript ((now, op) :: ops) s =
      (op, (s.step now op).1) :: transcript ops (s.step now op).2 := rfl

theorem run_cons (now : Instant) (op : Op) (ops : List (Instant × Op)) (s : Session σ) :
    (run ((now, op) :: ops) s).2 = (run ops (s.step now op).2).2 := rfl

theorem run_outcomes (ops : List (Instant × Op)) (s : Session σ) (o : Outcome) :
    (run ops s).2.cache.counters.of o =
      s.cache.counters.of o + (transcript ops s).countP fun c => c.2.tells o := by
  induction ops generalizing s with
  | nil => rfl
  | cons c ops ih =>
      obtain ⟨now, op⟩ := c
      have hstep := (moves_step now op s).counters.of_outcome o
      rw [run_cons, ih, hstep, transcript_cons, countP_cons_toNat]
      dsimp only
      omega

theorem run_lookups (ops : List (Instant × Op)) (s : Session σ) :
    (run ops s).2.cache.counters.lookups =
      s.cache.counters.lookups + ops.countP fun c => c.2.isLookup := by
  induction ops generalizing s with
  | nil => rfl
  | cons c ops ih =>
      obtain ⟨now, op⟩ := c
      have hstep := (moves_step now op s).counters.lookups
      rw [run_cons, ih, hstep, countP_cons_toNat]
      dsimp only
      omega

/-- A run of calls takes the journeys `js` to `js'`, and what they became tells how many
    responses were stored and skipped. -/
structure Settles (s : Session σ) (ops : List (Instant × Op)) (js js' : List Journey) : Prop where
  told : Told s.cache.settings.maxObjectSize js' (run ops s).2.bodies
  settled : (run ops s).2.cache.counters.settled + js.countP Journey.isOver =
    s.cache.counters.settled + js'.countP Journey.isOver +
      (transcript ops s).countP fun c => declines s.cache.settings c.1 c.2
  stores : (∀ c ∈ ops, c.2.scheduler? ≠ some .absent) →
    (run ops s).2.cache.counters.stores +
        js.countP (Journey.isWhole s.cache.settings.maxObjectSize) =
      s.cache.counters.stores + js'.countP (Journey.isWhole s.cache.settings.maxObjectSize)

theorem Told.settles {s : Session σ} {js : List Journey}
    (h : Told s.cache.settings.maxObjectSize js s.bodies) (ops : List (Instant × Op)) :
    Settles s ops js (journeys (transcript ops s) js) := by
  induction ops generalizing s js with
  | nil => exact ⟨h, rfl, fun _ => rfl⟩
  | cons c ops ih =>
      obtain ⟨now, op⟩ := c
      have move := moves_step now op s
      obtain ⟨told, followed⟩ := h.move move
      -- No call changes the limit, so the rest of the run is told by the same journeys.
      rw [← move.settings] at told
      obtain ⟨htold, hsettled, hstores⟩ := ih told
      rw [move.settings] at htold hsettled hstores
      have hover := followed.ending
      have hwhole := followed.whole
      have hstep := move.counters.settled_eq
      constructor
      · exact htold
      · rw [run_cons, transcript_cons, countP_cons_toNat, journeys]
        dsimp only
        omega
      · intro present
        have hstore := move.counters.stores (present _ List.mem_cons_self)
        have hrest := hstores fun c hc => present c (List.mem_cons_of_mem _ hc)
        rw [run_cons, transcript_cons, journeys]
        omega

/-- Every lookup counts by its outcome. Every response that is not to be stored counts as
    skipped, and every body that is over counts once: as stored if it ended cleanly and
    fits the size limit, as long as there is a scheduler, and else as skipped. -/
theorem every_call_is_counted (store : σ) (settings : CacheSettings)
    (ops : List (Instant × Op)) :
    let s := (run ops (start store settings)).2
    let n := s.cache.counters
    let calls := transcript ops (start store settings)
    let js := journeys calls []
    let declined := calls.countP fun c => declines settings c.1 c.2
    (∀ o, n.of o = calls.countP fun c => c.2.tells o) ∧
      n.hits + n.misses + n.notModified + n.bypasses = ops.countP (fun c => c.2.isLookup) ∧
      s.bodies.map (·.capture.finalized) = js.map Journey.isOver ∧
      n.stores + n.skips = declined + s.bodies.countP (·.capture.finalized) ∧
      ((∀ c ∈ ops, c.2.scheduler? ≠ some .absent) →
        n.stores = js.countP (Journey.isWhole settings.maxObjectSize) ∧
        n.skips = declined +
          js.countP fun j => j.isOver && !j.isWhole settings.maxObjectSize) := by
  intro s n calls js declined
  have hstart : Told settings.maxObjectSize [] (start store settings).bodies := rfl
  obtain ⟨told, settled, stores⟩ := Told.settles hstart ops
  have hfinalized : s.bodies.map (·.capture.finalized) = js.map Journey.isOver := by
    calc s.bodies.map (·.capture.finalized)
        = (s.bodies.map (·.capture)).map (·.finalized) := by rw [List.map_map]; rfl
      _ = (js.map (Journey.capture settings.maxObjectSize)).map (·.finalized) :=
          congrArg _ told
      _ = js.map Journey.isOver := by
          rw [List.map_map]
          exact List.map_congr_left fun j _ => j.finalized_capture settings.maxObjectSize
  have hover : s.bodies.countP (·.capture.finalized) = js.countP Journey.isOver := by
    have h := congrArg (List.countP id) hfinalized
    rwa [List.countP_map, List.countP_map] at h
  have hsettled : n.stores + n.skips = declined + js.countP Journey.isOver := by
    have h : n.settled = 0 + js.countP Journey.isOver + declined := settled
    rw [Counters.settled] at h
    omega
  refine ⟨?_, ?_, hfinalized, hover ▸ hsettled, ?_⟩
  · intro o
    have h := run_outcomes ops (start store settings) o
    have hzero : (start store settings).cache.counters.of o = 0 := by cases o <;> rfl
    rwa [hzero, Nat.zero_add] at h
  · exact (run_lookups ops (start store settings)).trans (Nat.zero_add _)
  · intro present
    have hstores : n.stores = js.countP (Journey.isWhole settings.maxObjectSize) :=
      (stores present).trans (Nat.zero_add _)
    refine ⟨hstores, ?_⟩
    have hparts := countP_isOver settings.maxObjectSize js
    omega

/-! ### Several bodies -/

/-- Calls that decline one response and pass three bodies on for another: one within a
    limit of two bytes, one beyond it, and one that is closed before its end. -/
def severalBodies : List (Instant × Op) :=
  [.lookup (rootRequest .empty), .decide (rootRequest .empty) ⟨200, .empty⟩,
    .decide (rootRequest .empty) ⟨500, .empty⟩, .wrap 0 ⟨[.chunk [1, 2]], 0⟩,
    .wrap 0 ⟨[.chunk [1, 2, 3]], 0⟩, .wrap 0 ⟨[.chunk [1]], 0⟩, .poll 1 .prompt, .poll 0 .prompt,
    .poll 2 .prompt, .poll 0 .prompt, .poll 1 .prompt, .close 2 .prompt, .close 0 .prompt,
    .lookup (rootRequest .empty), .lookup ⟨.post, .root, .empty⟩].map fun op => (⟨2⟩, op)

theorem every_call_is_counted_several :
    let calls := transcript severalBodies (fresh none ⟨true, ⟨60⟩, 2⟩)
    (∀ c ∈ severalBodies, c.2.scheduler? ≠ some .absent) ∧
      (run severalBodies (fresh none ⟨true, ⟨60⟩, 2⟩)).2.cache.counters = ⟨1, 1, 0, 1, 1, 3⟩ ∧
      (journeys calls []).map (Journey.isWhole 2) = [true, false, false] ∧
      calls.countP (fun c => declines ⟨true, ⟨60⟩, 2⟩ c.1 c.2) = 1 ∧
      (journeys calls []).countP (fun j => j.isOver && !j.isWhole 2) = 2 := by
  intro calls
  have present : ∀ c ∈ severalBodies, c.2.scheduler? ≠ some .absent := by decide
  obtain ⟨hcounters, hwhole, hdeclined⟩ :
      (run severalBodies (fresh none ⟨true, ⟨60⟩, 2⟩)).2.cache.counters = ⟨1, 1, 0, 1, 1, 3⟩ ∧
        (journeys calls []).map (Journey.isWhole 2) = [true, false, false] ∧
        calls.countP (fun c => declines ⟨true, ⟨60⟩, 2⟩ c.1 c.2) = 1 := by
    decide +kernel
  obtain ⟨-, -, -, -, settles⟩ :=
    every_call_is_counted MemoryStore.unbounded ⟨true, ⟨60⟩, 2⟩ severalBodies
  have hskips : (run severalBodies (fresh none ⟨true, ⟨60⟩, 2⟩)).2.cache.counters.skips =
      calls.countP (fun c => declines ⟨true, ⟨60⟩, 2⟩ c.1 c.2) +
        (journeys calls []).countP (fun j => j.isOver && !j.isWhole 2) := (settles present).2
  rw [hcounters, hdeclined] at hskips
  exact ⟨present, hcounters, hwhole, hdeclined, (Nat.add_left_cancel hskips).symm⟩

end Session

end GatewayCache
