/-
  GatewayCache.Proofs.Session.Sharing

  Whose responses reach authorized requests, after any run of calls.

  Whether a response may be shared is asked twice: of the fields that came, when
  it is decided to store it, and of the fields to replay, when it is served. Both
  say the same (`Entry.cacheControl_replay`). So the response behind an entry that
  is served to an authorized request allows sharing, and so does every stored
  response to an authorized request (`authorized_shares_only_sharable`).
-/

import GatewayCache.Proofs.Entry.Replay
import GatewayCache.Proofs.Policy.Reading
import GatewayCache.Proofs.ResponseCache.Plan
import GatewayCache.Proofs.Session.Served

namespace GatewayCache

open GatewayCache.Http

/-! ## Sharable responses -/

/-- The directives allow callers to share a response that one of them was
    authorized for: it is public or has a lifetime in shared caches, and nothing
    forbids storing it. -/
structure CacheControl.Sharable (c : CacheControl) : Prop where
  shared : c.isPublic = true ∨ ∃ n, 0 < n ∧ c.sharedMaxAge = some n
  stored : c.noStore = false
  notPrivate : c.isPrivate = false

theorem CacheControl.shared_of_allowsShared {c : CacheControl} (h : c.allowsShared = true) :
    c.isPublic = true ∨ ∃ n, 0 < n ∧ c.sharedMaxAge = some n := by
  unfold allowsShared positiveSharedMaxAge positive at h
  rcases Bool.or_eq_true_iff.1 h with hpublic | hage
  · exact .inl hpublic
  · obtain ⟨n, hn⟩ := Option.isSome_iff_exists.1 hage
    obtain ⟨hn, hpos⟩ := Option.filter_eq_some_iff.1 hn
    exact .inr ⟨n, of_decide_eq_true hpos, hn⟩

/-- A request that carries credentials. -/
def Http.Request.Authorized (r : Request) : Prop := r.fields.has FieldName.authorization = true

namespace Policy

theorem allowsShared_of_mayServe {request : Request} {f : Fields} (ha : request.Authorized)
    (h : mayServe request f = true) : (CacheControl.ofFields f).allowsShared = true := by
  unfold mayServe at h
  rw [show request.fields.has FieldName.authorization = true from ha] at h
  simpa using h

theorem forbids_nothing_of_isCacheable {request : Request} {response : Response}
    (h : isCacheable request response = true) :
    (CacheControl.ofFields response.fields).noStore = false ∧
      (CacheControl.ofFields response.fields).isPrivate = false := by
  simp only [isCacheable, Bool.and_eq_true, Bool.not_eq_true'] at h
  exact ⟨h.1.1.1.1.1, h.1.1.1.1.2⟩

theorem allowsShared_of_isCacheable {request : Request} {response : Response}
    (ha : request.Authorized) (h : isCacheable request response = true) :
    (CacheControl.ofFields response.fields).allowsShared = true :=
  allowsShared_of_mayServe ha (mayServe_of_isCacheable h)

end Policy

/-- Only cacheable responses are planned to be stored, under their own fields. -/
theorem CacheSettings.isCacheable_of_decide {s : CacheSettings} {request : Request}
    {response : Response} {plan : StorePlan} (h : s.decide request response = .store plan) :
    Policy.isCacheable request response = true ∧ plan.fields = response.fields := by
  have hplans := decide_eq_store_iff.1 h
  exact ⟨hplans.cacheable, by rw [hplans.plan_eq]⟩

namespace Session

/-! ## Written entries and their origins -/

/-- The calls left `e` under the key, last written there for a body that was
    completed as its origin says. -/
def WrittenFrom {σ : Type} [ResponseStore σ] (s₀ : Session σ) (ops : List (Instant × Op))
    (key : String) (e : Entry) (o : Origin) : Prop :=
  ∃ (before : List (Instant × Op)) (written : Instant) (op : Op) (after : List (Instant × Op))
    (i : Nat) (finished : Instant) (n : Nat),
    ops = before ++ (written, op) :: after ∧ WrittenLast s₀ key e before written op after ∧
    (op = .poll i .prompt ∨ op = .land i) ∧
    o.Completed s₀ (before ++ [(written, op)]) i finished n ∧
    key = o.plan.key.hash ∧ e = o.entry finished n

/-- A call that writes into the store itself, past the decisions of the cache. -/
def Op.writesDirectly : Op → Bool
  | .store (.set _ _) => true
  | _ => false

section

variable {bound : Option Nat} {settings : CacheSettings} {ops : List (Instant × Op)}
  {key : String} {e : Entry} {o : Origin}

/-- Without direct writes, all that is held was written for a body. -/
theorem exists_writtenFrom (hops : ∀ c ∈ ops, c.2.writesDirectly = false)
    (h : (run ops (fresh bound settings)).2.cache.store.entries.get? key = some e) :
    ∃ o, WrittenFrom (fresh bound settings) ops key e o := by
  obtain ⟨before, written, op, after, rfl, last⟩ := writtenLast_of_held h
  have accounted := accounted_run (MemoryStore.ofBound bound) settings before
  rcases origin_of_write accounted last.write with rfl | ⟨i, o, finished, n, hop, hkey, he, hc⟩
  · have hdirect := hops _ (List.mem_append_right before List.mem_cons_self)
    cases hdirect
  · exact ⟨o, before, written, op, after, i, finished, n, rfl, last, hop, hc, hkey, he⟩

theorem WrittenFrom.decided {σ : Type} [ResponseStore σ] {s₀ : Session σ}
    (h : WrittenFrom s₀ ops key e o) :
    s₀.cache.settings.decide o.request o.response = .store o.plan := by
  obtain ⟨before, written, op, after, i, finished, n, -, -, -, completed, -, -⟩ := h
  obtain ⟨_, _, _, _, -, opened, -⟩ := completed
  obtain ⟨_, _, _, _, -, -, planned⟩ := opened
  obtain ⟨_, _, _, -, -, hdecide⟩ := planned
  exact hdecide

/-- What a written entry replays carries the directives of the response behind
    it. -/
theorem WrittenFrom.cacheControl {σ : Type} [ResponseStore σ] {s₀ : Session σ}
    (h : WrittenFrom s₀ ops key e o) :
    CacheControl.ofFields e.replay = CacheControl.ofFields o.response.fields := by
  have hfields := (CacheSettings.isCacheable_of_decide h.decided).2
  obtain ⟨before, written, op, after, i, finished, n, -, -, -, -, -, rfl⟩ := h
  rw [← hfields]
  exact Entry.cacheControl_replay finished o.plan.status o.plan.fields (o.stream.content n)
    o.plan.ttl

/-- Only responses that nothing forbids to store are written, so sharing is all
    that is left to ask. -/
theorem WrittenFrom.sharable {σ : Type} [ResponseStore σ] {s₀ : Session σ}
    (h : WrittenFrom s₀ ops key e o)
    (hshared : (CacheControl.ofFields o.response.fields).allowsShared = true) :
    (CacheControl.ofFields o.response.fields).Sharable := by
  have hcacheable := (CacheSettings.isCacheable_of_decide h.decided).1
  obtain ⟨hstore, hprivate⟩ := Policy.forbids_nothing_of_isCacheable hcacheable
  exact ⟨CacheControl.shared_of_allowsShared hshared, hstore, hprivate⟩

end

/-! ## Authorized requests -/

/-- After any run of calls without direct writes: an entry that is served to an
    authorized request was written for a response that allows sharing, and an
    entry that was written for an authorized request was, too. -/
theorem authorized_shares_only_sharable (bound : Option Nat) (settings : CacheSettings)
    (ops : List (Instant × Op)) (hops : ∀ c ∈ ops, c.2.writesDirectly = false) :
    (∀ now request e, request.Authorized →
      ((run ops (fresh bound settings)).2.cache.lookup now request).1.served? = some e →
      (∃ o, WrittenFrom (fresh bound settings) ops (CacheKey.derive request).hash e o) ∧
      ∀ o, WrittenFrom (fresh bound settings) ops (CacheKey.derive request).hash e o →
        (CacheControl.ofFields o.response.fields).Sharable) ∧
    ∀ key e, (run ops (fresh bound settings)).2.cache.store.entries.get? key = some e →
      (∃ o, WrittenFrom (fresh bound settings) ops key e o) ∧
      ∀ o, WrittenFrom (fresh bound settings) ops key e o →
        o.request.Authorized → (CacheControl.ofFields o.response.fields).Sharable := by
  constructor
  · intro now request e ha hserved
    refine ⟨exists_writtenFrom hops (held_of_served hserved).1, fun o ho => ?_⟩
    -- Serving asked the replayed fields, and they agree with those that came.
    have hserve := (ResponseCache.served?_lookup hserved).2
    have hshared := Policy.allowsShared_of_mayServe ha hserve
    rw [ho.cacheControl] at hshared
    exact ho.sharable hshared
  · intro key e held
    refine ⟨exists_writtenFrom hops held, fun o ho ha => ?_⟩
    -- The decision to store asked the fields that came.
    have hcacheable := (CacheSettings.isCacheable_of_decide ho.decided).1
    exact ho.sharable (Policy.allowsShared_of_isCacheable ha hcacheable)

/-- An authorized visit to a public page is served to the next one. -/
theorem authorized_shares_only_sharable_visit :
    ∃ (f g : Fields) (e : Entry), (rootRequest f).Authorized ∧
      ((run (visit (rootRequest f) ⟨200, g⟩ ⟨[.chunk [1]], 0⟩)
        (fresh none ⟨true, ⟨60⟩, 0⟩)).2.cache.lookup ⟨61⟩
          (rootRequest f)).1.served? = some e ∧
      ∃ o, WrittenFrom (fresh none ⟨true, ⟨60⟩, 0⟩)
          (visit (rootRequest f) ⟨200, g⟩ ⟨[.chunk [1]], 0⟩)
          (CacheKey.derive (rootRequest f)).hash e o ∧
        (CacheControl.ofFields o.response.fields).Sharable := by
  have hauth : (rootRequest ⟨[(.authorization, ⟨[0x78], by decide⟩)]⟩).Authorized := by
    show Fields.has _ _ = true
    decide
  have hops : ∀ c ∈ visit (rootRequest ⟨[(.authorization, ⟨[0x78], by decide⟩)]⟩)
      ⟨200, ⟨[(.cacheControl, ⟨[0x70, 0x75, 0x62, 0x6C, 0x69, 0x63], by decide⟩)]⟩⟩
      ⟨[.chunk [1]], 0⟩, c.2.writesDirectly = false := by
    simp [visit, Op.writesDirectly]
  have hserved : ((run (visit (rootRequest ⟨[(.authorization, ⟨[0x78], by decide⟩)]⟩)
      ⟨200, ⟨[(.cacheControl, ⟨[0x70, 0x75, 0x62, 0x6C, 0x69, 0x63], by decide⟩)]⟩⟩
      ⟨[.chunk [1]], 0⟩) (fresh none ⟨true, ⟨60⟩, 0⟩)).2.cache.lookup ⟨61⟩
        (rootRequest ⟨[(.authorization, ⟨[0x78], by decide⟩)]⟩)).1.served? =
      some ⟨200, ⟨[("cache-control", ["public"])], by decide⟩, [1], "", some ⟨62⟩⟩ := by
    decide +kernel
  obtain ⟨⟨o, ho⟩, hsharable⟩ :=
    (authorized_shares_only_sharable _ _ _ hops).1 _ _ _ hauth hserved
  exact ⟨_, _, _, hauth, hserved, o, ho, hsharable o ho⟩

end Session

end GatewayCache
