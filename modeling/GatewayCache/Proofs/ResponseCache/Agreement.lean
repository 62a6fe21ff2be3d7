/-
  GatewayCache.Proofs.ResponseCache.Agreement

  What is stored for a request answers the request.

  A plan is only made if the cache takes part in the request and the response may be
  given to it, and it names the key that the request is looked up under. Storing
  keeps the directives, so the fields that an entry made out of the plan replays may
  be given to the request too (`CacheSettings.Plans.mayServe_replay`). A lookup that
  finds the entry is then answered with it, unless the client bypasses the cache
  (`planned_answers_lookup`).
-/

import GatewayCache.Proofs.Entry.Replay
import GatewayCache.Proofs.Http.Target
import GatewayCache.Proofs.Policy.Reading
import GatewayCache.Proofs.ResponseCache.Plan
import GatewayCache.Proofs.Store.ReadBack
import GatewayCache.Proofs.Store.Standing

namespace GatewayCache

open GatewayCache.Http

/-! ## Entries made out of plans -/

theorem CacheSettings.Plans.mayServe_replay {s : CacheSettings} {request : Request}
    {response : Response} {plan : StorePlan} (h : s.Plans request response plan)
    (written : Instant) (body : List UInt8) :
    Policy.mayServe request (ResponseCache.plannedEntry written plan body).replay = true := by
  have hfields : plan.fields = response.fields := by rw [h.plan_eq]
  have hcontrol : CacheControl.ofFields (ResponseCache.plannedEntry written plan body).replay =
      CacheControl.ofFields response.fields := by
    rw [ResponseCache.plannedEntry, Entry.cacheControl_replay, hfields]
  rw [Policy.mayServe_congr hcontrol]
  exact Policy.mayServe_of_isCacheable h.cacheable

/-! ## Lookups that find an entry -/

/-- The lookup is answered with the entry, unless the client bypasses the cache. -/
structure Lookup.Gives (answer : Lookup) (request : Request) (e : Entry) : Prop where
  bypassed : Policy.wantsRevalidation request = true → answer = .bypass
  served : Policy.wantsRevalidation request = false → answer = .hit e ∨ answer = .notModified e

namespace ResponseCache

variable {σ : Type} [ResponseStore σ] {c : ResponseCache σ} {request : Request}

theorem answer_of_mayServe {e : Entry} (h : Policy.mayServe request e.replay = true) :
    answer request e = .hit e ∨ answer request e = .notModified e := by
  unfold answer
  dsimp only
  rw [h]
  split
  next hno => cases hno
  next =>
    split
    next => exact .inr rfl
    next => exact .inl rfl

/-- A live entry that may be served to a request answers it. -/
theorem lookup_gives {now : Instant} {e : Entry} (hpart : c.settings.takesPart request = true)
    (hget : (ResponseStore.get now (CacheKey.derive request).hash c.store).1 = some e)
    (hserve : Policy.mayServe request e.replay = true) :
    (c.lookup now request).1.Gives request e where
  bypassed := by
    intro h
    rw [lookup, hpart, h]
    rfl
  served := by
    intro h
    have hlookup : (c.lookup now request).1 = answer request e := by
      rw [lookup, hpart, h]
      simp [hget]
    rw [hlookup]
    exact answer_of_mayServe hserve

end ResponseCache

/-! ## Writing and reading agree -/

namespace ResponseCache

/-- Where a response is planned to be stored for a request, the entry made out of the
    plan and any body answers the request, whatever store holds it live under the
    key of the plan: one that gives entries back as they are, the store inside the
    process, or a key-value store with the record, which has no expiry. -/
theorem planned_answers_lookup {σ : Type} {c : ResponseCache σ} {request : Request}
    {response : Response} {plan : StorePlan} (h : (c.plan request response).1 = some plan)
    (written now : Instant) (body : List UInt8) :
    (∀ {τ : Type} [ResponseStore τ] (d : ResponseCache τ), d.settings = c.settings →
      (ResponseStore.get now plan.key.hash d.store).1 = some (plannedEntry written plan body) →
      (d.lookup now request).1.Gives request (plannedEntry written plan body)) ∧
    (∀ d : ResponseCache MemoryStore, d.settings = c.settings →
      d.store.entries.get? plan.key.hash = some (plannedEntry written plan body) →
      (plannedEntry written plan body).isLive now = true →
      (d.lookup now request).1.Gives request (plannedEntry written plan body)) ∧
    ∀ {κ : Type} [KeyValueStore κ] (d : ResponseCache (NetworkedStore κ)),
      d.settings = c.settings →
      (KeyValueStore.get (d.store.space.key plan.key.hash) d.store.kv).1 =
        .ok (some (plannedEntry written plan body).write) →
      (d.lookup now request).1.Gives request
        { plannedEntry written plan body with expiresAt := none } := by
  have hplans := plan_eq_some_iff.1 h
  have hkey : plan.key = CacheKey.derive request := by rw [hplans.plan_eq]
  have hserve := hplans.mayServe_replay written body
  rw [hkey]
  refine ⟨fun d hsettings hget => ?_, fun d hsettings hheld hlive => ?_,
    fun d hsettings hheld => ?_⟩
  · exact lookup_gives (hsettings ▸ hplans.takesPart) hget hserve
  · exact lookup_gives (hsettings ▸ hplans.takesPart) (MemoryStore.get_of_held hheld hlive) hserve
  · exact lookup_gives (hsettings ▸ hplans.takesPart) (NetworkedStore.get_of_held hheld now) hserve

/-- A caller with credentials who sends a body and opts in. -/
def authorizedPosting : Request :=
  ⟨.post, .root, ⟨[(.authorization, ⟨[0x78], by decide⟩),
    (.cacheControl, ⟨Text.Utf8.encode "max-age=60, public", by decide⟩)]⟩⟩

/-- A response for everyone. -/
def publicResponse : Response :=
  ⟨200, ⟨[(.cacheControl, ⟨Text.Utf8.encode "public", by decide⟩)]⟩⟩

/-- The plan to keep that response for sixty nanoseconds. -/
def publicPlan : StorePlan :=
  ⟨CacheKey.derive authorizedPosting, publicResponse.status, publicResponse.fields, ⟨60⟩⟩

/-- The entry that was made out of the plan for a body of one byte. -/
def publicEntry : Entry := plannedEntry ⟨1⟩ publicPlan [1]

/-- A cache that holds just this entry. -/
def holdingPublic : ResponseCache MemoryStore :=
  ⟨⟨Dict.empty.insert publicPlan.key.hash publicEntry, none⟩, ⟨true, ⟨60⟩, 10⟩, {}⟩

theorem planned_answers_lookup_authorized :
    (holdingPublic.plan authorizedPosting publicResponse).1 = some publicPlan ∧
      holdingPublic.store.entries.get? publicPlan.key.hash = some publicEntry ∧
      publicEntry.isLive ⟨2⟩ = true ∧
      ((holdingPublic.lookup ⟨2⟩ authorizedPosting).1 = .hit publicEntry ∨
        (holdingPublic.lookup ⟨2⟩ authorizedPosting).1 = .notModified publicEntry) := by
  have hlifetime : holdingPublic.settings.lifetime authorizedPosting publicResponse = ⟨60⟩ := by
    decide +kernel
  have hplan : (holdingPublic.plan authorizedPosting publicResponse).1 = some publicPlan :=
    plan_eq_some_iff.2 {
      takesPart := by decide +kernel
      cacheable := by decide +kernel
      fits := by decide +kernel
      lasts := by rw [hlifetime]; decide
      plan_eq := by rw [hlifetime, publicPlan] }
  have hheld : holdingPublic.store.entries.get? publicPlan.key.hash = some publicEntry := by
    rw [holdingPublic, Dict.get?_insert, if_pos rfl]
  have hlive : publicEntry.isLive ⟨2⟩ = true := by decide +kernel
  have hgives := (planned_answers_lookup hplan ⟨1⟩ ⟨2⟩ [1]).2.1 holdingPublic rfl hheld hlive
  exact ⟨hplan, hheld, hlive, hgives.served (by decide +kernel)⟩

end ResponseCache

end GatewayCache
