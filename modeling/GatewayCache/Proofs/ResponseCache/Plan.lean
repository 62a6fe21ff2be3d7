/-
  GatewayCache.Proofs.ResponseCache.Plan

  When a response is planned to be stored.

  A plan is made exactly when the cache takes part in the request and the response
  is cacheable, not declared too large and not stale at once; it is then made out
  of the request's key and the response (`CacheSettings.decide_eq_store_iff`).
-/

import GatewayCache.ResponseCache

namespace GatewayCache

open GatewayCache.Http

/-- The plan to store a response to a request, with all that has to hold for it. -/
structure CacheSettings.Plans (s : CacheSettings) (request : Request) (response : Response)
    (plan : StorePlan) : Prop where
  takesPart : s.takesPart request = true
  cacheable : Policy.isCacheable request response = true
  fits : s.declaredTooLarge response.fields = false
  lasts : (s.lifetime request response).nanos ≠ 0
  plan_eq : plan = ⟨CacheKey.derive request, response.status, response.fields,
    s.lifetime request response⟩

theorem CacheSettings.decide_eq_store_iff {s : CacheSettings} {request : Request}
    {response : Response} {plan : StorePlan} :
    s.decide request response = .store plan ↔ s.Plans request response plan := by
  constructor
  · intro h
    unfold decide at h
    split at h
    · cases h
    next hpart =>
      split at h
      · cases h
      next hcacheable =>
        split at h
        · cases h
        next hfits =>
          dsimp only at h
          split at h
          · cases h
          next hlasts =>
            exact ⟨by simpa using hpart, by simpa using hcacheable, by simpa using hfits, hlasts,
              (Decision.store.inj h).symm⟩
  · intro h
    rw [decide, h.takesPart, h.cacheable, h.fits, h.plan_eq]
    simp [h.lasts]

namespace ResponseCache

variable {σ : Type} {c : ResponseCache σ} {request : Request} {response : Response}

theorem plan_eq_some_iff {plan : StorePlan} :
    (c.plan request response).1 = some plan ↔ c.settings.Plans request response plan := by
  rw [← CacheSettings.decide_eq_store_iff, ResponseCache.plan]
  cases c.settings.decide request response with
  | ignore => simp
  | skip => simp
  | store p => simp

/-- No plan is made for a response that is not cacheable. -/
theorem plan_eq_none_of_not_cacheable (h : Policy.isCacheable request response = false) :
    (c.plan request response).1 = none := by
  rw [Option.eq_none_iff_forall_not_mem]
  intro plan hplan
  have hcacheable := (plan_eq_some_iff.1 hplan).cacheable
  rw [h] at hcacheable
  cases hcacheable

end ResponseCache

end GatewayCache
