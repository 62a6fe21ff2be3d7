/-
  GatewayCache.Proofs.Policy.Reading

  What the policies read of a response's fields.

  Only the directives, the first content type, the texts of the variants and the
  first validators are read. So fields whose values under these names are read alike
  get the same answers from all policies (`decidedAlike_of_readAlike`).
-/

import GatewayCache.Policy
import GatewayCache.Proofs.Http.FieldText
import GatewayCache.Validators

namespace GatewayCache

open GatewayCache.Http

variable {f g : Fields} {request : Request}

/-! ## Single policies -/

namespace Policy

theorem isCacheable_congr {status : UInt16}
    (hcontrol : CacheControl.ofFields f = CacheControl.ofFields g)
    (htype : f.firstText? FieldName.contentType = g.firstText? FieldName.contentType)
    (hvary : f.texts FieldName.vary = g.texts FieldName.vary) :
    isCacheable request ⟨status, f⟩ = isCacheable request ⟨status, g⟩ := by
  rw [isCacheable, isCacheable, hcontrol, isEventStream, isEventStream, htype, variesOnAnything,
    variesOnAnything, hvary]

theorem lifetime_congr (hcontrol : CacheControl.ofFields f = CacheControl.ofFields g)
    (default : Span) : lifetime f default = lifetime g default := by
  rw [lifetime, lifetime, hcontrol]

theorem mayServe_congr (hcontrol : CacheControl.ofFields f = CacheControl.ofFields g) :
    mayServe request f = mayServe request g := by
  rw [mayServe, mayServe, hcontrol]

/-- A response that may be stored for a request may be served to it. -/
theorem mayServe_of_isCacheable {response : Response} (h : isCacheable request response = true) :
    mayServe request response.fields = true := by
  simp only [isCacheable, Bool.and_eq_true] at h
  exact h.1.1.2

end Policy

theorem Validators.confirms_congr
    (htag : f.firstText? FieldName.etag = g.firstText? FieldName.etag)
    (hdate : f.firstText? FieldName.lastModified = g.firstText? FieldName.lastModified) :
    confirms request f = confirms request g := by
  rw [confirms, confirms, tagMatches, tagMatches, htag, dateMatches, dateMatches, dateOf, dateOf,
    dateOf, hdate]

/-! ## All policies -/

/-- No policy tells the fields apart. -/
structure DecidedAlike (f g : Fields) : Prop where
  cacheControl : CacheControl.ofFields f = CacheControl.ofFields g
  lifetime : ∀ default, Policy.lifetime f default = Policy.lifetime g default
  mayServe : ∀ request, Policy.mayServe request f = Policy.mayServe request g
  confirms : ∀ request, Validators.confirms request f = Validators.confirms request g
  isCacheable : ∀ request status,
    Policy.isCacheable request ⟨status, f⟩ = Policy.isCacheable request ⟨status, g⟩

/-- The fields of a response that the policies read. -/
def Policy.readNames : List FieldName :=
  [.cacheControl, .contentType, .vary, .etag, .lastModified]

theorem decidedAlike_of_readAlike (h : ∀ n ∈ Policy.readNames, f.ReadAlike g n) :
    DecidedAlike f g := by
  simp only [Policy.readNames, List.forall_mem_cons] at h
  obtain ⟨hcontrol, htype, hvary, htag, hdate, -⟩ := h
  have hdirectives : CacheControl.ofFields f = CacheControl.ofFields g := by
    rw [CacheControl.ofFields, CacheControl.ofFields, hcontrol.texts_eq]
  exact {
    cacheControl := hdirectives
    lifetime := Policy.lifetime_congr hdirectives
    mayServe := fun _ => Policy.mayServe_congr hdirectives
    confirms := fun _ => Validators.confirms_congr htag.firstText?_eq hdate.firstText?_eq
    isCacheable := fun _ _ =>
      Policy.isCacheable_congr hdirectives htype.firstText?_eq hvary.texts_eq }

end GatewayCache
