/-
  GatewayCache.Proofs.Policy.Forbidden

  Responses that forbid to be stored.

  A readable value that lists no-store or private sets a flag of the message,
  whatever stands beside it, so the response is never stored
  (`forbidden_never_stored`). A value with ill-formed bytes has no text, and then
  it forbids nothing (`not_forbidden_never_stored`).
-/

import GatewayCache.Proofs.CacheControl.Directives
import GatewayCache.Proofs.Http.FieldText
import GatewayCache.Proofs.Http.Target
import GatewayCache.Proofs.Policy.Reading
import GatewayCache.Proofs.ResponseCache.Plan

namespace GatewayCache

open GatewayCache.Http

namespace Http.FieldValue

/-- The bytes of the value are well-formed text. -/
def isWellFormed (v : FieldValue) : Bool := (Text.Utf8.decode? v.bytes).isSome

theorem text?_of_not_wellFormed {v : FieldValue} (h : v.isWellFormed = false) :
    v.text? = none := by
  rw [text?, if_neg]
  intro hreadable
  have hdecode := Text.Utf8.decode?_encode v.stored
  rw [encode_stored_of_readable hreadable] at hdecode
  rw [isWellFormed, hdecode] at h
  cases h

theorem filterMap_text?_filter_wellFormed (vs : List FieldValue) :
    (vs.filter isWellFormed).filterMap text? = vs.filterMap text? := by
  rw [List.filterMap_filter]
  congr 1
  funext v
  cases h : v.isWellFormed with
  | true => rfl
  | false => rw [text?_of_not_wellFormed h]; rfl

end Http.FieldValue

namespace CacheControl

/-- The value lists a directive that forbids to store the response, its ill-formed
    bytes replaced. -/
def Forbids (v : FieldValue) : Prop :=
  Lists (Text.Utf8.read v.bytes) "no-store" ∨ Lists (Text.Utf8.read v.bytes) "private"

instance (v : FieldValue) : Decidable (Forbids v) :=
  inferInstanceAs (Decidable (Lists _ _ ∨ Lists _ _))

/-- A readable value that forbids it makes the whole message forbid it. -/
theorem noStore_or_isPrivate_of_forbids {f : Fields} {v : FieldValue}
    (hv : v ∈ f.values FieldName.cacheControl) (hreadable : v.bytes.all isReadableByte = true)
    (h : Forbids v) : (ofFields f).noStore = true ∨ (ofFields f).isPrivate = true := by
  have htext : Text.Utf8.read v.bytes ∈ f.texts FieldName.cacheControl :=
    List.mem_filterMap.2 ⟨v, hv, FieldValue.text?_of_readable hreadable⟩
  rcases h with hstore | hprivate
  · have hsets := (isFlag_noStore.parse_iff_lists rfl).2 hstore
    exact .inl ((isFlag_noStore.ofFields_iff f).2 ⟨_, htext, hsets⟩)
  · have hsets := (isFlag_isPrivate.parse_iff_lists rfl).2 hprivate
    exact .inr ((isFlag_isPrivate.ofFields_iff f).2 ⟨_, htext, hsets⟩)

end CacheControl

namespace Policy

theorem isCacheable_eq_false {request : Request} {response : Response}
    (h : (CacheControl.ofFields response.fields).noStore = true ∨
      (CacheControl.ofFields response.fields).isPrivate = true) :
    isCacheable request response = false := by
  rcases h with hstore | hprivate
  · simp [isCacheable, hstore]
  · simp [isCacheable, hprivate]

/-- A response with a readable value that forbids to store it is never stored,
    whatever other directives and values accompany it. Values with ill-formed bytes
    take no part in the decision whether a response is cacheable. -/
theorem forbidden_never_stored (request : Request) (response : Response) :
    (∀ v ∈ response.fields.values FieldName.cacheControl,
      v.bytes.all isReadableByte = true → CacheControl.Forbids v →
        isCacheable request response = false ∧
          ∀ (σ : Type) (c : ResponseCache σ), (c.plan request response).1 = none) ∧
    ∀ f : Fields,
      f.values FieldName.cacheControl =
        (response.fields.values FieldName.cacheControl).filter FieldValue.isWellFormed →
      (∀ n, n ≠ FieldName.cacheControl → f.values n = response.fields.values n) →
      isCacheable request ⟨response.status, f⟩ = isCacheable request response := by
  constructor
  · intro v hv hreadable hforbids
    have hcacheable : isCacheable request response = false :=
      isCacheable_eq_false (CacheControl.noStore_or_isPrivate_of_forbids hv hreadable hforbids)
    exact ⟨hcacheable, fun σ c => ResponseCache.plan_eq_none_of_not_cacheable hcacheable⟩
  · intro f hcontrol hother
    apply isCacheable_congr
    · rw [CacheControl.ofFields, CacheControl.ofFields, Fields.texts, Fields.texts, hcontrol,
        FieldValue.filterMap_text?_filter_wellFormed]
    · rw [Fields.firstText?, Fields.firstText?, Fields.first?, Fields.first?,
        hother _ (by decide)]
    · rw [Fields.texts, Fields.texts, hother _ (by decide)]

/-- A request for the root of a server. -/
def plainRequest : Request := ⟨.get, .root, .empty⟩

/-- A response with values for its directives. -/
def directing (values : List FieldValue) : Response :=
  ⟨200, ⟨values.map fun v => (.cacheControl, v)⟩⟩

/-- A directive in capitals with an argument, behind a lifetime. -/
def privateValue : FieldValue := ⟨Text.Utf8.encode "max-age=60, PRIVATE =x", by decide⟩

/-- Ill-formed bytes. -/
def brokenValue : FieldValue := ⟨[0xFF], by decide⟩

theorem forbidden_never_stored_beside_broken :
    privateValue ∈ (directing [brokenValue, privateValue]).fields.values FieldName.cacheControl ∧
      privateValue.bytes.all isReadableByte = true ∧ CacheControl.Forbids privateValue ∧
      isCacheable plainRequest (directing [brokenValue, privateValue]) = false ∧
      (ResponseCache.plan plainRequest (directing [brokenValue, privateValue])
        ⟨(), ⟨true, ⟨60⟩, 1⟩, {}⟩).1 = none ∧
      (directing [privateValue]).fields.values FieldName.cacheControl =
        ((directing [brokenValue, privateValue]).fields.values FieldName.cacheControl).filter
          FieldValue.isWellFormed ∧
      isCacheable plainRequest (directing [privateValue]) =
        isCacheable plainRequest (directing [brokenValue, privateValue]) := by
  have hmem : privateValue ∈
      (directing [brokenValue, privateValue]).fields.values FieldName.cacheControl := by decide
  have hreadable : privateValue.bytes.all isReadableByte = true := by decide
  have hforbids : CacheControl.Forbids privateValue := by decide +kernel
  have hkept : (directing [privateValue]).fields.values FieldName.cacheControl =
      ((directing [brokenValue, privateValue]).fields.values FieldName.cacheControl).filter
        FieldValue.isWellFormed := by decide +kernel
  have hother : ∀ n, n ≠ FieldName.cacheControl → (directing [privateValue]).fields.values n =
      (directing [brokenValue, privateValue]).fields.values n := by
    intro n hn
    simp [directing, Fields.values, hn.symm]
  obtain ⟨hnever, hskipped⟩ :=
    forbidden_never_stored plainRequest (directing [brokenValue, privateValue])
  obtain ⟨hcacheable, hplan⟩ := hnever _ hmem hreadable hforbids
  exact ⟨hmem, hreadable, hforbids, hcacheable, hplan _ _, hkept, hskipped _ hkept hother⟩

/-- A private response whose directive has a neighbour with an ill-formed byte. -/
def hiddenPrivate : Response :=
  directing [⟨Text.Utf8.encode "private, x=" ++ [0xE9], by decide⟩]

/-- The neighbour hides the directive, and the response counts as cacheable. -/
theorem not_forbidden_never_stored :
    ¬ ∀ (request : Request) (response : Response),
      (∃ v ∈ response.fields.values FieldName.cacheControl, CacheControl.Forbids v) →
        isCacheable request response = false ∧
          ∀ (σ : Type) (c : ResponseCache σ), (c.plan request response).1 = none := by
  intro h
  have hforbids : ∃ v ∈ hiddenPrivate.fields.values FieldName.cacheControl,
      CacheControl.Forbids v := by decide +kernel
  have hcacheable : isCacheable plainRequest hiddenPrivate = true := by decide +kernel
  rw [(h plainRequest hiddenPrivate hforbids).1] at hcacheable
  cases hcacheable

end Policy

end GatewayCache
