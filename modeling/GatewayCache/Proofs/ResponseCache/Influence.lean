/-
  GatewayCache.Proofs.ResponseCache.Influence

  What a cache sees of a request.

  Two requests are seen alike (`Request.SeenAlike`) if they have the same method, the
  same path, the same query pairs in any order and the same values in the listed
  fields, and if both or neither carry credentials. No policy, no validator and no
  key tells them apart, so every call that takes the one gives the same answer and
  leaves the same cache as with the other (`decisions_see_listed_parts_only`), and
  sessions whose requests are seen alike go the same way (`Session.run_congr`).
-/

import GatewayCache.Proofs.Key.RequestLine
import GatewayCache.ResponseCache.Session
import GatewayCache.Store.Memory
import Mathlib.Data.List.Forall2

namespace GatewayCache

open GatewayCache.Http

/-! ## What is seen -/

namespace Http

/-- The fields whose values are seen. -/
def Fields.seenNames : List FieldName :=
  [.accept, .acceptEncoding, .acceptLanguage, .bodyHash, .cacheControl, .ifNoneMatch,
   .ifModifiedSince]

/-- The fields have the same values in the same order under the listed names, and
    both or neither carry credentials, whatever these are. -/
structure Fields.SeenAlike (f g : Fields) : Prop where
  values : ∀ n ∈ Fields.seenNames, f.values n = g.values n
  authorized : f.has FieldName.authorization = g.has FieldName.authorization

/-- The requests differ in nothing that a cache sees. -/
structure Request.SeenAlike (r r' : Request) : Prop where
  line : CacheKey.SameLine r r'
  fields : r.fields.SeenAlike r'.fields

namespace Fields.SeenAlike

variable {f g : Fields} (h : f.SeenAlike g)

include h

theorem has_eq {n : FieldName} (hn : n ∈ seenNames) : f.has n = g.has n := by
  rw [has, has, h.values n hn]

theorem texts_eq {n : FieldName} (hn : n ∈ seenNames) : f.texts n = g.texts n := by
  rw [texts, texts, h.values n hn]

theorem firstText?_eq {n : FieldName} (hn : n ∈ seenNames) : f.firstText? n = g.firstText? n := by
  rw [firstText?, firstText?, first?, first?, h.values n hn]

theorem cacheControl_eq : CacheControl.ofFields f = CacheControl.ofFields g := by
  rw [CacheControl.ofFields, CacheControl.ofFields, h.texts_eq (by decide)]

end Fields.SeenAlike

/-! ### Requests for addresses -/

/-- What stands in front of a path: a scheme and an authority. -/
structure Target.Leads (scheme authority rest : List UInt8) : Prop where
  scheme : ∀ b ∈ scheme, Target.isSchemeByte b = true
  authority : ∀ b ∈ authority, Target.endsAuthority b = false
  rest : ∀ b ∈ rest.head?, Target.endsAuthority b = true

theorem Request.parts_of_build {method target : List UInt8}
    {lines : List (List UInt8 × List UInt8)} {r : Request}
    (h : build method target lines = .ok r) :
    Method.ofBytes? method = some r.method ∧ Target.ofBytes? target = some r.target := by
  unfold build at h
  cases hm : Method.ofBytes? method with
  | none =>
      rw [hm] at h
      cases h
  | some m =>
      cases ht : Target.ofBytes? target with
      | none =>
          rw [hm, ht] at h
          cases h
      | some t =>
          rw [hm, ht] at h
          cases hf : Fields.build lines with
          | error fault =>
              rw [hf] at h
              cases h
          | ok fields =>
              rw [hf] at h
              obtain rfl := Except.ok.inj h
              exact ⟨rfl, rfl⟩

/-- Requests that are sent to different places for the same thing have the same
    line. -/
theorem Request.sameLine_of_build {method scheme authority scheme' authority' rest : List UInt8}
    {lines lines' : List (List UInt8 × List UInt8)} {r r' : Request}
    (leads : Target.Leads scheme authority rest) (leads' : Target.Leads scheme' authority' rest)
    (h : build method (Target.absolute scheme authority rest) lines = .ok r)
    (h' : build method (Target.absolute scheme' authority' rest) lines' = .ok r') :
    CacheKey.SameLine r r' := by
  obtain ⟨hmethod, htarget⟩ := parts_of_build h
  obtain ⟨hmethod', htarget'⟩ := parts_of_build h'
  -- Both targets are what stands behind the authority.
  have hsame : r.target = r'.target := by
    have hrest := Target.ofPathAndQuery?_of_absolute leads.scheme leads.authority leads.rest htarget
    rw [Target.ofPathAndQuery?_of_absolute leads'.scheme leads'.authority leads'.rest htarget']
      at hrest
    exact (Option.some.inj hrest).symm
  constructor
  · exact Option.some.inj (hmethod.symm.trans hmethod')
  · rw [hsame]
  · rw [hsame]

end Http

/-! ## Nothing else is seen -/

namespace Http.Request.SeenAlike

variable {r r' : Request} (h : r.SeenAlike r')

include h

theorem derive_eq : CacheKey.derive r = CacheKey.derive r' := by
  apply CacheKey.derive_congr (CacheKey.requestLine_eq_iff.2 h.line)
  · -- The fields that negotiate are among the listed ones.
    apply CacheKey.negotiation_congr
    intro n hn
    apply h.fields.values
    revert n
    decide
  · exact CacheKey.suffix_congr h.line.method (h.fields.values _ (by decide))
      (h.fields.values _ (by decide))

/-! ### Policies -/

theorem isEligible_eq : Policy.isEligible r = Policy.isEligible r' := by
  rw [Policy.isEligible, Policy.isEligible, Policy.optsIn, Policy.optsIn, h.line.method,
    h.fields.cacheControl_eq]

theorem wantsRevalidation_eq : Policy.wantsRevalidation r = Policy.wantsRevalidation r' := by
  rw [Policy.wantsRevalidation, Policy.wantsRevalidation, h.fields.cacheControl_eq]

theorem requestedLifetime_eq : Policy.requestedLifetime r = Policy.requestedLifetime r' := by
  rw [Policy.requestedLifetime, Policy.requestedLifetime, h.fields.cacheControl_eq]

theorem isConditional_eq : Policy.isConditional r = Policy.isConditional r' := by
  rw [Policy.isConditional, Policy.isConditional, h.fields.has_eq (by decide),
    h.fields.has_eq (n := .ifModifiedSince) (by decide)]

/-- Of credentials only their presence counts. -/
theorem mayServe_eq (stored : Fields) : Policy.mayServe r stored = Policy.mayServe r' stored := by
  rw [Policy.mayServe, Policy.mayServe, h.fields.authorized]

theorem isCacheable_eq (response : Response) :
    Policy.isCacheable r response = Policy.isCacheable r' response := by
  rw [Policy.isCacheable, Policy.isCacheable, h.fields.authorized]

/-! ### Validators -/

theorem tagMatches_eq (stored : Fields) :
    Validators.tagMatches r stored = Validators.tagMatches r' stored := by
  rw [Validators.tagMatches, Validators.tagMatches, Validators.requestedTags,
    Validators.requestedTags, h.fields.texts_eq (by decide)]

theorem dateMatches_eq (stored : Fields) :
    Validators.dateMatches r stored = Validators.dateMatches r' stored := by
  have hclient : Validators.dateOf r.fields FieldName.ifModifiedSince =
      Validators.dateOf r'.fields FieldName.ifModifiedSince := by
    rw [Validators.dateOf, Validators.dateOf, h.fields.firstText?_eq (by decide)]
  rw [Validators.dateMatches, Validators.dateMatches, hclient]

theorem confirms_eq (stored : Fields) :
    Validators.confirms r stored = Validators.confirms r' stored := by
  rw [Validators.confirms, Validators.confirms, h.fields.has_eq (by decide),
    h.fields.has_eq (n := .ifModifiedSince) (by decide), h.tagMatches_eq, h.dateMatches_eq]

/-! ### Decisions -/

theorem takesPart_eq (s : CacheSettings) : s.takesPart r = s.takesPart r' := by
  rw [CacheSettings.takesPart, CacheSettings.takesPart, h.isEligible_eq]

theorem lifetime_eq (s : CacheSettings) (response : Response) :
    s.lifetime r response = s.lifetime r' response := by
  rw [CacheSettings.lifetime, CacheSettings.lifetime, h.requestedLifetime_eq]

theorem decide_eq (s : CacheSettings) (response : Response) :
    s.decide r response = s.decide r' response := by
  rw [CacheSettings.decide, CacheSettings.decide, h.takesPart_eq, h.isCacheable_eq, h.lifetime_eq,
    h.derive_eq]

theorem answer_eq (e : Entry) : ResponseCache.answer r e = ResponseCache.answer r' e := by
  rw [ResponseCache.answer, ResponseCache.answer, h.mayServe_eq, h.isConditional_eq, h.confirms_eq,
    h.derive_eq]

/-! ### Calls -/

variable {σ : Type} (c : ResponseCache σ)

theorem lookup_eq [ResponseStore σ] (now : Instant) : c.lookup now r = c.lookup now r' := by
  rw [ResponseCache.lookup, ResponseCache.lookup, h.takesPart_eq, h.wantsRevalidation_eq,
    h.derive_eq, funext h.answer_eq]

theorem plan_eq (response : Response) : c.plan r response = c.plan r' response := by
  rw [ResponseCache.plan, ResponseCache.plan, h.decide_eq]

end Http.Request.SeenAlike

/-! ## Sessions -/

namespace Session

variable {σ : Type} [ResponseStore σ]

/-- The calls differ at most in requests that are seen alike. -/
inductive Op.SeenAlike : Op → Op → Prop where
  | lookup {r r' : Request} (h : r.SeenAlike r') : SeenAlike (.lookup r) (.lookup r')
  | decide {r r' : Request} (h : r.SeenAlike r') (response : Response) :
      SeenAlike (.decide r response) (.decide r' response)
  | same (op : Op) : SeenAlike op op

theorem step_congr {op op' : Op} (h : op.SeenAlike op') (now : Instant) (s : Session σ) :
    s.step now op = s.step now op' := by
  cases h with
  | lookup h => rw [step, step, h.lookup_eq]
  | decide h response => rw [step, step, h.plan_eq]
  | same op => rfl

/-- Sessions with calls that are seen alike, at the same instants, give the same
    replies and end in the same state. -/
theorem run_congr {ops ops' : List (Instant × Op)}
    (h : List.Forall₂ (fun c c' => c.1 = c'.1 ∧ c.2.SeenAlike c'.2) ops ops') (s : Session σ) :
    run ops s = run ops' s := by
  induction h generalizing s with
  | nil => rfl
  | @cons c c' ops ops' hc _ ih =>
      obtain ⟨now, op⟩ := c
      obtain ⟨now', op'⟩ := c'
      obtain ⟨rfl, halike⟩ : now = now' ∧ op.SeenAlike op' := hc
      simp only [runSteps, step_congr halike, ih]

end Session

/-! ## The cache -/

namespace ResponseCache

/-- Whatever a cache holds and however it is set up, requests that are seen alike are
    looked up with the same outcome, have the same plans made for every response, and
    leave the same store and the same counters. Where a request is sent, that is
    scheme and authority, is not seen. -/
theorem decisions_see_listed_parts_only {σ : Type} [ResponseStore σ] (c : ResponseCache σ)
    (now : Instant) (r r' : Request) (hfields : r.fields.SeenAlike r'.fields) :
    (CacheKey.SameLine r r' →
      c.lookup now r = c.lookup now r' ∧ ∀ response, c.plan r response = c.plan r' response) ∧
    ∀ (method scheme authority scheme' authority' rest : List UInt8)
      (lines lines' : List (List UInt8 × List UInt8)),
      Target.Leads scheme authority rest → Target.Leads scheme' authority' rest →
      Request.build method (Target.absolute scheme authority rest) lines = .ok r →
      Request.build method (Target.absolute scheme' authority' rest) lines' = .ok r' →
      c.lookup now r = c.lookup now r' ∧ ∀ response, c.plan r response = c.plan r' response := by
  have hline : CacheKey.SameLine r r' →
      c.lookup now r = c.lookup now r' ∧ ∀ response, c.plan r response = c.plan r' response := by
    intro line
    have alike : r.SeenAlike r' := ⟨line, hfields⟩
    exact ⟨alike.lookup_eq c now, alike.plan_eq c⟩
  refine ⟨hline, ?_⟩
  intro method scheme authority scheme' authority' rest lines lines' leads leads' h h'
  exact hline (Request.sameLine_of_build leads leads' h h')

/-- A request with a query and credentials. -/
def asking (query : String) (credentials : FieldValue) : Request :=
  ⟨.get, ⟨"/p", some query, by decide⟩, ⟨[(.accept, ⟨[0x62], by decide⟩),
    (.authorization, credentials)]⟩⟩

/-- The credentials of two callers. -/
def oneToken : FieldValue := ⟨Text.Utf8.encode "Bearer x", by decide⟩

def otherToken : FieldValue := ⟨Text.Utf8.encode "Basic yz", by decide⟩

/-- What is built of such a request for `/p?q` that names a scheme and an authority. -/
def askedAt (scheme authority : String) (credentials : FieldValue) : Except BuildFault Request :=
  Request.build (Text.Utf8.encode "GET")
    (Target.absolute (Text.Utf8.encode scheme) (Text.Utf8.encode authority)
      (Text.Utf8.encode "/p?q"))
    [(Text.Utf8.encode "Accept", [0x62]), (Text.Utf8.encode "Authorization", credentials.bytes)]

/-- An empty cache that keeps bodies of up to ten bytes. -/
def emptyCache : ResponseCache MemoryStore := ⟨.unbounded, ⟨true, ⟨60⟩, 10⟩, {}⟩

theorem seenAlike_fields_asking (query query' : String) (v v' : FieldValue) :
    (asking query v).fields.SeenAlike (asking query' v').fields where
  values n hn := by
    revert n
    simp only [Fields.seenNames, List.forall_mem_cons]
    exact ⟨rfl, rfl, rfl, rfl, rfl, rfl, rfl, fun n hn => by cases hn⟩
  authorized := rfl

theorem sameLine_asking {query query' : String} {v v' : FieldValue}
    (h : (CacheKey.queryPairs (asking query v).target).Perm
      (CacheKey.queryPairs (asking query' v').target)) :
    CacheKey.SameLine (asking query v) (asking query' v') where
  method := rfl
  path := rfl
  pairs := h

/-- Two callers ask the same in another order, or at `http://a` and `https://b:8`. -/
theorem decisions_see_listed_parts_only_elsewhere :
    (CacheKey.SameLine (asking "x=1&y=2" oneToken) (asking "y=2&%78=1" otherToken) ∧
      emptyCache.lookup ⟨0⟩ (asking "x=1&y=2" oneToken) =
        emptyCache.lookup ⟨0⟩ (asking "y=2&%78=1" otherToken)) ∧
    askedAt "http" "a" oneToken = .ok (asking "q" oneToken) ∧
    askedAt "https" "b:8" otherToken = .ok (asking "q" otherToken) ∧
    emptyCache.lookup ⟨0⟩ (asking "q" oneToken) = emptyCache.lookup ⟨0⟩ (asking "q" otherToken) := by
  have hline : CacheKey.SameLine (asking "x=1&y=2" oneToken) (asking "y=2&%78=1" otherToken) :=
    sameLine_asking (by decide +kernel)
  have leads : Target.Leads (Text.Utf8.encode "http") (Text.Utf8.encode "a")
      (Text.Utf8.encode "/p?q") := ⟨by decide +kernel, by decide +kernel, by decide +kernel⟩
  have leads' : Target.Leads (Text.Utf8.encode "https") (Text.Utf8.encode "b:8")
      (Text.Utf8.encode "/p?q") := ⟨by decide +kernel, by decide +kernel, by decide +kernel⟩
  have built : askedAt "http" "a" oneToken = .ok (asking "q" oneToken) := rfl
  have built' : askedAt "https" "b:8" otherToken = .ok (asking "q" otherToken) := rfl
  have hreordered := (decisions_see_listed_parts_only emptyCache ⟨0⟩ _ _
    (seenAlike_fields_asking "x=1&y=2" "y=2&%78=1" oneToken otherToken)).1 hline
  refine ⟨⟨hline, hreordered.1⟩, built, built', ?_⟩
  rw [askedAt] at built built'
  exact ((decisions_see_listed_parts_only emptyCache ⟨0⟩ _ _
    (seenAlike_fields_asking "q" "q" oneToken otherToken)).2 _ _ _ _ _ _ _ _ leads leads' built
      built').1

end ResponseCache

end GatewayCache
