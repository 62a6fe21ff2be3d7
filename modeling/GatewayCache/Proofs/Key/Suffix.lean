/-
  GatewayCache.Proofs.Key.Suffix

  What the suffix of a key tells about the body and the asked lifetime.

  The body hash is free text of the client, but the text of a lifetime class has
  no bar, so the last bar of a suffix stands in front of the class
  (`suffix_inj`). A request that the cache takes part in has a class exactly when
  it carries a body, and its method is told by the request line. So equal keys
  have body hash and class in common, up to a collision
  (`same_key_same_body_and_lifetime`).
-/

import GatewayCache.Policy
import GatewayCache.Proofs.Key.RequestLine
import Mathlib.Data.List.Nodup

namespace GatewayCache

open GatewayCache.Http GatewayCache.Text

namespace CacheKey

/-! ## Lifetime classes -/

/-- The lifetime that a class asks for. -/
def LifetimeClass.span : LifetimeClass → Span
  | .shared n => Span.ofSeconds n
  | .plain n => Span.ofSeconds n

theorem LifetimeClass.toList_text (c : LifetimeClass) :
    c.text.toList = match c with
      | .shared n => ['s', 'm', 'a', 'x', '='] ++ Decimal.write n
      | .plain n => ['m', 'a', 'x', '='] ++ Decimal.write n := by
  cases c with
  | shared n => rw [text, String.toList_append, String.toList_ofList, String.toList_ofList]
  | plain n => rw [text, String.toList_append, String.toList_ofList, String.toList_ofList]

theorem LifetimeClass.text_injective {c d : LifetimeClass}
    (h : c.text.toList = d.text.toList) : c = d := by
  rw [toList_text, toList_text] at h
  cases c with
  | shared m =>
      cases d with
      | shared n => rw [Decimal.write_injective (List.append_cancel_left h)]
      | plain n => cases h
  | plain m =>
      cases d with
      | shared n => cases h
      | plain n => rw [Decimal.write_injective (List.append_cancel_left h)]

theorem LifetimeClass.bar_not_mem_text (c : LifetimeClass) : '|' ∉ c.text.toList := by
  have hwrite : ∀ n, '|' ∉ Decimal.write n := fun n h =>
    absurd (Decimal.isDigit_of_mem_write h) (by decide)
  rw [toList_text]
  cases c with
  | shared n => exact List.not_mem_append (by decide) (hwrite n)
  | plain n => exact List.not_mem_append (by decide) (hwrite n)

section

variable {r r' : Request} {c c' : LifetimeClass}

/-- No method both asks for a resource only and carries a body. -/
theorem carriesBody_of_onlyAsks (h : r.method.onlyAsks = true) :
    r.method.carriesBody = false := by
  rcases Bool.or_eq_true_iff.1 h with hget | hhead
  · rw [beq_iff_eq.1 hget]
    decide
  · rw [beq_iff_eq.1 hhead]
    decide

/-- A request with a body that opts in has a class. -/
theorem exists_lifetimeClass?_of_optsIn (hbody : r.method.carriesBody = true)
    (h : Policy.optsIn r = true) : ∃ c, lifetimeClass? r = some c := by
  obtain ⟨hpublic, hage⟩ := Bool.and_eq_true_iff.1 h
  rw [lifetimeClass?, hbody, hpublic, Bool.and_self, if_pos rfl]
  cases hshared : (CacheControl.ofFields r.fields).positiveSharedMaxAge with
  | some n => exact ⟨.shared n, rfl⟩
  | none =>
      rw [hshared, Option.isSome_none, Bool.or_false] at hage
      obtain ⟨n, hn⟩ := Option.isSome_iff_exists.1 hage
      exact ⟨.plain n, by rw [hn]; rfl⟩

/-- A request that the cache takes part in has a class exactly when its method
    carries a body. -/
theorem lifetimeClass?_eq_none_iff (h : Policy.isEligible r = true) :
    lifetimeClass? r = none ↔ r.method.carriesBody = false := by
  rcases Bool.or_eq_true_iff.1 h with hasks | hbody
  · have hnone := carriesBody_of_onlyAsks hasks
    rw [lifetimeClass?, hnone]
    simp
  · obtain ⟨hbody, hopts⟩ := Bool.and_eq_true_iff.1 hbody
    obtain ⟨c, hc⟩ := exists_lifetimeClass?_of_optsIn hbody hopts
    rw [hc, hbody]
    simp

/-- The class of a request tells the lifetime that it asks for. -/
theorem requestedLifetime_of_lifetimeClass? (h : lifetimeClass? r = some c) :
    Policy.requestedLifetime r = c.span := by
  unfold lifetimeClass? at h
  unfold Policy.requestedLifetime
  dsimp only at h ⊢
  split at h
  next hasks =>
    rw [(Bool.and_eq_true_iff.1 hasks).2, if_pos rfl]
    cases hshared : (CacheControl.ofFields r.fields).positiveSharedMaxAge with
    | some n =>
        rw [hshared] at h
        rw [← Option.some.inj h]
        rfl
    | none =>
        rw [hshared] at h
        obtain ⟨n, hn, rfl⟩ := Option.map_eq_some_iff.1 h
        rw [hn]
        rfl
  next => cases h

/-! ## Taking the suffix apart -/

/-- What a body hash adds to the suffix. -/
def hashPart : Option String → List Char
  | none => []
  | some h => ['|', 'b', 'o', 'd', 'y', '='] ++ h.toList

theorem hashPart_injective {a b : Option String} (h : hashPart a = hashPart b) : a = b := by
  cases a with
  | none =>
      cases b with
      | none => rfl
      | some y => cases h
  | some x =>
      cases b with
      | none => cases h
      | some y => rw [String.toList_inj.1 (List.append_cancel_left h)]

theorem toList_suffix_of_none (h : lifetimeClass? r = none) :
    (suffix r).toList = hashPart (bodyHash? r.fields) := by
  have hbody : "|body=".toList = ['|', 'b', 'o', 'd', 'y', '='] := by decide
  rw [suffix, h, String.append_empty]
  cases bodyHash? r.fields with
  | none => rfl
  | some x => rw [hashPart, String.toList_append, hbody]

theorem toList_suffix_of_some (h : lifetimeClass? r = some c) :
    (suffix r).toList =
      hashPart (bodyHash? r.fields) ++ '|' :: (['t', 't', 'l', '='] ++ c.text.toList) := by
  have hbody : "|body=".toList = ['|', 'b', 'o', 'd', 'y', '='] := by decide
  have httl : "|ttl=".toList = ['|', 't', 't', 'l', '='] := by decide
  rw [suffix, h, String.toList_append, String.toList_append, httl]
  cases bodyHash? r.fields with
  | none => rfl
  | some x => rw [hashPart, String.toList_append, hbody]; rfl

/-- Suffixes that both have a class, or both have none, say the same of body and
    class. -/
theorem suffix_inj (hclass : lifetimeClass? r = none ↔ lifetimeClass? r' = none)
    (h : suffix r = suffix r') :
    bodyHash? r.fields = bodyHash? r'.fields ∧ lifetimeClass? r = lifetimeClass? r' := by
  have hlist := congrArg String.toList h
  cases hc : lifetimeClass? r with
  | none =>
      have hc' := hclass.1 hc
      rw [toList_suffix_of_none hc, toList_suffix_of_none hc'] at hlist
      exact ⟨hashPart_injective hlist, hc'.symm⟩
  | some c =>
      obtain ⟨c', hc'⟩ : ∃ c', lifetimeClass? r' = some c' := by
        rw [← Option.ne_none_iff_exists']
        exact fun hnone => by simp [hclass.2 hnone] at hc
      rw [toList_suffix_of_some hc, toList_suffix_of_some hc'] at hlist
      -- The hash may hold bars of its own, but none comes behind the one of the class.
      have hbar : ∀ d : LifetimeClass, '|' ∉ ['t', 't', 'l', '='] ++ d.text.toList :=
        fun d => List.not_mem_append (by decide) d.bar_not_mem_text
      obtain ⟨hhash, htext⟩ := append_bar_inj (hbar c) (hbar c') hlist
      rw [hc', LifetimeClass.text_injective (List.append_cancel_left htext)]
      exact ⟨hashPart_injective hhash, rfl⟩

/-! ## Equal keys -/

/-- Two requests that the cache takes part in have the same key only if they have
    the same body hash and the same lifetime class, whatever texts the hashes are,
    or if two texts that are digested for the keys collide. With a body they then
    ask for the same lifetime. -/
theorem same_key_same_body_and_lifetime (r r' : Request) (h : Policy.isEligible r = true)
    (h' : Policy.isEligible r' = true) (hkey : derive r = derive r') :
    (bodyHash? r.fields = bodyHash? r'.fields ∧ lifetimeClass? r = lifetimeClass? r' ∧
      (r.method.carriesBody = true ∨ r'.method.carriesBody = true →
        Policy.requestedLifetime r = Policy.requestedLifetime r')) ∨ Collision r r' := by
  rcases parts_of_derive_eq hkey with ⟨hline, -, hsuffix⟩ | collision
  · left
    have hmethod : r.method = r'.method := (requestLine_eq_iff.1 hline).method
    have hclass : lifetimeClass? r = none ↔ lifetimeClass? r' = none := by
      rw [lifetimeClass?_eq_none_iff h, lifetimeClass?_eq_none_iff h', hmethod]
    obtain ⟨hhash, hsame⟩ := suffix_inj hclass hsuffix
    refine ⟨hhash, hsame, ?_⟩
    rw [← hmethod, or_self]
    intro hbody
    -- Both have one and the same class, which tells the lifetime.
    have hne : lifetimeClass? r ≠ none := by
      rw [Ne, lifetimeClass?_eq_none_iff h, hbody]
      decide
    obtain ⟨c, hc⟩ := Option.ne_none_iff_exists'.1 hne
    rw [requestedLifetime_of_lifetimeClass? hc, requestedLifetime_of_lifetimeClass? (hsame ▸ hc)]
  · exact .inr collision

end

/-- A request with a body, a hash for it and directives. -/
def posting (hash control : FieldValue) : Request :=
  ⟨.post, .root, ⟨[(.bodyHash, hash), (.cacheControl, control)]⟩⟩

/-- The hash looks like a suffix with a class. -/
def postingPlain : Request :=
  posting ⟨Utf8.encode "a|ttl=max=5", by decide⟩ ⟨Utf8.encode "public, max-age=60", by decide⟩

/-- The same hash and the same lifetime, both spelled differently. -/
def postingRespelled : Request :=
  posting ⟨Utf8.encode " a|ttl=max=5 ", by decide⟩ ⟨Utf8.encode "max-age=+060,PUBLIC", by decide⟩

/-- Requests with the same digested texts do not collide if these have different
    digests. -/
theorem not_collision_of_nodup {r r' : Request} (h : digestedTexts r = digestedTexts r')
    (hnodup : ((digestedTexts r).map fun t => Digest.sha256 (Utf8.encode t)).Nodup) :
    ¬ Collision r r' := by
  rintro ⟨s, hs, t, ht, hne, hdigest⟩
  rw [← h] at ht
  exact hne (congrArg Utf8.encode (List.inj_on_of_nodup_map hnodup hs ht hdigest))

theorem same_key_same_body_and_lifetime_respelled :
    Policy.isEligible postingPlain = true ∧ Policy.isEligible postingRespelled = true ∧
      derive postingPlain = derive postingRespelled ∧
      bodyHash? postingPlain.fields = bodyHash? postingRespelled.fields ∧
      lifetimeClass? postingPlain = lifetimeClass? postingRespelled ∧
      Policy.requestedLifetime postingPlain = Policy.requestedLifetime postingRespelled := by
  have h : Policy.isEligible postingPlain = true := by decide +kernel
  have h' : Policy.isEligible postingRespelled = true := by decide +kernel
  have hnegotiation : negotiation postingPlain.fields = negotiation postingRespelled.fields := rfl
  have hsuffix : suffix postingPlain = suffix postingRespelled := by decide +kernel
  have hkey : derive postingPlain = derive postingRespelled := derive_congr rfl hnegotiation hsuffix
  have hcollision : ¬ Collision postingPlain postingRespelled :=
    not_collision_of_nodup (digestedTexts_congr rfl hnegotiation hsuffix) (by decide +kernel)
  obtain ⟨hhash, hclass, hlifetime⟩ :=
    (same_key_same_body_and_lifetime _ _ h h' hkey).resolve_right hcollision
  exact ⟨h, h', hkey, hhash, hclass, hlifetime (.inl rfl)⟩

end CacheKey

end GatewayCache
