/-
  GatewayCache.Proofs.Key.Parts

  The parts of a request that its key keeps apart.

  The key digests three parts: the request line, what negotiates the content,
  and the suffix of body hash and lifetime. Digests have one length and the parts
  start differently, so no part runs over into the next one. Equal keys therefore
  have equal parts, unless two of the digested texts collide
  (`parts_of_derive_eq`).
-/

import GatewayCache.Key
import GatewayCache.Proofs.Digest.Collision

namespace GatewayCache

open GatewayCache.Http

namespace CacheKey

/-! ## Collisions -/

/-- A text that is digested on the way to one key collides with a text that is
    digested on the way to the other. -/
def Collision (r r' : Request) : Prop :=
  ∃ s ∈ digestedTexts r, ∃ t ∈ digestedTexts r',
    Digest.Collide (Text.Utf8.encode s) (Text.Utf8.encode t)

instance (r r' : Request) : Decidable (Collision r r') :=
  inferInstanceAs (Decidable (∃ s ∈ digestedTexts r, ∃ t ∈ digestedTexts r',
    Digest.Collide (Text.Utf8.encode s) (Text.Utf8.encode t)))

section

variable {r r' : Request}

/-- Without a collision, digested texts are told apart by their digests. -/
theorem eq_of_hexOfText_eq (hc : ¬ Collision r r') {s t : String} (hs : s ∈ digestedTexts r)
    (ht : t ∈ digestedTexts r') (h : Digest.hexOfText s = Digest.hexOfText t) : s = t :=
  (Digest.eq_or_collide h).resolve_right fun hst => hc ⟨s, hs, t, ht, hst⟩

/-- A digest in front of two texts separates it from what follows. -/
theorem hexOfText_append_inj {s t a b : String}
    (h : Digest.hexOfText s ++ a = Digest.hexOfText t ++ b) :
    Digest.hexOfText s = Digest.hexOfText t ∧ a = b := by
  have hlist : (Digest.hexOfText s).toList ++ a.toList =
      (Digest.hexOfText t).toList ++ b.toList := by
    rw [← String.toList_append, ← String.toList_append, h]
  have hlength : (Digest.hexOfText s).toList.length = (Digest.hexOfText t).toList.length := by
    rw [Digest.length_hexOfText, Digest.length_hexOfText]
  obtain ⟨hst, hab⟩ := List.append_inj hlist hlength
  exact ⟨String.toList_inj.1 hst, String.toList_inj.1 hab⟩

/-! ## Where the parts start -/

/-- The characters in front of the value of a negotiating field. -/
def marker (n : FieldName) : List Char := '|' :: (n.text.toList ++ ['='])

/-- The characters that a negotiating field adds when it has the value. -/
def marked (n : FieldName) : Option String → List Char
  | none => []
  | some value => marker n ++ value.toList

theorem toList_negotiationPart (f : Fields) (n : FieldName) :
    (negotiationPart f n).toList = marked n (negotiated? f n) := by
  unfold negotiationPart
  cases negotiated? f n with
  | none => rfl
  | some value => simp [marked, marker, String.toList_append]

/-- The characters that some fields add one after the other. -/
def spelled (names : List FieldName) (v : FieldName → Option String) : List Char :=
  names.flatMap fun n => marked n (v n)

theorem toList_negotiation (f : Fields) :
    (negotiation f).toList = spelled negotiationNames (negotiated? f) := by
  simp [negotiation, spelled, negotiationNames, String.toList_append, toList_negotiationPart]

/-- What negotiates the content is empty or starts like the field names do. -/
theorem negotiation_start (f : Fields) :
    negotiation f = "" ∨ (negotiation f).toList[1]? = some 'a' := by
  rw [← String.toList_inj, toList_negotiation]
  simp only [spelled, negotiationNames, List.flatMap_cons]
  cases negotiated? f FieldName.accept with
  | some value => exact .inr rfl
  | none =>
      cases negotiated? f FieldName.acceptEncoding with
      | some value => exact .inr rfl
      | none =>
          cases negotiated? f FieldName.acceptLanguage with
          | some value => exact .inr rfl
          | none => exact .inl rfl

theorem suffix_start (r : Request) : suffix r = "" ∨ (suffix r).toList[1]? ≠ some 'a' := by
  have hbody : "|body=".toList = ['|', 'b', 'o', 'd', 'y', '='] := by decide
  have httl : "|ttl=".toList = ['|', 't', 't', 'l', '='] := by decide
  have hb : some 'b' ≠ some 'a' := by decide
  have ht : some 't' ≠ some 'a' := by decide
  unfold suffix
  cases bodyHash? r.fields with
  | some h =>
      right
      rw [String.toList_append, String.toList_append, hbody]
      exact hb
  | none =>
      cases lifetimeClass? r with
      | some c =>
          right
          rw [String.toList_append, String.toList_append, httl]
          exact ht
      | none => exact .inl rfl

/-- A suffix is never taken for what negotiates the content. -/
theorem eq_empty_of_negotiation_eq_suffix {f : Fields} (h : negotiation f = suffix r) :
    suffix r = "" := by
  rcases suffix_start r with hempty | hsuffix
  · exact hempty
  · rcases negotiation_start f with hempty | hstart
    · rw [← h, hempty]
    · rw [h] at hstart
      exact absurd hstart hsuffix

/-! ## Equal parts -/

theorem negotiation_congr {f g : Fields} (h : ∀ n ∈ negotiationNames, f.values n = g.values n) :
    negotiation f = negotiation g := by
  rw [negotiation, negotiation, List.map_congr_left]
  intro n hn
  rw [negotiationPart, negotiationPart, negotiated?, negotiated?, Fields.has, Fields.has, h n hn]

/-- The suffix depends on the method and on two fields. -/
theorem suffix_congr (hmethod : r.method = r'.method)
    (hbody : r.fields.values FieldName.bodyHash = r'.fields.values FieldName.bodyHash)
    (hcontrol : r.fields.values FieldName.cacheControl = r'.fields.values FieldName.cacheControl) :
    suffix r = suffix r' := by
  have hhash : bodyHash? r.fields = bodyHash? r'.fields := by
    rw [bodyHash?, bodyHash?, Fields.firstText?, Fields.firstText?, Fields.first?, Fields.first?,
      hbody]
  have hlifetime : lifetimeClass? r = lifetimeClass? r' := by
    rw [lifetimeClass?, lifetimeClass?, CacheControl.ofFields, CacheControl.ofFields, Fields.texts,
      Fields.texts, hmethod, hcontrol]
  rw [suffix, suffix, hhash, hlifetime]

/-! ## Equal keys -/

theorem finalText?_of_suffix_eq_empty (h : suffix r = "") : finalText? r = none := if_pos h

theorem finalText?_of_suffix_ne_empty (h : suffix r ≠ "") :
    finalText? r = some (Digest.hexOfText (variantText r) ++ suffix r) := if_neg h

/-- The text whose digest is the key. -/
def lastText (r : Request) : String := (finalText? r).getD (variantText r)

theorem lastText_mem_digestedTexts (r : Request) : lastText r ∈ digestedTexts r := by
  unfold lastText digestedTexts
  cases finalText? r with
  | none => simp
  | some t => simp

theorem requestLine_mem_digestedTexts (r : Request) : requestLine r ∈ digestedTexts r :=
  List.mem_cons_self

theorem variantText_mem_digestedTexts (r : Request) : variantText r ∈ digestedTexts r :=
  List.mem_cons_of_mem _ List.mem_cons_self

/-- Without a collision a text with a suffix is told from one without. -/
theorem suffix_eq_empty_of_lastText_eq (h : lastText r = lastText r') (hs : suffix r = "") :
    suffix r' = "" := by
  by_cases hs' : suffix r' = ""
  · exact hs'
  · rw [lastText, lastText, finalText?_of_suffix_eq_empty hs, finalText?_of_suffix_ne_empty hs',
      Option.getD_none, Option.getD_some, variantText] at h
    exact eq_empty_of_negotiation_eq_suffix (hexOfText_append_inj h).2

/-- Equal keys have equal parts, or two of the digested texts collide. -/
theorem parts_of_derive_eq (h : derive r = derive r') :
    (requestLine r = requestLine r' ∧ negotiation r.fields = negotiation r'.fields ∧
      suffix r = suffix r') ∨ Collision r r' := by
  by_cases hc : Collision r r'
  · exact .inr hc
  · left
    have hlast : lastText r = lastText r' :=
      eq_of_hexOfText_eq hc (lastText_mem_digestedTexts r) (lastText_mem_digestedTexts r')
        (congrArg CacheKey.hash h)
    -- The last texts have one form, with a suffix or without.
    have hparts : variantText r = variantText r' ∧ suffix r = suffix r' := by
      by_cases hs : suffix r = ""
      · have hs' : suffix r' = "" := suffix_eq_empty_of_lastText_eq hlast hs
        rw [lastText, lastText, finalText?_of_suffix_eq_empty hs,
          finalText?_of_suffix_eq_empty hs'] at hlast
        exact ⟨hlast, hs.trans hs'.symm⟩
      · have hs' : suffix r' ≠ "" := fun e => hs (suffix_eq_empty_of_lastText_eq hlast.symm e)
        rw [lastText, lastText, finalText?_of_suffix_ne_empty hs,
          finalText?_of_suffix_ne_empty hs', Option.getD_some, Option.getD_some] at hlast
        obtain ⟨hdigest, hsuffix⟩ := hexOfText_append_inj hlast
        exact ⟨eq_of_hexOfText_eq hc (variantText_mem_digestedTexts r)
          (variantText_mem_digestedTexts r') hdigest, hsuffix⟩
    obtain ⟨hvariant, hsuffix⟩ := hparts
    obtain ⟨hdigest, hnegotiation⟩ := hexOfText_append_inj hvariant
    exact ⟨eq_of_hexOfText_eq hc (requestLine_mem_digestedTexts r)
      (requestLine_mem_digestedTexts r') hdigest, hnegotiation, hsuffix⟩

/-- The digested texts depend on the three parts only. -/
theorem digestedTexts_congr (hline : requestLine r = requestLine r')
    (hnegotiation : negotiation r.fields = negotiation r'.fields) (hsuffix : suffix r = suffix r') :
    digestedTexts r = digestedTexts r' := by
  rw [digestedTexts, digestedTexts, finalText?, finalText?, variantText, variantText, hline,
    hnegotiation, hsuffix]

/-- So does the key. -/
theorem derive_congr (hline : requestLine r = requestLine r')
    (hnegotiation : negotiation r.fields = negotiation r'.fields) (hsuffix : suffix r = suffix r') :
    derive r = derive r' := by
  rw [derive, derive, finalText?, finalText?, variantText, variantText, hline, hnegotiation,
    hsuffix]

end

end CacheKey

end GatewayCache
