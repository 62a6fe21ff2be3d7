/-
  GatewayCache.Proofs.Key.Negotiation

  When keys keep apart what requests negotiate.

  Two requests whose negotiating values hide no marker have different keys when
  they negotiate differently, up to a collision. Every other request shares its
  key, and all that is digested on the way to it, with one that negotiates
  differently (`negotiation_separated_unless_forged`). So keys separate less than
  they are meant to (`not_negotiation_separated`).
-/

import GatewayCache.Proofs.Http.FieldText
import GatewayCache.Proofs.Http.Target
import GatewayCache.Proofs.Key.Spelled

namespace GatewayCache

open GatewayCache.Http GatewayCache.Text

namespace CacheKey

/-! ## Negotiated values -/

theorem toList_negotiated?_of_eq_some {f : Fields} {n : FieldName} {x : String}
    (h : negotiated? f n = some x) :
    x.toList = List.intercalate [',']
      ((f.values n).map fun v => trim (Utf8.read v.bytes).toList) := by
  have hcomma : ",".toList = [','] := by decide
  have hpieces : ∀ v ∈ f.values n, (String.toList ∘ fun v : FieldValue =>
      trimmed (Utf8.read v.bytes)) v = trim (Utf8.read v.bytes).toList :=
    fun v _ => String.toList_ofList
  unfold negotiated? at h
  split at h
  · rw [← Option.some.inj h, String.toList_intercalate, hcomma, List.map_map,
      List.map_congr_left hpieces]
  · cases h

theorem trimmedValues_negotiated? (f : Fields) : TrimmedValues (negotiated? f) := by
  intro n x hx
  rw [toList_negotiated?_of_eq_some hx]
  apply Trimmed.intercalate
  · exact trimmed_iff.2 (by decide)
  · intro piece hpiece
    obtain ⟨v, -, rfl⟩ := List.mem_map.1 hpiece
    exact trimmed_trim _

theorem isValueChar_of_mem_negotiated? {f : Fields} {n : FieldName} {x : String} {c : Char}
    (h : negotiated? f n = some x) (hc : c ∈ x.toList) : FieldValue.IsValueChar c := by
  rw [toList_negotiated?_of_eq_some h] at hc
  rcases mem_intercalate hc with hsep | ⟨piece, hpiece, hc⟩
  · rw [List.mem_singleton.1 hsep]
    exact .inr (by decide)
  · obtain ⟨v, -, rfl⟩ := List.mem_map.1 hpiece
    exact FieldValue.isValueChar_of_mem_read (mem_of_mem_strip hc)

theorem isValueChar_of_mem_negotiation {f : Fields} {c : Char}
    (hc : c ∈ (negotiation f).toList) : FieldValue.IsValueChar c := by
  rw [toList_negotiation] at hc
  obtain ⟨n, hn, hc⟩ := List.mem_flatMap.1 hc
  have hmarkers : (negotiationNames.all fun n => (marker n).all fun c =>
      isValueByte (UInt8.ofNat c.toNat)) = true := by decide
  cases hx : negotiated? f n with
  | none =>
      rw [hx] at hc
      cases hc
  | some x =>
      rw [hx] at hc
      rcases List.mem_append.1 hc with hc | hc
      · exact .inr (List.all_eq_true.1 (List.all_eq_true.1 hmarkers n hn) c hc)
      · exact isValueChar_of_mem_negotiated? hx hc

/-! ## Fields that negotiate given values -/

/-- The fields with the negotiating ones replaced by one line for each value. -/
def renegotiated (f : Fields) (w : FieldName → Option String) : Fields :=
  ⟨(f.lines.filter fun l => decide (l.1 ∉ negotiationNames)) ++
    negotiationNames.filterMap fun n => ((w n).bind FieldValue.ofText?).map fun v => (n, v)⟩

theorem values_one_each {names : List FieldName} (hnodup : names.Nodup)
    (u : FieldName → Option FieldValue) (k : FieldName) :
    Fields.values ⟨names.filterMap fun n => (u n).map fun v => (n, v)⟩ k =
      if k ∈ names then (u k).toList else [] := by
  induction names with
  | nil => rfl
  | cons n names ih =>
      obtain ⟨hn, hnodup⟩ := List.nodup_cons.1 hnodup
      have hrest := ih hnodup
      unfold Fields.values at hrest ⊢
      by_cases hk : k = n
      · subst hk
        rw [if_neg hn] at hrest
        cases hu : u k <;> simp [hu, hrest]
      · have hnk : ¬ n = k := fun e => hk e.symm
        cases hu : u n <;> simp [hu, hrest, hk, hnk]

theorem nodup_negotiationNames : negotiationNames.Nodup := by decide

theorem values_renegotiated (f : Fields) (w : FieldName → Option String) (k : FieldName) :
    (renegotiated f w).values k =
      if k ∈ negotiationNames then ((w k).bind FieldValue.ofText?).toList else f.values k := by
  unfold renegotiated
  rw [Fields.values_append, values_one_each nodup_negotiationNames,
    Fields.values_filter f fun n => decide (n ∉ negotiationNames)]
  by_cases hk : k ∈ negotiationNames
  · simp [hk]
  · simp [hk]

/-- Trimmed values of the right characters are negotiated as they are. -/
theorem negotiated?_renegotiated (f : Fields) {w : FieldName → Option String}
    (hw : TrimmedValues w) {n : FieldName} (hn : n ∈ negotiationNames)
    (hchars : ∀ x, w n = some x → ∀ c ∈ x.toList, FieldValue.IsValueChar c) :
    negotiated? (renegotiated f w) n = w n := by
  have hvalues := values_renegotiated f w n
  rw [if_pos hn] at hvalues
  unfold negotiated? Fields.has
  rw [hvalues]
  cases hx : w n with
  | none => rfl
  | some x =>
      have htrim : trimmed x = x := by
        rw [trimmed, (hw n x hx).trim_eq, String.ofList_toList]
      rw [Option.bind_some, FieldValue.ofText?_of_valueChars (hchars x hx)]
      simp [Utf8.read_encode, htrim]

/-! ## Separation -/

theorem bar_not_mem_negotiationNames : ∀ n ∈ negotiationNames, '|' ∉ n.text.toList := by decide

/-- Equal keys mean equal negotiation, up to a collision, where no value hides the
    marker of a later field. A request with a value that does shares all that is
    digested for its key with a request that differs in the negotiating fields
    only, negotiates differently and hides nothing. -/
theorem negotiation_separated_unless_forged (r : Request) :
    (¬ Forged negotiationNames (negotiated? r.fields) →
      ∀ r' : Request, ¬ Forged negotiationNames (negotiated? r'.fields) →
        derive r = derive r' →
        (∀ n ∈ negotiationNames, negotiated? r.fields n = negotiated? r'.fields n) ∨
          Collision r r') ∧
    (Forged negotiationNames (negotiated? r.fields) →
      ∃ f : Fields, (∀ n, n ∉ negotiationNames → f.values n = r.fields.values n) ∧
        ¬ Forged negotiationNames (negotiated? f) ∧
        digestedTexts { r with fields := f } = digestedTexts r ∧
        derive { r with fields := f } = derive r ∧
        ∃ n ∈ negotiationNames, negotiated? f n ≠ negotiated? r.fields n) := by
  constructor
  · intro unforged r' unforged' h
    rcases parts_of_derive_eq h with ⟨-, hnegotiation, -⟩ | collision
    · left
      have hspelled := congrArg String.toList hnegotiation
      rw [toList_negotiation, toList_negotiation] at hspelled
      exact eq_of_spelled_eq bar_not_mem_negotiationNames nodup_negotiationNames
        (trimmedValues_negotiated? r.fields) (trimmedValues_negotiated? r'.fields)
        unforged unforged' hspelled
    · exact .inr collision
  · intro forged
    obtain ⟨w, hw, hspelled, unforged⟩ :=
      exists_unforged nodup_negotiationNames (trimmedValues_negotiated? r.fields)
    -- The new values consist of characters of the old text, so they are valid.
    have hchars : ∀ n ∈ negotiationNames, ∀ x, w n = some x → ∀ c ∈ x.toList,
        FieldValue.IsValueChar c := by
      intro n hn x hx c hc
      have hmem : c ∈ spelled negotiationNames w := by
        rw [spelled, List.mem_flatMap]
        exact ⟨n, hn, by rw [hx]; exact List.mem_append_right _ hc⟩
      rw [hspelled, ← toList_negotiation] at hmem
      exact isValueChar_of_mem_negotiation hmem
    have hvalues : ∀ n ∈ negotiationNames, negotiated? (renegotiated r.fields w) n = w n :=
      fun n hn => negotiated?_renegotiated r.fields hw hn (hchars n hn)
    have hothers : ∀ n, n ∉ negotiationNames →
        (renegotiated r.fields w).values n = r.fields.values n := by
      intro n hn
      rw [values_renegotiated, if_neg hn]
    have hnegotiation : negotiation (renegotiated r.fields w) = negotiation r.fields := by
      rw [← String.toList_inj, toList_negotiation, toList_negotiation, spelled_congr hvalues,
        hspelled]
    have hsuffix : suffix { r with fields := renegotiated r.fields w } = suffix r :=
      suffix_congr rfl (hothers _ (by decide)) (hothers _ (by decide))
    have hunforged : ¬ Forged negotiationNames (negotiated? (renegotiated r.fields w)) :=
      fun h => unforged (forged_of_eq hvalues h)
    refine ⟨renegotiated r.fields w, hothers, hunforged,
      digestedTexts_congr rfl hnegotiation hsuffix, derive_congr rfl hnegotiation hsuffix, ?_⟩
    exact exists_ne_of_forged forged hunforged

/-- A request for the root of a server. -/
def asking (lines : List (FieldName × FieldValue)) : Request :=
  ⟨.get, .root, ⟨lines⟩⟩

/-- The marker of the encoding stands in the media type. -/
def smuggling : Request := asking [(.accept, ⟨Utf8.encode "a|accept-encoding=gzip", by decide⟩)]

/-- The media type and the encoding stand in fields of their own. -/
def spelledOut : Request :=
  asking [(.accept, ⟨Utf8.encode "a", by decide⟩),
    (.acceptEncoding, ⟨Utf8.encode "gzip", by decide⟩)]

/-- The same in another order and with blanks around the values. -/
def respaced : Request :=
  asking [(.acceptEncoding, ⟨Utf8.encode "gzip ", by decide⟩),
    (.accept, ⟨Utf8.encode " a", by decide⟩)]

/-- The hidden marker gives the request the key of one that negotiates differently. Where
    none is hidden, the requests with one key negotiate the same. -/
theorem negotiation_separated_unless_forged_smuggled :
    (Forged negotiationNames (negotiated? smuggling.fields) ∧
      ∃ f : Fields, ¬ Forged negotiationNames (negotiated? f) ∧
        derive { smuggling with fields := f } = derive smuggling ∧
        ∃ n ∈ negotiationNames, negotiated? f n ≠ negotiated? smuggling.fields n) ∧
    ¬ Forged negotiationNames (negotiated? spelledOut.fields) ∧
      ¬ Forged negotiationNames (negotiated? respaced.fields) ∧
      derive spelledOut = derive respaced ∧
      ((∀ n ∈ negotiationNames, negotiated? spelledOut.fields n = negotiated? respaced.fields n) ∨
        Collision spelledOut respaced) := by
  have forged : Forged negotiationNames (negotiated? smuggling.fields) :=
    ⟨.accept, .acceptEncoding, "a|accept-encoding=gzip", by decide, by decide, ['a'],
      "gzip".toList, by decide, trimmed_iff.2 (by decide), trimmed_iff.2 (by decide)⟩
  have unforged : ¬ Forged negotiationNames (negotiated? spelledOut.fields) :=
    not_forged_of_bar_not_mem (by decide)
  have unforged' : ¬ Forged negotiationNames (negotiated? respaced.fields) :=
    not_forged_of_bar_not_mem (by decide)
  have hkeys : derive spelledOut = derive respaced := derive_congr rfl (by decide) (by decide)
  obtain ⟨f, -, hf, -, hkey, differs⟩ := (negotiation_separated_unless_forged smuggling).2 forged
  exact ⟨⟨forged, f, hf, hkey, differs⟩, unforged, unforged', hkeys,
    (negotiation_separated_unless_forged spelledOut).1 unforged respaced unforged' hkeys⟩

theorem digestedTexts_smuggling : digestedTexts smuggling = digestedTexts spelledOut :=
  digestedTexts_congr rfl (by decide) (by decide)

theorem digestedTexts_spelledOut :
    digestedTexts spelledOut = [requestLine spelledOut, variantText spelledOut] := by
  have hsuffix : suffix spelledOut = "" := by decide
  rw [digestedTexts, finalText?_of_suffix_eq_empty hsuffix]
  rfl

/-- The two texts behind their keys have different digests. -/
theorem sha256_requestLine_ne_variantText :
    Digest.sha256 (Utf8.encode (requestLine spelledOut)) ≠
      Digest.sha256 (Utf8.encode (variantText spelledOut)) := by
  decide +kernel

/-- Accepting `a|accept-encoding=gzip` has the key of accepting `a` in the encoding
    `gzip`, and nothing that is digested collides. -/
theorem not_negotiation_separated :
    ¬ ∀ r r' : Request, derive r = derive r' →
      (∀ n ∈ negotiationNames, negotiated? r.fields n = negotiated? r'.fields n) ∨
        ∃ s ∈ digestedTexts r ++ digestedTexts r', ∃ t ∈ digestedTexts r ++ digestedTexts r',
          Digest.Collide (Utf8.encode s) (Utf8.encode t) := by
  intro h
  have hkeys : derive smuggling = derive spelledOut := derive_congr rfl (by decide) (by decide)
  rcases h smuggling spelledOut hkeys with hsame | ⟨s, hs, t, ht, hne, hdigest⟩
  · exact absurd (hsame .accept List.mem_cons_self) (by decide)
  · have hdiffer := sha256_requestLine_ne_variantText
    rw [digestedTexts_smuggling, List.mem_append, or_self, digestedTexts_spelledOut, List.mem_cons,
      List.mem_singleton] at hs ht
    rcases hs with rfl | rfl <;> rcases ht with rfl | rfl
    · exact hne rfl
    · exact hdiffer hdigest
    · exact hdiffer hdigest.symm
    · exact hne rfl

end CacheKey

end GatewayCache
