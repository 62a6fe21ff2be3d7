/-
  GatewayCache.Proofs.Http.FieldText

  Field values as texts.

  A value is kept as a text, and what is sent later are the bytes of that text.
  These are again a valid value (`FieldValue.rendered`). A readable value comes
  back as it was, and one that is not readable never becomes so
  (`text?_rendered`). Well-formed bytes stay as they were, readable or not
  (`bytes_rendered`), and rendering twice is no more than rendering once
  (`stored_rendered`).
-/

import GatewayCache.Http.Field
import GatewayCache.Proofs.Text.Repair

namespace GatewayCache.Http

namespace FieldValue

/-! ## Bytes of values -/

theorem lt_of_isReadableByte {b : UInt8} (h : isReadableByte b = true) : b.toNat < 0x80 := by
  simp only [isReadableByte, Bool.or_eq_true, Bool.and_eq_true, decide_eq_true_eq, beq_iff_eq] at h
  omega

theorem isValueByte_of_le {b : UInt8} (h : 0x80 ≤ b.toNat) : isValueByte b = true := by
  simp only [isValueByte, Bool.or_eq_true, Bool.and_eq_true, decide_eq_true_eq, bne_iff_ne]
  omega

/-- A byte of a value is readable unless it lies above ASCII. -/
theorem isReadableByte_or_le {b : UInt8} (h : isValueByte b = true) :
    isReadableByte b = true ∨ 0x80 ≤ b.toNat := by
  simp only [isValueByte, isReadableByte, Bool.or_eq_true, Bool.and_eq_true, decide_eq_true_eq,
    bne_iff_ne, beq_iff_eq] at h ⊢
  omega

/-- Bytes of ASCII are what their characters are encoded as. -/
theorem encode_charsOfBytes {bs : List UInt8} (h : ∀ b ∈ bs, b.toNat < 0x80) :
    Text.Utf8.encode (String.ofList (charsOfBytes bs)) = bs := by
  unfold Text.Utf8.encode
  rw [String.toList_ofList]
  induction bs with
  | nil => rfl
  | cons b bs ih =>
      have hb : b.toNat < 0x80 := h b List.mem_cons_self
      have hc : (Char.ofNat b.toNat).toNat = b.toNat :=
        Text.Utf8.toNat_ofNat_of_scalar (.inl (by omega))
      have hrest := ih fun b' hb' => h b' (List.mem_cons_of_mem b hb')
      rw [charsOfBytes, List.map_cons, List.flatMap_cons, ← charsOfBytes, hrest,
        Text.Utf8.utf8EncodeChar_of_lt (by omega), hc, UInt8.ofNat_toNat]
      rfl

/-! ## Characters of values -/

/-- The characters whose bytes may stand in a value. -/
def IsValueChar (c : Char) : Prop := 0x80 ≤ c.toNat ∨ isValueByte (UInt8.ofNat c.toNat) = true

/-- Reading the bytes of a value gives characters of values only. -/
theorem isValueChar_of_mem_read {v : FieldValue} {c : Char}
    (h : c ∈ (Text.Utf8.read v.bytes).toList) : IsValueChar c :=
  (Text.Utf8.mem_toList_read h).imp_right fun hmem => List.all_eq_true.1 v.valid _ hmem

/-- A text of such characters is a valid value. -/
theorem valid_encode {s : String} (h : ∀ c ∈ s.toList, IsValueChar c) :
    (Text.Utf8.encode s).all isValueByte = true := by
  rw [List.all_eq_true]
  intro b hb
  obtain ⟨c, hc, hbc⟩ := Text.Utf8.mem_encode.1 hb
  rcases Nat.lt_or_ge c.toNat 0x80 with hlt | hge
  · rw [Text.Utf8.utf8EncodeChar_of_lt hlt, List.mem_singleton] at hbc
    rcases h c hc with hge | hvalue
    · omega
    · exact hbc ▸ hvalue
  · exact isValueByte_of_le (Text.Utf8.le_of_mem_utf8EncodeChar hge hbc)

theorem ofText?_of_valueChars {s : String} (h : ∀ c ∈ s.toList, IsValueChar c) :
    ofText? s = some ⟨Text.Utf8.encode s, valid_encode h⟩ := by
  rw [ofText?, ofBytes?, dif_pos (valid_encode h)]

/-- A value is a text if all its bytes are readable. -/
theorem text?_eq_some_iff {v : FieldValue} {s : String} :
    v.text? = some s ↔
      v.bytes.all isReadableByte = true ∧ String.ofList (charsOfBytes v.bytes) = s := by
  unfold text?
  split
  · next h => simp [h]
  · next h => simp [h]

/-- The text of a readable value is what its bytes encode. -/
theorem text?_of_readable {v : FieldValue} (h : v.bytes.all isReadableByte = true) :
    v.text? = some (Text.Utf8.read v.bytes) := by
  have hbytes : Text.Utf8.encode (String.ofList (charsOfBytes v.bytes)) = v.bytes :=
    encode_charsOfBytes fun b hb => lt_of_isReadableByte (List.all_eq_true.1 h b hb)
  have hread := Text.Utf8.read_encode (String.ofList (charsOfBytes v.bytes))
  rw [hbytes] at hread
  rw [text?, if_pos h, hread]

/-! ## Stored values -/

theorem stored_of_readable {v : FieldValue} (h : v.bytes.all isReadableByte = true) :
    v.stored = String.ofList (charsOfBytes v.bytes) := by
  rw [stored, text?, if_pos h]
  rfl

theorem stored_of_not_readable {v : FieldValue} (h : ¬ v.bytes.all isReadableByte = true) :
    v.stored = Text.Utf8.read v.bytes := by
  rw [stored, text?, if_neg h]
  rfl

theorem encode_stored_of_readable {v : FieldValue} (h : v.bytes.all isReadableByte = true) :
    Text.Utf8.encode v.stored = v.bytes := by
  rw [stored_of_readable h]
  exact encode_charsOfBytes fun b hb => lt_of_isReadableByte (List.all_eq_true.1 h b hb)

/-- The text that a value is kept as is a valid value. -/
theorem valid_stored (v : FieldValue) :
    (Text.Utf8.encode v.stored).all isValueByte = true := by
  by_cases h : v.bytes.all isReadableByte = true
  · rw [encode_stored_of_readable h]
    exact v.valid
  · rw [stored_of_not_readable h]
    exact valid_encode fun c hc => isValueChar_of_mem_read hc

/-- Whichever way a value becomes a text, it is the text that its bytes read as. -/
theorem stored_eq_read (v : FieldValue) : v.stored = Text.Utf8.read v.bytes := by
  by_cases h : v.bytes.all isReadableByte = true
  · rw [stored, text?_of_readable h]
    rfl
  · exact stored_of_not_readable h

/-- The value that is sent for a stored one. -/
def rendered (v : FieldValue) : FieldValue := ⟨Text.Utf8.encode v.stored, v.valid_stored⟩

theorem ofText?_stored (v : FieldValue) : ofText? v.stored = some v.rendered := by
  rw [ofText?, ofBytes?, dif_pos v.valid_stored]
  rfl

theorem rendered_of_readable {v : FieldValue} (h : v.bytes.all isReadableByte = true) :
    v.rendered = v := by
  have hbytes : v.rendered.bytes = v.bytes := encode_stored_of_readable h
  cases v
  cases hr : rendered _
  simp_all

/-- Well-formed bytes are sent as they came, and others as their repaired text. -/
theorem bytes_rendered (v : FieldValue) :
    v.rendered.bytes =
      if (Text.Utf8.decode? v.bytes).isSome then v.bytes
      else Text.Utf8.encode (String.ofList (Text.Utf8.repair v.bytes)) := by
  change Text.Utf8.encode v.stored = _
  rw [stored_eq_read, Text.Utf8.read]
  cases hd : Text.Utf8.decode? v.bytes with
  | none => rfl
  | some s => exact Text.Utf8.encode_of_decode? hd

/-- What is sent for a value is kept as the same text again. -/
theorem stored_rendered (v : FieldValue) : v.rendered.stored = v.stored := by
  rw [stored_eq_read v.rendered]
  exact Text.Utf8.read_encode v.stored

/-- A value reads as the same text after it was stored, or still as none. -/
theorem text?_rendered (v : FieldValue) : v.rendered.text? = v.text? := by
  by_cases h : v.bytes.all isReadableByte = true
  · rw [rendered_of_readable h]
  · have hhigh : ∃ b ∈ v.bytes, 0x80 ≤ b.toNat := by
      obtain ⟨b, hb, hr⟩ : ∃ b ∈ v.bytes, ¬ isReadableByte b = true := by
        simpa using h
      have hv : isValueByte b = true := List.all_eq_true.1 v.valid b hb
      exact ⟨b, hb, (isReadableByte_or_le hv).resolve_left hr⟩
    -- Bytes above ASCII leave a character above ASCII, and that one such bytes again.
    obtain ⟨c, hc, hge⟩ := Text.Utf8.exists_high_mem_read hhigh
    obtain ⟨b, hb⟩ := List.exists_mem_of_ne_nil _ (String.utf8EncodeChar_ne_nil (c := c))
    have hmem : b ∈ Text.Utf8.encode v.stored := by
      rw [stored_of_not_readable h]
      exact Text.Utf8.mem_encode.2 ⟨c, hc, hb⟩
    have hne : ¬ (Text.Utf8.encode v.stored).all isReadableByte = true := by
      intro hall
      have hlt := lt_of_isReadableByte (List.all_eq_true.1 hall b hmem)
      have hle := Text.Utf8.le_of_mem_utf8EncodeChar hge hb
      omega
    rw [text?, text?, rendered, if_neg h, if_neg hne]

end FieldValue

/-! ## Field lists -/

theorem Fields.values_filter (f : Fields) (p : FieldName → Bool) (k : FieldName) :
    Fields.values ⟨f.lines.filter fun l => p l.1⟩ k = if p k then f.values k else [] := by
  unfold Fields.values
  rw [List.filter_filter]
  split
  next hp =>
    congr 2
    funext l
    by_cases hl : l.1 = k
    · simp [hl, hp]
    · simp [hl]
  next hp =>
    rw [List.map_eq_nil_iff, List.filter_eq_nil_iff]
    intro l _
    by_cases hl : l.1 = k
    · simp [hl, hp]
    · simp [hl]

/-- The values under the name are read as the same texts in the same order, and
    those that are not readable stand at the same places. -/
def Fields.ReadAlike (f g : Fields) (n : FieldName) : Prop :=
  (f.values n).map FieldValue.text? = (g.values n).map FieldValue.text?

theorem Fields.ReadAlike.texts_eq {f g : Fields} {n : FieldName} (h : f.ReadAlike g n) :
    f.texts n = g.texts n := by
  have htexts : ∀ vs : List FieldValue,
      vs.filterMap FieldValue.text? = (vs.map FieldValue.text?).filterMap id := by
    intro vs
    rw [List.filterMap_map]
    rfl
  rw [texts, texts, htexts, htexts, h]

theorem Fields.ReadAlike.firstText?_eq {f g : Fields} {n : FieldName} (h : f.ReadAlike g n) :
    f.firstText? n = g.firstText? n := by
  have hfirst : ∀ vs : List FieldValue,
      vs.head?.bind FieldValue.text? = (vs.map FieldValue.text?).head?.bind id := by
    intro vs
    rw [List.head?_map, Option.bind_map]
    rfl
  rw [firstText?, firstText?, first?, first?, hfirst, hfirst, h]

end GatewayCache.Http
