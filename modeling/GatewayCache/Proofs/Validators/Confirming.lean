/-
  GatewayCache.Proofs.Validators.Confirming

  When a list of entity tags confirms a copy.

  The stored tag is compared with the pieces that the listed ones fall apart into
  (`confirms_iff`). A piece may be taken for it although no listed tag has its text: then
  a copy is confirmed that the client need not have (`not_confirms_same_text`). As long
  as no place of the lists misleads in this way, a confirmed copy has the text of a
  listed tag (`confirms_same_text_unless_misled`). Only commas and asterisks mislead, but
  for a stored tag that looks the same as another one without its quotes
  (`Place.not_misleads`).
-/

import GatewayCache.Proofs.Http.Target
import GatewayCache.Proofs.Validators.EntityTags

namespace GatewayCache.Validators

open GatewayCache.Http

/-! ## Pieces taken for a tag -/

/-- A piece is taken for a tag if it is the tag or an asterisk. The empty weak tag and the
    text `W/` are taken for each other. -/
def TakenFor (piece t : Tag) : Prop :=
  piece = t ∨ piece = ⟨false, [0x2A]⟩ ∨ (piece = ⟨false, [0x57, 0x2F]⟩ ∧ t = ⟨true, []⟩) ∨
    (piece = ⟨true, []⟩ ∧ t = ⟨false, [0x57, 0x2F]⟩)

/-- A place misleads if a piece of it is taken for a tag with another text. -/
def Place.Misleads (p : Place) (t : Tag) : Prop :=
  (∃ piece ∈ p.pieces, TakenFor piece t) ∧ ∀ listed ∈ p.tag, listed.text ≠ t.text

theorem EntityTag.quote_notMem (t : EntityTag) : 0x22 ∉ t.text := by
  intro hmem
  have hvalid := List.all_eq_true.1 t.valid _ hmem
  revert hvalid
  decide

theorem Tag.quote_notMem_of_mem_pieces {t piece : Tag} (ht : 0x22 ∉ t.text)
    (h : piece ∈ t.pieces) : 0x22 ∉ piece.text := by
  obtain ⟨first, rest, hsplit⟩ := List.exists_cons_of_ne_nil (List.splitOn_ne_nil 0x2C t.text)
  have htexts : ∀ text ∈ t.text.splitOn 0x2C, 0x22 ∉ text := fun text htext hmem =>
    ht (Text.mem_and_ne_of_mem_splitOn htext hmem).1
  rw [Tag.pieces, hsplit] at h
  rw [hsplit] at htexts
  rcases List.mem_cons.1 h with rfl | h
  · exact htexts first List.mem_cons_self
  · obtain ⟨text, htext, rfl⟩ := List.mem_map.1 h
    exact htexts text (List.mem_cons_of_mem first htext)

theorem Place.quote_notMem_of_mem_pieces {p : Place} {piece : Tag} (h : piece ∈ p.pieces) :
    0x22 ∉ piece.text := by
  unfold Place.pieces at h
  cases htag : p.tag with
  | none =>
      rw [htag, Option.elim_none, List.mem_singleton] at h
      subst h
      exact List.not_mem_nil
  | some t =>
      rw [htag] at h
      exact Tag.quote_notMem_of_mem_pieces t.quote_notMem h

/-- What is left of a weak tag has a quote in it, unless the tag is empty. -/
theorem Tag.unquoted_weak (text : List UInt8) :
    (text = [] ∧ Tag.unquoted ⟨true, text⟩ = [0x57, 0x2F]) ∨
      (text ≠ [] ∧ Tag.unquoted ⟨true, text⟩ = opening true ++ text) := by
  by_cases h : text = []
  · exact .inl ⟨h, by rw [Tag.unquoted, if_pos rfl, if_pos h]⟩
  · exact .inr ⟨h, by rw [Tag.unquoted, if_pos rfl, if_neg h]⟩

theorem Tag.eq_unquoted_weak_iff {text text' : List UInt8} (h : 0x22 ∉ text) :
    text = Tag.unquoted ⟨true, text'⟩ ↔ text = [0x57, 0x2F] ∧ text' = [] := by
  rcases Tag.unquoted_weak text' with ⟨rfl, hleft⟩ | ⟨hsome, hleft⟩
  · simp [hleft]
  · have hne : text ≠ opening true ++ text' := by
      rintro rfl
      simp [opening] at h
    simp [hleft, hne, hsome]

theorem Tag.unquoted_weak_inj {text text' : List UInt8} :
    Tag.unquoted ⟨true, text⟩ = Tag.unquoted ⟨true, text'⟩ ↔ text = text' := by
  refine ⟨fun h => ?_, fun h => h ▸ rfl⟩
  rcases Tag.unquoted_weak text with ⟨rfl, hleft⟩ | ⟨-, hleft⟩ <;>
    rcases Tag.unquoted_weak text' with ⟨rfl, hleft'⟩ | ⟨-, hleft'⟩
  · rfl
  · rw [hleft, hleft'] at h
    simp [opening] at h
  · rw [hleft, hleft'] at h
    simp [opening] at h
  · rw [hleft, hleft'] at h
    exact List.append_cancel_left h

/-- What is left of two texts without quotes in them tells the tags apart, but for the
    empty weak one. -/
theorem takenFor_iff {piece t : Tag} (hpiece : 0x22 ∉ piece.text) (ht : 0x22 ∉ t.text) :
    TakenFor piece t ↔ piece.unquoted = [0x2A] ∨ piece.unquoted = t.unquoted := by
  obtain ⟨weak, text⟩ := piece
  obtain ⟨weak', text'⟩ := t
  have hstrong : ∀ text, Tag.unquoted ⟨false, text⟩ = text := fun _ => rfl
  -- What is left of a weak tag begins with the mark.
  have hasterisk : ∀ text, Tag.unquoted ⟨true, text⟩ ≠ [0x2A] := by
    intro text heq
    have hboth := (Tag.eq_unquoted_weak_iff (by decide)).1 heq.symm
    exact absurd hboth.1 (by decide)
  unfold TakenFor
  cases weak <;> cases weak'
  case false.false => simp [hstrong, or_comm]
  case false.true => simp [hstrong, Tag.eq_unquoted_weak_iff hpiece]
  case true.false =>
    have hsame : Tag.unquoted ⟨true, text⟩ = text' ↔ text' = [0x57, 0x2F] ∧ text = [] :=
      eq_comm.trans (Tag.eq_unquoted_weak_iff ht)
    simp [hasterisk, hstrong, hsame, and_comm]
  case true.true => simp [hasterisk, Tag.unquoted_weak_inj]

/-! ## Requests -/

section

variable {request : Request} {stored : Fields} {lists : List TagList} {cached : EntityTag}

/-- What a request with lists of tags asks for are the pieces of the readable ones. -/
theorem mem_requestedTags_iff
    (listed : request.fields.values FieldName.ifNoneMatch = lists.map TagList.value)
    {tag : List Char} :
    tag ∈ requestedTags request ↔ ∃ l ∈ lists, l.Readable ∧ ∃ p ∈ l.places, ∃ piece ∈ p.pieces,
      charsOfBytes piece.unquoted = tag := by
  have hlist : ∀ l : TagList, l.Readable →
      (tag ∈ listedTags (String.ofList (charsOfBytes l.written)) ↔
        ∃ p ∈ l.places, ∃ piece ∈ p.pieces, charsOfBytes piece.unquoted = tag) := by
    intro l readable
    rw [listedTags_written readable]
    simp only [List.mem_flatMap, List.mem_map]
  rw [requestedTags, Fields.texts, listed, List.mem_flatMap]
  constructor
  · rintro ⟨t, ht, htag⟩
    obtain ⟨v, hv, hread⟩ := List.mem_filterMap.1 ht
    obtain ⟨l, hl, rfl⟩ := List.mem_map.1 hv
    obtain ⟨readable, rfl⟩ := l.text?_value_eq_some_iff.1 hread
    exact ⟨l, hl, readable, (hlist l readable).1 htag⟩
  · rintro ⟨l, hl, readable, hpieces⟩
    have hread := l.text?_value_eq_some_iff.2 ⟨readable, rfl⟩
    exact ⟨_, List.mem_filterMap.2 ⟨l.value, List.mem_map_of_mem hl, hread⟩,
      (hlist l readable).2 hpieces⟩

/-- The stored tag as it is compared. -/
theorem opaqueTag_written {t : EntityTag} (readable : t.Readable) :
    opaqueTag (charsOfBytes t.written) = charsOfBytes t.unquoted := by
  have h := opaqueTag_first t.weak (EntityTag.isPlain readable) [] [0x22] [] (by simp) (by simp)
    (by simp)
  rw [List.nil_append, List.append_nil] at h
  exact h

/-- A piece confirms if it is taken for the stored tag. -/
theorem beq_unquoted_iff {p : Place} {piece : Tag} (h : piece ∈ p.pieces) (t : EntityTag) :
    (charsOfBytes piece.unquoted == ['*'] ||
      charsOfBytes piece.unquoted == charsOfBytes t.unquoted) = true ↔ TakenFor piece t.toTag := by
  have hasterisk : ['*'] = charsOfBytes [0x2A] := by decide
  rw [Bool.or_eq_true, beq_iff_eq, beq_iff_eq, hasterisk, charsOfBytes_injective.eq_iff,
    charsOfBytes_injective.eq_iff,
    takenFor_iff (Place.quote_notMem_of_mem_pieces h) t.quote_notMem]

/-- Lists of tags confirm a copy if a piece of a readable one is taken for the stored tag. -/
theorem confirms_iff
    (listed : request.fields.values FieldName.ifNoneMatch = lists.map TagList.value)
    (nonempty : lists ≠ []) (tagged : stored.first? FieldName.etag = some cached.value) :
    confirms request stored = true ↔ cached.Readable ∧
      ∃ l ∈ lists, l.Readable ∧ ∃ p ∈ l.places, ∃ piece ∈ p.pieces,
        TakenFor piece cached.toTag := by
  have hthere : request.fields.has FieldName.ifNoneMatch = true := by
    rw [Fields.has, listed, Bool.not_eq_true', List.isEmpty_eq_false_iff]
    exact mt List.map_eq_nil_iff.1 nonempty
  rw [confirms, if_pos hthere, tagMatches, Fields.firstText?, tagged, Option.bind_some]
  by_cases readable : cached.Readable
  · simp only [cached.text?_value_eq_some_iff.2 ⟨readable, rfl⟩, List.any_eq_true,
      String.toList_ofList, opaqueTag_written readable, mem_requestedTags_iff listed]
    constructor
    · rintro ⟨_, ⟨l, hl, hl', p, hp, piece, hpiece, rfl⟩, htaken⟩
      exact ⟨readable, l, hl, hl', p, hp, piece, hpiece, (beq_unquoted_iff hpiece cached).1 htaken⟩
    · rintro ⟨-, l, hl, hl', p, hp, piece, hpiece, htaken⟩
      exact ⟨_, ⟨l, hl, hl', p, hp, piece, hpiece, rfl⟩, (beq_unquoted_iff hpiece cached).2 htaken⟩
  · -- A tag that cannot be read confirms nothing.
    have htext : cached.value.text? = none := by
      rw [Option.eq_none_iff_forall_ne_some]
      exact fun t ht => readable (cached.text?_value_eq_some_iff.1 ht).1
    simp [htext, readable]

/-- A copy that lists of tags confirm has the text of a listed tag, unless a place of a
    readable list misleads. -/
theorem confirms_same_text_unless_misled
    (listed : request.fields.values FieldName.ifNoneMatch = lists.map TagList.value)
    (nonempty : lists ≠ []) (tagged : stored.first? FieldName.etag = some cached.value) :
    ((∀ l ∈ lists, l.Readable → ∀ p ∈ l.places, ¬ p.Misleads cached.toTag) →
      confirms request stored = true →
      ∃ l ∈ lists, ∃ p ∈ l.places, ∃ t ∈ p.tag, t.text = cached.text) ∧
    (cached.Readable → (∃ l ∈ lists, l.Readable ∧ ∃ p ∈ l.places, p.Misleads cached.toTag) →
      confirms request stored = true) := by
  have hiff := confirms_iff listed nonempty tagged
  constructor
  · intro hnone hconfirms
    obtain ⟨-, l, hl, readable, p, hp, hpieces⟩ := hiff.1 hconfirms
    by_contra hother
    refine hnone l hl readable p hp ⟨hpieces, fun t ht heq => hother ⟨l, hl, p, hp, t, ht, heq⟩⟩
  · rintro readable ⟨l, hl, readable', p, hp, hpieces, -⟩
    exact hiff.2 ⟨readable, l, hl, readable', p, hp, hpieces⟩

end

theorem Tag.pieces_of_notMem {t : Tag} (h : 0x2C ∉ t.text) : t.pieces = [t] := by
  rw [Tag.pieces, List.splitOn_eq_singleton h]
  rfl

/-- A place with a tag that has no comma and is no asterisk does not mislead, and neither
    does one without a tag, if the stored text is neither empty nor `W/`. -/
theorem Place.not_misleads {p : Place} {cached : Tag}
    (htag : ∀ t ∈ p.tag, 0x2C ∉ t.text ∧ t.toTag ≠ ⟨false, [0x2A]⟩)
    (hempty : cached.text ≠ []) (hmark : cached.text ≠ [0x57, 0x2F]) : ¬ p.Misleads cached := by
  rintro ⟨⟨piece, hpiece, htaken⟩, hother⟩
  have hwhole : piece = ⟨false, []⟩ ∨ ∃ t ∈ p.tag, piece = t.toTag ∧ t.toTag ≠ ⟨false, [0x2A]⟩ := by
    unfold Place.pieces at hpiece
    cases hp : p.tag with
    | none =>
        rw [hp, Option.elim_none] at hpiece
        exact .inl (List.mem_singleton.1 hpiece)
    | some t =>
        obtain ⟨hcomma, hasterisk⟩ := htag t hp
        rw [hp, Option.elim_some, Tag.pieces_of_notMem hcomma] at hpiece
        exact .inr ⟨t, rfl, List.mem_singleton.1 hpiece, hasterisk⟩
  rcases hwhole with rfl | ⟨t, ht, rfl, hasterisk⟩
  · rcases htaken with rfl | h | ⟨-, rfl⟩ | ⟨-, rfl⟩
    · exact hempty rfl
    · cases h
    · exact hempty rfl
    · exact hmark rfl
  · rcases htaken with heq | h | ⟨-, rfl⟩ | ⟨-, rfl⟩
    · exact hother t ht (congrArg Tag.text heq)
    · exact hasterisk h
    · exact hempty rfl
    · exact hmark rfl

/-! ## One list -/

/-- The tag `"a"`. -/
def tagA : EntityTag := ⟨⟨false, [0x61]⟩, by decide⟩

/-- The tag `"b"`. -/
def tagB : EntityTag := ⟨⟨false, [0x62]⟩, by decide⟩

/-- The tag `"a,b"`. -/
def tagAB : EntityTag := ⟨⟨false, [0x61, 0x2C, 0x62]⟩, by decide⟩

/-- A place with a tag and no blanks. -/
def Place.bare (t : EntityTag) : Place := ⟨[], some t, [], List.forall_mem_nil _⟩

/-- A request with one list of tags. -/
def holding (l : TagList) : Request := ⟨.get, .root, ⟨[(.ifNoneMatch, l.value)]⟩⟩

/-- The fields of a stored response with a tag. -/
def storedWith (t : EntityTag) : Fields := ⟨[(.etag, t.value)]⟩

/-- A copy with the tag `"b"` that the list `"a","b"` confirms has the text of a listed
    tag. -/
theorem confirms_same_text_unless_misled_second :
    confirms (holding ⟨.bare tagA, [.bare tagB]⟩) (storedWith tagB) = true ∧
      ∃ l ∈ [TagList.mk (.bare tagA) [.bare tagB]], ∃ p ∈ l.places, ∃ t ∈ p.tag,
        t.text = tagB.text := by
  have hconfirms : confirms (holding ⟨.bare tagA, [.bare tagB]⟩) (storedWith tagB) = true := by decide
  have listed : (holding ⟨.bare tagA, [.bare tagB]⟩).fields.values FieldName.ifNoneMatch =
      [TagList.mk (.bare tagA) [.bare tagB]].map TagList.value := by decide
  have hplain : ∀ p ∈ [Place.bare tagA, Place.bare tagB], ∀ t ∈ p.tag,
      0x2C ∉ t.text ∧ t.toTag ≠ ⟨false, [0x2A]⟩ := by decide
  have hnone : ∀ l ∈ [TagList.mk (.bare tagA) [.bare tagB]], l.Readable →
      ∀ p ∈ l.places, ¬ p.Misleads tagB.toTag := by
    intro l hl _ p hp
    obtain rfl := List.mem_singleton.1 hl
    exact Place.not_misleads (hplain p hp) (by decide) (by decide)
  have tagged : (storedWith tagB).first? FieldName.etag = some tagB.value := by decide
  have kept := confirms_same_text_unless_misled listed (by decide) tagged
  exact ⟨hconfirms, kept.1 hnone hconfirms⟩

/-- The list `"a,b"` confirms a copy with the tag `"b"`, which it does not list. -/
theorem not_confirms_same_text :
    ¬ ∀ (request : Request) (stored : Fields) (lists : List TagList) (cached : EntityTag),
      request.fields.values FieldName.ifNoneMatch = lists.map TagList.value → lists ≠ [] →
      stored.first? FieldName.etag = some cached.value → confirms request stored = true →
      ∃ l ∈ lists, ∃ p ∈ l.places, ∃ t ∈ p.tag, t.text = cached.text := by
  intro h
  have hsame := h (holding ⟨.bare tagAB, []⟩) (storedWith tagB) [⟨.bare tagAB, []⟩] tagB (by decide)
    (by decide) (by decide) (by decide)
  revert hsame
  decide

end GatewayCache.Validators
