/-
  GatewayCache.Proofs.Validators.EntityTags

  Lists of entity tags, and how they are read.

  An entity tag is a text in quotes, behind a mark if the tag is weak. A list has places
  between commas, each with a tag or without one. A comma may stand inside the quotes
  too, and a list is split there as well, so what is read are not the listed tags but
  the pieces that they fall apart into, without blanks and quotes around them
  (`listedTags_written`). A value with a byte above ASCII in a tag is not read at all
  (`TagList.text?_value_eq_some_iff`).
-/

import GatewayCache.Proofs.Http.FieldText
import GatewayCache.Proofs.Text.Joined
import GatewayCache.Validators
import Mathlib.Data.List.Basic

namespace GatewayCache.Validators

open GatewayCache.Http

/-! ## Entity tags -/

/-- The bytes that may stand between the quotes: all but control characters, blanks and
    the quote. -/
def isTagByte (b : UInt8) : Bool := b.toNat == 0x21 || (0x23 ≤ b.toNat && b.toNat != 0x7F)

/-- A text, marked as weak or not. -/
structure Tag where
  weak : Bool
  text : List UInt8
deriving DecidableEq, Repr

/-- A tag whose text may stand between quotes. -/
structure EntityTag extends Tag where
  valid : text.all isTagByte = true

/-- What stands in front of the text: the quote, and `W/` before it in a weak tag. -/
def opening (weak : Bool) : List UInt8 := if weak then [0x57, 0x2F, 0x22] else [0x22]

def EntityTag.written (t : EntityTag) : List UInt8 := opening t.weak ++ t.text ++ [0x22]

/-- The blanks of a list are spaces and tabs. -/
def IsListBlank (b : UInt8) : Prop := b = 0x20 ∨ b = 0x09

instance : DecidablePred IsListBlank := fun b => inferInstanceAs (Decidable (b = 0x20 ∨ b = 0x09))

/-- A place of a list: a tag or none, and blanks around it. -/
structure Place where
  before : List UInt8
  tag : Option EntityTag
  behind : List UInt8
  blank : ∀ b ∈ before ++ behind, IsListBlank b

def Place.written (p : Place) : List UInt8 :=
  p.before ++ p.tag.elim [] EntityTag.written ++ p.behind

/-- A list of entity tags has a place at least. -/
structure TagList where
  first : Place
  rest : List Place

def TagList.places (l : TagList) : List Place := l.first :: l.rest

def TagList.written (l : TagList) : List UInt8 :=
  List.intercalate [0x2C] (l.places.map Place.written)

/-- A tag that is readable as a text has nothing but ASCII. -/
def Tag.Readable (t : Tag) : Prop := ∀ b ∈ t.text, b.toNat ≤ 0x7E

def TagList.Readable (l : TagList) : Prop := ∀ p ∈ l.places, ∀ t ∈ p.tag, t.Readable

/-! ## Pieces -/

/-- What a tag falls apart into at its commas. The mark is left with the first piece. -/
def Tag.pieces (t : Tag) : List Tag :=
  match t.text.splitOn 0x2C with
  | [] => []
  | first :: rest => ⟨t.weak, first⟩ :: rest.map fun text => ⟨false, text⟩

/-- A place without a tag counts as the empty text. -/
def Place.pieces (p : Place) : List Tag := p.tag.elim [⟨false, []⟩] fun t => t.pieces

/-- What is left of a piece without quotes around it. The quote behind the mark stays, if
    something follows it. -/
def Tag.unquoted (t : Tag) : List UInt8 :=
  if t.weak then (if t.text = [] then [0x57, 0x2F] else opening true ++ t.text) else t.text

/-! ## Bytes as characters -/

theorem charsOfBytes_append (a b : List UInt8) :
    charsOfBytes (a ++ b) = charsOfBytes a ++ charsOfBytes b := List.map_append

theorem toNat_ofNat_byte (b : UInt8) : (Char.ofNat b.toNat).toNat = b.toNat :=
  Text.Utf8.toNat_ofNat_of_scalar (.inl (by have := b.toNat_lt; omega))

theorem ofNat_byte_injective : Function.Injective fun b : UInt8 => Char.ofNat b.toNat := by
  intro a b h
  have hcode := congrArg Char.toNat h
  simp only [toNat_ofNat_byte] at hcode
  exact UInt8.toNat_inj.1 hcode

theorem charsOfBytes_injective : Function.Injective charsOfBytes :=
  List.map_injective_iff.2 ofNat_byte_injective

theorem isQuote_eq_true_iff {b : UInt8} : (Char.ofNat b.toNat == '"') = true ↔ b = 0x22 := by
  rw [beq_iff_eq]
  exact ofNat_byte_injective.eq_iff (b := 0x22)

theorem isQuote_eq_false_iff {b : UInt8} : (Char.ofNat b.toNat == '"') = false ↔ b ≠ 0x22 := by
  rw [← Bool.not_eq_true, isQuote_eq_true_iff]

/-- What is visible in ASCII. -/
def IsVisible (b : UInt8) : Prop := 0x21 ≤ b.toNat ∧ b.toNat ≤ 0x7E

theorem isBlank_of_isVisible {b : UInt8} (h : IsVisible b) :
    Text.isBlank (Char.ofNat b.toNat) = false := by
  obtain ⟨hlow, hhigh⟩ := h
  unfold Text.isBlank
  rw [toNat_ofNat_byte]
  simp
  omega

theorem isBlank_of_isListBlank {b : UInt8} (h : IsListBlank b) :
    Text.isBlank (Char.ofNat b.toNat) = true := by
  rcases h with rfl | rfl <;> decide

/-! ## One piece -/

/-- Taking characters off both ends of some bytes leaves the bytes that they stand
    around. -/
theorem strip_charsOfBytes {p : Char → Bool} {front bs back : List UInt8}
    (hfront : ∀ b ∈ front, p (Char.ofNat b.toNat) = true)
    (hback : ∀ b ∈ back, p (Char.ofNat b.toNat) = true)
    (first : ∀ b ∈ bs.head?, p (Char.ofNat b.toNat) = false)
    (last : ∀ b ∈ bs.getLast?, p (Char.ofNat b.toNat) = false) :
    Text.strip p (charsOfBytes (front ++ bs ++ back)) = charsOfBytes bs := by
  rw [charsOfBytes_append, charsOfBytes_append]
  refine Text.strip_padded (List.forall_mem_map.2 hfront) (List.forall_mem_map.2 hback) ?_ ?_
  · intro c hc
    rw [charsOfBytes, List.head?_map] at hc
    obtain ⟨b, hb, rfl⟩ := Option.map_eq_some_iff.1 hc
    exact first b hb
  · intro c hc
    rw [charsOfBytes, List.getLast?_map] at hc
    obtain ⟨b, hb, rfl⟩ := Option.map_eq_some_iff.1 hc
    exact last b hb

/-- Of a piece blanks are taken off and then quotes. -/
theorem opaqueTag_framed (front quotes body quotes' back : List UInt8)
    (hfront : ∀ b ∈ front, IsListBlank b) (hback : ∀ b ∈ back, IsListBlank b)
    (hquotes : ∀ b ∈ quotes, b = 0x22) (hquotes' : ∀ b ∈ quotes', b = 0x22)
    (hbody : ∀ b ∈ body, IsVisible b) (first : ∀ b ∈ body.head?, b ≠ 0x22)
    (last : ∀ b ∈ body.getLast?, b ≠ 0x22) :
    opaqueTag (charsOfBytes (front ++ (quotes ++ body ++ quotes') ++ back)) =
      charsOfBytes body := by
  have hquote : IsVisible 0x22 := ⟨by decide, by decide⟩
  have hinside : ∀ b ∈ quotes ++ body ++ quotes', Text.isBlank (Char.ofNat b.toNat) = false := by
    intro b hb
    rw [List.append_assoc, List.mem_append, List.mem_append] at hb
    apply isBlank_of_isVisible
    rcases hb with hb | hb | hb
    · exact hquotes b hb ▸ hquote
    · exact hbody b hb
    · exact hquotes' b hb ▸ hquote
  have htrim : Text.trim (charsOfBytes (front ++ (quotes ++ body ++ quotes') ++ back)) =
      charsOfBytes (quotes ++ body ++ quotes') :=
    strip_charsOfBytes (fun b hb => isBlank_of_isListBlank (hfront b hb))
      (fun b hb => isBlank_of_isListBlank (hback b hb))
      (fun b hb => hinside b (List.mem_of_head? hb))
      (fun b hb => hinside b (List.mem_of_getLast? hb))
  rw [opaqueTag, htrim]
  exact strip_charsOfBytes (fun b hb => isQuote_eq_true_iff.2 (hquotes b hb))
    (fun b hb => isQuote_eq_true_iff.2 (hquotes' b hb))
    (fun b hb => isQuote_eq_false_iff.2 (first b hb))
    (fun b hb => isQuote_eq_false_iff.2 (last b hb))

/-- What has nothing but visible bytes and no quotes. -/
def IsPlain (text : List UInt8) : Prop := ∀ b ∈ text, IsVisible b ∧ b ≠ 0x22

section

variable {text : List UInt8}

/-- Of a text in quotes the text is left, and so it is of what stands on one side of a
    comma in it. -/
theorem opaqueTag_plain (plain : IsPlain text) (front quotes quotes' back : List UInt8)
    (hfront : ∀ b ∈ front, IsListBlank b) (hback : ∀ b ∈ back, IsListBlank b)
    (hquotes : ∀ b ∈ quotes, b = 0x22) (hquotes' : ∀ b ∈ quotes', b = 0x22) :
    opaqueTag (charsOfBytes (front ++ (quotes ++ text ++ quotes') ++ back)) = charsOfBytes text :=
  opaqueTag_framed front quotes text quotes' back hfront hback hquotes hquotes'
    (fun b hb => (plain b hb).1) (fun b hb => (plain b (List.mem_of_head? hb)).2)
    (fun b hb => (plain b (List.mem_of_getLast? hb)).2)

/-- Of the first piece of a weak tag the quote behind the mark is left, if something
    follows it. -/
theorem opaqueTag_first (weak : Bool) (plain : IsPlain text) (front quotes back : List UInt8)
    (hfront : ∀ b ∈ front, IsListBlank b) (hback : ∀ b ∈ back, IsListBlank b)
    (hquotes : ∀ b ∈ quotes, b = 0x22) :
    opaqueTag (charsOfBytes (front ++ (opening weak ++ text ++ quotes) ++ back)) =
      charsOfBytes (Tag.unquoted ⟨weak, text⟩) := by
  cases weak with
  | false =>
      exact opaqueTag_plain plain front [0x22] quotes back hfront hback (by simp) hquotes
  | true =>
      by_cases hempty : text = []
      · subst hempty
        have hquote : ∀ b ∈ 0x22 :: quotes, b = 0x22 := by simpa using hquotes
        exact opaqueTag_framed front [] [0x57, 0x2F] (0x22 :: quotes) back hfront hback
          (by simp) hquote (by simp [IsVisible]) (by simp) (by simp)
      · rw [Tag.unquoted, if_pos rfl, if_neg hempty]
        refine opaqueTag_framed front [] (opening true ++ text) quotes back hfront hback
          (by simp) hquotes ?_ ?_ ?_
        · have hmark : ∀ b ∈ opening true, IsVisible b := by simp [opening, IsVisible]
          intro b hb
          exact (List.mem_append.1 hb).elim (hmark b) fun hb => (plain b hb).1
        · simp [opening]
        · intro b hb
          rw [List.getLast?_append] at hb
          rcases Option.or_eq_some_iff.1 hb with hb | ⟨hnone, -⟩
          · exact (plain b (List.mem_of_getLast? hb)).2
          · exact absurd (List.getLast?_eq_none_iff.1 hnone) hempty

end

/-! ## One place -/

theorem comma_notMem_opening (weak : Bool) : (0x2C : UInt8) ∉ opening weak := by
  cases weak <;> decide

theorem comma_notMem_behind {back : List UInt8} (hback : ∀ b ∈ back, IsListBlank b) :
    (0x2C : UInt8) ∉ [0x22] ++ back := by
  intro hmem
  rcases List.mem_append.1 hmem with hmem | hmem
  · exact absurd hmem (by decide)
  · exact absurd (hback _ hmem) (by decide)

/-- Behind the first comma of a tag the pieces are the texts that they were. -/
theorem map_opaqueTag_rest {texts : List (List UInt8)} (h : texts ≠ [])
    (hcomma : ∀ text ∈ texts, 0x2C ∉ text) (plain : ∀ text ∈ texts, IsPlain text)
    {back : List UInt8} (hback : ∀ b ∈ back, IsListBlank b) :
    ((List.intercalate [0x2C] texts ++ [0x22] ++ back).splitOn 0x2C).map
        (fun piece => opaqueTag (charsOfBytes piece)) = texts.map charsOfBytes := by
  induction texts with
  | nil => exact absurd rfl h
  | cons text texts ih =>
      have hfirst := hcomma text List.mem_cons_self
      have hplain := plain text List.mem_cons_self
      cases texts with
      | nil =>
          have hsplit : (text ++ [0x22] ++ back).splitOn 0x2C = [text ++ [0x22] ++ back] := by
            refine List.splitOn_eq_singleton fun hmem => ?_
            rw [List.append_assoc, List.mem_append] at hmem
            exact hmem.elim hfirst (comma_notMem_behind hback)
          have hlast : opaqueTag (charsOfBytes (text ++ [0x22] ++ back)) = charsOfBytes text :=
            opaqueTag_plain hplain [] [] [0x22] back (by simp) hback (by simp) (by simp)
          rw [List.intercalate_singleton, hsplit, List.map_singleton, hlast]
          rfl
      | cons next texts =>
          have hrest := ih (List.cons_ne_nil next texts)
            (fun t ht => hcomma t (List.mem_cons_of_mem text ht))
            (fun t ht => plain t (List.mem_cons_of_mem text ht))
          have hinner : opaqueTag (charsOfBytes text) = charsOfBytes text := by
            simpa using opaqueTag_plain hplain [] [] [] [] (by simp) (by simp) (by simp) (by simp)
          rw [List.intercalate_cons_cons, List.append_assoc, List.append_assoc, List.append_assoc,
            List.singleton_append, List.splitOn_append_cons_self_of_not_mem hfirst, List.map_cons,
            hinner, ← List.append_assoc, hrest]
          rfl

theorem EntityTag.isPlain {t : EntityTag} (readable : t.Readable) : IsPlain t.text := by
  intro b hb
  have hvalid := List.all_eq_true.1 t.valid b hb
  have hle := readable b hb
  simp only [isTagByte, Bool.or_eq_true, Bool.and_eq_true, decide_eq_true_eq, beq_iff_eq,
    bne_iff_ne] at hvalid
  refine ⟨⟨by omega, hle⟩, ?_⟩
  rintro rfl
  revert hvalid
  decide

/-- The pieces of a tag in its place are read one by one. -/
theorem map_opaqueTag_tag {t : EntityTag} (readable : t.Readable) {front back : List UInt8}
    (hfront : ∀ b ∈ front, IsListBlank b) (hback : ∀ b ∈ back, IsListBlank b) :
    ((front ++ t.written ++ back).splitOn 0x2C).map
        (fun piece => opaqueTag (charsOfBytes piece)) =
      t.pieces.map fun piece => charsOfBytes piece.unquoted := by
  obtain ⟨first, rest, hsplit⟩ := List.exists_cons_of_ne_nil (List.splitOn_ne_nil 0x2C t.text)
  have htext : t.text = List.intercalate [0x2C] (first :: rest) := by
    rw [← hsplit, List.intercalate_splitOn]
  have hcomma : ∀ text ∈ first :: rest, 0x2C ∉ text := by
    intro text htext hmem
    exact (Text.mem_and_ne_of_mem_splitOn (hsplit ▸ htext) hmem).2 rfl
  have plain : ∀ text ∈ first :: rest, IsPlain text := by
    intro text htext b hb
    exact EntityTag.isPlain readable b (Text.mem_and_ne_of_mem_splitOn (hsplit ▸ htext) hb).1
  have hstart : (0x2C : UInt8) ∉ front ++ (opening t.weak ++ first) := by
    rw [List.mem_append, List.mem_append]
    rintro (hmem | hmem | hmem)
    · exact absurd (hfront _ hmem) (by decide)
    · exact comma_notMem_opening t.weak hmem
    · exact hcomma first List.mem_cons_self hmem
  have hfirst := plain first List.mem_cons_self
  have hpieces : t.pieces = ⟨t.weak, first⟩ :: rest.map fun text => ⟨false, text⟩ := by
    rw [Tag.pieces, hsplit]
  rw [hpieces, EntityTag.written, htext, List.map_cons, List.map_map]
  cases rest with
  | nil =>
      -- Without a comma the tag is the only piece.
      have hwhole : (front ++ (opening t.weak ++ first ++ [0x22]) ++ back).splitOn 0x2C =
          [front ++ (opening t.weak ++ first ++ [0x22]) ++ back] := by
        refine List.splitOn_eq_singleton fun hmem => ?_
        rw [← List.append_assoc front, List.append_assoc, List.mem_append] at hmem
        exact hmem.elim hstart (comma_notMem_behind hback)
      rw [List.intercalate_singleton, hwhole, List.map_singleton,
        opaqueTag_first t.weak hfirst front [0x22] back hfront hback (by simp)]
      rfl
  | cons next rest =>
      -- The opening goes with the first piece, the closing quote with the last one.
      have hsplit' : front ++ (opening t.weak ++ List.intercalate [0x2C] (first :: next :: rest) ++
          [0x22]) ++ back = front ++ (opening t.weak ++ first) ++
            0x2C :: (List.intercalate [0x2C] (next :: rest) ++ [0x22] ++ back) := by
        simp [List.intercalate_cons_cons]
      have hinner := opaqueTag_first t.weak hfirst front [] [] hfront (by simp) (by simp)
      rw [List.append_nil, List.append_nil] at hinner
      rw [hsplit', List.splitOn_append_cons_self_of_not_mem hstart, List.map_cons, hinner,
        map_opaqueTag_rest (List.cons_ne_nil next rest)
          (fun text h => hcomma text (List.mem_cons_of_mem first h))
          (fun text h => plain text (List.mem_cons_of_mem first h)) hback]
      rfl

/-- A place is read as its pieces. -/
theorem map_opaqueTag_place (p : Place) (readable : ∀ t ∈ p.tag, t.Readable) :
    (p.written.splitOn 0x2C).map (fun piece => opaqueTag (charsOfBytes piece)) =
      p.pieces.map fun piece => charsOfBytes piece.unquoted := by
  have hbefore : ∀ b ∈ p.before, IsListBlank b := fun b hb =>
    p.blank b (List.mem_append_left _ hb)
  have hbehind : ∀ b ∈ p.behind, IsListBlank b := fun b hb =>
    p.blank b (List.mem_append_right _ hb)
  unfold Place.written Place.pieces
  cases htag : p.tag with
  | none =>
      have hsplit : (p.before ++ [] ++ p.behind).splitOn 0x2C = [p.before ++ [] ++ p.behind] := by
        refine List.splitOn_eq_singleton fun hmem => ?_
        rw [List.append_nil] at hmem
        exact absurd (p.blank _ hmem) (by decide)
      have hempty := opaqueTag_framed p.before [] [] [] p.behind hbefore hbehind (by simp) (by simp)
        (by simp) (by simp) (by simp)
      rw [Option.elim_none, Option.elim_none, hsplit, List.map_singleton]
      exact congrArg (fun tag => [tag]) hempty
  | some t => exact map_opaqueTag_tag (readable t htag) hbefore hbehind

/-! ## Values -/

/-- A list that is readable is read as the pieces of its places. -/
theorem listedTags_written {l : TagList} (readable : l.Readable) :
    listedTags (String.ofList (charsOfBytes l.written)) =
      l.places.flatMap fun p => p.pieces.map fun piece => charsOfBytes piece.unquoted := by
  have hchars : (charsOfBytes l.written).splitOn ',' =
      (l.written.splitOn 0x2C).map charsOfBytes :=
    Text.splitOn_map ofNat_byte_injective 0x2C l.written
  have hplaces : l.written.splitOn 0x2C = l.places.flatMap fun p => p.written.splitOn 0x2C := by
    rw [TagList.written, Text.splitOn_intercalate_eq_flatMap 0x2C (by simp [TagList.places]),
      List.flatMap_map]
  rw [listedTags, String.toList_ofList, hchars, hplaces, List.map_map, List.map_flatMap]
  refine List.flatMap_congr fun p hp => ?_
  exact map_opaqueTag_place p (readable p hp)

section

variable {q : UInt8 → Bool}

/-- The bytes that stand around the texts of tags. -/
def signs : List UInt8 := [0x09, 0x20, 0x22, 0x2C, 0x2F, 0x57]

theorem of_all_signs (h : signs.all q = true) : q 0x09 = true ∧ q 0x20 = true ∧ q 0x22 = true ∧
    q 0x2C = true ∧ q 0x2F = true ∧ q 0x57 = true := by
  simpa [signs] using h

theorem EntityTag.all_written (h : signs.all q = true) (t : EntityTag) :
    t.written.all q = t.text.all q := by
  obtain ⟨-, -, hquote, -, hslash, hmark⟩ := of_all_signs h
  have hopening : (opening t.weak).all q = true := by
    cases t.weak <;> simp [opening, hquote, hslash, hmark]
  have hclosing : [(0x22 : UInt8)].all q = true := by simp [hquote]
  rw [EntityTag.written, List.all_append, List.all_append, hopening, hclosing, Bool.true_and,
    Bool.and_true]

theorem TagList.all_written (h : signs.all q = true) (l : TagList) :
    l.written.all q = l.places.all fun p => p.tag.all fun t => t.text.all q := by
  obtain ⟨htab, hspace, -, hcomma, -⟩ := of_all_signs h
  have hblank : ∀ b, IsListBlank b → q b = true := by
    rintro b (rfl | rfl)
    · exact hspace
    · exact htab
  rw [TagList.written, Text.all_intercalate (by simp [hcomma]), List.all_map]
  congr 1
  funext p
  have hbefore : p.before.all q = true :=
    List.all_eq_true.2 fun b hb => hblank b (p.blank b (List.mem_append_left _ hb))
  have hbehind : p.behind.all q = true :=
    List.all_eq_true.2 fun b hb => hblank b (p.blank b (List.mem_append_right _ hb))
  rw [Function.comp_apply, Place.written, List.all_append, List.all_append, hbefore, hbehind,
    Bool.true_and, Bool.and_true]
  cases p.tag with
  | none => rfl
  | some t => exact t.all_written h

end

theorem EntityTag.all_isValueByte (t : EntityTag) : t.text.all isValueByte = true := by
  rw [List.all_eq_true]
  intro b hb
  have hvalid := List.all_eq_true.1 t.valid b hb
  simp only [isTagByte, isValueByte, Bool.or_eq_true, Bool.and_eq_true, decide_eq_true_eq,
    beq_iff_eq, bne_iff_ne] at hvalid ⊢
  omega

/-- The value that a tag is written as. -/
def EntityTag.value (t : EntityTag) : FieldValue :=
  ⟨t.written, by rw [t.all_written (by decide)]; exact t.all_isValueByte⟩

/-- The value that a list is written as. -/
def TagList.value (l : TagList) : FieldValue :=
  ⟨l.written, by
    rw [l.all_written (by decide), List.all_eq_true]
    intro p _
    cases p.tag with
    | none => rfl
    | some t => exact t.all_isValueByte⟩

/-- A tag is readable as a text if nothing in it lies above ASCII. -/
theorem EntityTag.all_isReadableByte_iff (t : EntityTag) :
    t.text.all isReadableByte = true ↔ t.Readable := by
  rw [List.all_eq_true]
  refine forall₂_congr fun b hb => ?_
  have hvalid := List.all_eq_true.1 t.valid b hb
  simp only [isTagByte, isReadableByte, Bool.or_eq_true, Bool.and_eq_true, decide_eq_true_eq,
    beq_iff_eq, bne_iff_ne] at hvalid ⊢
  omega

theorem EntityTag.text?_value_eq_some_iff (t : EntityTag) {text : String} :
    t.value.text? = some text ↔ t.Readable ∧ String.ofList (charsOfBytes t.written) = text := by
  rw [FieldValue.text?_eq_some_iff, ← t.all_isReadableByte_iff, ← t.all_written (by decide)]
  rfl

/-- A value is read if all its tags are readable. -/
theorem TagList.text?_value_eq_some_iff (l : TagList) {text : String} :
    l.value.text? = some text ↔ l.Readable ∧ String.ofList (charsOfBytes l.written) = text := by
  have hall : l.written.all isReadableByte = true ↔ l.Readable := by
    rw [l.all_written (by decide), List.all_eq_true]
    refine forall₂_congr fun p _ => ?_
    cases p.tag with
    | none => simp
    | some t => simpa using t.all_isReadableByte_iff
  rw [FieldValue.text?_eq_some_iff, ← hall]
  rfl

end GatewayCache.Validators
