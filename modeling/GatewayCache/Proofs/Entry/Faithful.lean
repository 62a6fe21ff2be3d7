/-
  GatewayCache.Proofs.Entry.Faithful

  What is given again is what came.

  The kept fields are determined by the texts that are kept under the names of no
  connection (`storedFields_congr`), and rendering a value leaves its text as it
  was. So a response that was given again once is kept as it was kept before, and
  nothing is lost, doubled or put in another order on the way
  (`replay_faithful`).
-/

import GatewayCache.Proofs.Dict.Parts
import GatewayCache.Proofs.Entry.Replay

namespace GatewayCache

open GatewayCache.Http

/-- A text spells the one name whose text it is in lower case. -/
theorem Http.FieldName.ofText?_eq_some_iff {s : String} {n : FieldName} :
    FieldName.ofText? s = some n ↔ n.text = Text.lowered s := by
  constructor
  · intro h
    unfold FieldName.ofText? FieldName.ofChars? at h
    split at h
    · rw [← Option.some.inj h]
      rfl
    · cases h
  · intro h
    have hnormal : isNormalName (Text.lower s.toList) = true := by
      rw [← String.toList_ofList (l := Text.lower s.toList), ← Text.lowered, ← h]
      exact n.normal
    unfold FieldName.ofText? FieldName.ofChars?
    rw [dif_pos hnormal]
    exact congrArg some (FieldName.ext h.symm)

namespace Entry

/-! ## The kept fields by what is kept under each name -/

/-- Nothing is kept under a text that is no name's. -/
theorem kept_storedFields_of_no_name (f : Fields) {k : String}
    (h : ∀ n : FieldName, n.text ≠ k) : kept (storedFields f) k = [] := by
  unfold kept
  cases hk : (storedFields f).get? k with
  | none => rfl
  | some values =>
      obtain ⟨n, hn⟩ := names_storedFields f _ (Dict.mem_entries_of_get? hk)
      exact absurd hn (h n)

/-- A name is there exactly where values are kept under it. -/
theorem get?_storedFields (f : Fields) (k : String) :
    (storedFields f).get? k =
      if kept (storedFields f) k = [] then none else some (kept (storedFields f) k) := by
  unfold kept
  cases hk : (storedFields f).get? k with
  | none => rfl
  | some values =>
      have hne : values ≠ [] := ne_nil_storedFields f _ (Dict.mem_entries_of_get? hk)
      exact (if_neg hne).symm

/-- The kept fields depend on nothing but the texts, in order, under each name that
    belongs to no connection. -/
theorem storedFields_congr {f g : Fields}
    (h : ∀ n : FieldName, isConnectionField n.text = false →
      (f.values n).map FieldValue.stored = (g.values n).map FieldValue.stored) :
    storedFields f = storedFields g := by
  -- Only the texts of names have to be compared; under others both keep nothing.
  have hkept : ∀ k, kept (storedFields f) k = kept (storedFields g) k := by
    intro k
    by_cases hname : ∃ n : FieldName, n.text = k
    · obtain ⟨n, rfl⟩ := hname
      rw [kept_storedFields_text, kept_storedFields_text]
      cases hn : isConnectionField n.text with
      | true => rfl
      | false => exact h n hn
    · have hno : ∀ n : FieldName, n.text ≠ k := fun n hn => hname ⟨n, hn⟩
      rw [kept_storedFields_of_no_name f hno, kept_storedFields_of_no_name g hno]
  apply Dict.ext_get?
  intro k
  rw [get?_storedFields, get?_storedFields, hkept]

/-! ## Giving again -/

section

variable (now : Instant) (status : UInt16) (f : Fields) (body : List UInt8) (ttl : Span)

theorem values_replay_of_connection {n : FieldName} (h : isConnectionField n.text = true) :
    (ofResponse now status f body ttl).replay.values n = [] := by
  have hkept : kept (storedFields f) n.text = [] := by
    rw [kept_storedFields_text, h]
    rfl
  calc (ofResponse now status f body ttl).replay.values n
      = (kept (storedFields f) n.text).filterMap FieldValue.ofText? :=
        values_replay_eq_kept (names_storedFields f) n
    _ = [] := by rw [hkept, List.filterMap_nil]

/-- No field that belongs to a connection is given again. -/
theorem isConnectionField_of_mem_replay {l : FieldName × FieldValue}
    (h : l ∈ (ofResponse now status f body ttl).replay.lines) :
    isConnectionField l.1.text = false := by
  have hvalue : l.2 ∈ (ofResponse now status f body ttl).replay.values l.1 :=
    List.mem_map_of_mem (List.mem_filter.2 ⟨h, beq_self_eq_true l.1⟩)
  cases hl : isConnectionField l.1.text with
  | false => rfl
  | true =>
      rw [values_replay_of_connection now status f body ttl hl] at hvalue
      cases hvalue

/-- Every value given again is what was kept of one that came, and in the same place. -/
theorem bytes_values_replay {n : FieldName} (h : isConnectionField n.text = false) :
    ((ofResponse now status f body ttl).replay.values n).map FieldValue.bytes =
      (f.values n).map fun v =>
        if (Text.Utf8.decode? v.bytes).isSome then v.bytes
        else Text.Utf8.encode (String.ofList (Text.Utf8.repair v.bytes)) := by
  rw [values_replay now status f body ttl h, List.map_map]
  exact List.map_congr_left fun v _ => v.bytes_rendered

theorem first?_eq_kept (e : Entry) (name : String) :
    e.first? name = (kept e.fields (Text.lowered name)).head? := by
  unfold first? kept
  cases e.fields.get? (Text.lowered name) <;> rfl

/-- A look-up by any spelling of a name finds the first value given again under the
    name, and a text that spells no name finds none. -/
theorem encode_first? (name : String) :
    ((ofResponse now status f body ttl).first? name).map Text.Utf8.encode =
      ((FieldName.ofText? name).bind (ofResponse now status f body ttl).replay.first?).map
        FieldValue.bytes := by
  have hfirst : (ofResponse now status f body ttl).first? name =
      (kept (storedFields f) (Text.lowered name)).head? := first?_eq_kept _ name
  rw [hfirst]
  cases hname : FieldName.ofText? name with
  | none =>
      -- A name with the lowered text would be the one that the text spells.
      have hno : ∀ n : FieldName, n.text ≠ Text.lowered name := by
        intro n hn
        rw [FieldName.ofText?_eq_some_iff.2 hn] at hname
        cases hname
      rw [kept_storedFields_of_no_name f hno]
      rfl
  | some n =>
      rw [← FieldName.ofText?_eq_some_iff.1 hname, Option.bind_some, Fields.first?]
      cases hn : isConnectionField n.text with
      | true =>
          rw [kept_storedFields_text, hn, values_replay_of_connection now status f body ttl hn]
          rfl
      | false =>
          rw [kept_storedFields f hn, values_replay now status f body ttl hn]
          cases f.values n <;> rfl

/-- What was given again is kept as it was kept before. -/
theorem storedFields_replay :
    storedFields (ofResponse now status f body ttl).replay = storedFields f := by
  apply storedFields_congr
  intro n hn
  rw [values_replay now status f body ttl hn, List.map_map]
  exact List.map_congr_left fun v _ => v.stored_rendered

/-- No field of a connection is given again. Under every other name there are as many
    values as came, in their order: those of well-formed bytes as they were, the
    others as their repaired text. A name in either case finds the first of them.
    Keeping what was given again changes neither the fields nor the variants. -/
theorem replay_faithful (now' : Instant) :
    let e := ofResponse now status f body ttl
    let again := ofResponse now' status e.replay body ttl
    (∀ l ∈ e.replay.lines, isConnectionField l.1.text = false) ∧
      (∀ n : FieldName, isConnectionField n.text = false →
        (e.replay.values n).map FieldValue.bytes = (f.values n).map fun v =>
          if (Text.Utf8.decode? v.bytes).isSome then v.bytes
          else Text.Utf8.encode (String.ofList (Text.Utf8.repair v.bytes))) ∧
      (∀ name : String, (e.first? name).map Text.Utf8.encode =
        ((FieldName.ofText? name).bind e.replay.first?).map FieldValue.bytes) ∧
      again.fields = e.fields ∧ again.vary = e.vary := by
  intro e again
  have hfields : again.fields = e.fields := storedFields_replay now status f body ttl
  -- The variants are read off the kept fields alone.
  have hvary : again.vary = e.vary :=
    congrArg (fun fields : Dict (List String) =>
      String.intercalate ", " ((fields.get? FieldName.vary.text).getD [])) hfields
  exact ⟨fun _ hl => isConnectionField_of_mem_replay now status f body ttl hl,
    fun _ hn => bytes_values_replay now status f body ttl hn,
    encode_first? now status f body ttl, hfields, hvary⟩

end

/-- A name for remarks. -/
def noteName : FieldName := ⟨"x-note", by decide⟩

/-- Two remarks, of which the second ends in a byte that is no text, and between them a
    field of the connection. -/
def remarks : Fields :=
  ⟨[(noteName, ⟨[0x74], by decide⟩), (⟨"upgrade", by decide⟩, ⟨[0x77], by decide⟩),
    (noteName, ⟨[0x63, 0xE9], by decide⟩)]⟩

/-- The response that carries them, kept for no time. -/
def remarked : Entry := ofResponse ⟨0⟩ 200 remarks [] ⟨0⟩

theorem replay_faithful_remarked :
    (noteName, ⟨[0x74], by decide⟩) ∈ remarked.replay.lines ∧
      isConnectionField noteName.text = false ∧
      (remarked.replay.values noteName).map FieldValue.bytes =
        [[0x74], [0x63, 0xEF, 0xBF, 0xBD]] ∧
      (remarked.first? "X-Note").map Text.Utf8.encode = some [0x74] ∧
      (ofResponse ⟨1⟩ 200 remarked.replay [] ⟨0⟩).fields = remarked.fields := by
  have hmem : (noteName, ⟨[0x74], by decide⟩) ∈ remarked.replay.lines := by decide +kernel
  have hvalues : ((remarks.values noteName).map fun v =>
      if (Text.Utf8.decode? v.bytes).isSome then v.bytes
      else Text.Utf8.encode (String.ofList (Text.Utf8.repair v.bytes))) =
        [[0x74], [0x63, 0xEF, 0xBF, 0xBD]] := by decide +kernel
  have hfirst : ((FieldName.ofText? "X-Note").bind remarked.replay.first?).map FieldValue.bytes =
      some [0x74] := by decide +kernel
  obtain ⟨hconnection, hsame, hlook, hfields, -⟩ := replay_faithful ⟨0⟩ 200 remarks [] ⟨0⟩ ⟨1⟩
  have hname := hconnection _ hmem
  exact ⟨hmem, hname, (hsame noteName hname).trans hvalues, (hlook "X-Note").trans hfirst,
    hfields⟩

end Entry

end GatewayCache
