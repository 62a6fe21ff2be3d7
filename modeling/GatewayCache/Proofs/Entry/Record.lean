/-
  GatewayCache.Proofs.Entry.Record

  Entries are read back from their records.

  A record spells one document for its entry (`spells_write`), and that document
  describes the entry without its expiry (`ofDocument?_document`). So a record is
  read as the entry it was written for, only the expiry being gone (`read_write`).
-/

import GatewayCache.Entry.Record
import GatewayCache.Proofs.Json.Written
import GatewayCache.Proofs.Text.Base64

namespace GatewayCache

/-- Where every written item is read back, a list of them is. -/
theorem mapM_map_of_inverse {α β : Type} {read : β → Option α} {write : α → β}
    (h : ∀ x, read (write x) = some x) (xs : List α) : (xs.map write).mapM read = some xs := by
  have hpure : read ∘ write = fun x => pure (id x) := funext h
  rw [List.mapM_map, hpure, List.mapM_pure, List.map_id]
  rfl

namespace Dict

variable {α : Type}

/-- A key behind all others goes to the end. -/
theorem entries_insert_of_lt {m : Dict α} {k : String} (h : ∀ e ∈ m.entries, e.1 < k) (v : α) :
    (m.insert k v).entries = m.entries ++ [(k, v)] := by
  have hbefore : m.entries.filter (fun e => decide (e.1 < k)) = m.entries :=
    List.filter_eq_self.2 fun e he => decide_eq_true (h e he)
  have hbehind : m.entries.filter (fun e => decide (k < e.1)) = [] :=
    List.filter_eq_nil_iff.2 fun e he hlt =>
      String.lt_irrefl k (String.lt_trans (of_decide_eq_true hlt) (h e he))
  show m.entries.filter _ ++ (k, v) :: m.entries.filter _ = _
  rw [hbefore, hbehind]

theorem entries_foldl_insert {m : Dict α} {pairs : List (String × α)}
    (h : (m.entries ++ pairs).Pairwise fun a b => a.1 < b.1) :
    (pairs.foldl (fun m p => m.insert p.1 p.2) m).entries = m.entries ++ pairs := by
  induction pairs generalizing m with
  | nil => exact (List.append_nil _).symm
  | cons p pairs ih =>
      have hlast : ∀ e ∈ m.entries, e.1 < p.1 :=
        fun e he => (List.pairwise_append.1 h).2.2 e he p List.mem_cons_self
      have hinsert := entries_insert_of_lt hlast p.2
      rw [List.foldl_cons, ih, hinsert, List.append_assoc, List.singleton_append]
      rwa [hinsert, List.append_assoc, List.singleton_append]

/-- A map is built again from its entries. -/
theorem ofList_entries (m : Dict α) : ofList m.entries = m := by
  apply ext
  rw [ofList, entries_foldl_insert]
  · rfl
  · exact m.sorted

end Dict

namespace Entry

/-! ## The document of an entry -/

/-- One field with its values. -/
def fieldDocument (p : String × List String) : Document × Document :=
  (.text p.1, .list (p.2.map .text))

/-- The members of a record: their names, what is written for them and what that
    spells. -/
def members (e : Entry) : List (String × List UInt8 × Document) :=
  [("status", Json.natural e.status.toNat, .natural e.status.toNat),
    ("headers", writeFields e.fields, .map (e.fields.entries.map fieldDocument)),
    ("body", Json.quoted (String.ofList (Text.Base64.encode e.body)),
      .text (String.ofList (Text.Base64.encode e.body))),
    ("vary", Json.quoted e.vary, .text e.vary)]

/-- What the record of an entry spells. -/
def document (e : Entry) : Document := .map (e.members.map fun m => (.text m.1, m.2.2))

theorem spells_writeFields (fields : Dict (List String)) :
    Json.Spells (writeFields fields) (.map (fields.entries.map fieldDocument)) :=
  Json.spells_map fun _ _ => Json.spells_list fun s _ => Json.spells_quoted s

theorem spells_write (e : Entry) : Json.Spells e.write e.document := by
  have hstatus : e.status.toNat ≤ Text.Decimal.word64 :=
    Nat.le_of_lt (Nat.lt_of_lt_of_le e.status.toNat_lt (by decide))
  have hspells : ∀ m ∈ e.members, Json.Spells m.2.1 m.2.2 := by
    simp only [members, List.forall_mem_cons]
    exact ⟨Json.spells_natural hstatus, spells_writeFields e.fields, Json.spells_quoted _,
      Json.spells_quoted _, nofun⟩
  have hwrite : e.write = Json.map (e.members.map fun m => (m.1, m.2.1)) := rfl
  rw [hwrite, document]
  exact Json.spells_map hspells

/-! ## Reading the document -/

theorem fieldOfMember?_fieldDocument (p : String × List String) :
    fieldOfMember? (fieldDocument p) = some p := by
  have htext : ∀ s, Document.text? (.text s) = some s := fun _ => rfl
  have hvalues : (p.2.map Document.text).mapM Document.text? = some p.2 :=
    mapM_map_of_inverse htext p.2
  show (Document.items? Document.text? (.list (p.2.map .text))).bind _ = _
  rw [Document.items?, hvalues]
  rfl

theorem fieldsOfDocument?_map (fields : Dict (List String)) :
    fieldsOfDocument? (.map (fields.entries.map fieldDocument)) = some fields := by
  rw [fieldsOfDocument?, mapM_map_of_inverse fieldOfMember?_fieldDocument, Option.map_some,
    Dict.ofList_entries]

theorem bodyOfDocument?_text (body : List UInt8) :
    bodyOfDocument? (.text (String.ofList (Text.Base64.encode body))) = some body := by
  rw [bodyOfDocument?, Document.text?, Option.bind_some, String.toList_ofList,
    Text.Base64.decode_encode]

theorem ofDocument?_document (e : Entry) :
    ofDocument? e.document = some { e with expiresAt := none } := by
  have hrecord : e.document.record? true recordNames =
      some [some (.natural e.status.toNat), some (.map (e.fields.entries.map fieldDocument)),
        some (.text (String.ofList (Text.Base64.encode e.body))), some (.text e.vary)] := by
    rfl
  have hstatus : (Document.natural e.status.toNat).natural? statusLimit = some e.status.toNat :=
    if_pos (Nat.le_of_lt_succ e.status.toNat_lt)
  simp only [ofDocument?, hrecord, hstatus, fieldsOfDocument?_map, bodyOfDocument?_text,
    Document.text?, Option.bind_eq_bind, Option.bind_some, UInt16.ofNat_toNat]

/-- A record is read as its entry without the expiry. -/
theorem read_write (e : Entry) : read e.write = some { e with expiresAt := none } := by
  rw [read, (spells_write e).read, Option.bind_some, ofDocument?_document]

end Entry

end GatewayCache
