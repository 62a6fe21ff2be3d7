/-
  GatewayCache.Proofs.Text.Form

  Writing the pairs of a query and reading them back.

  A written byte consists of plain bytes, the plus and the percent sign
  (`mem_written`), so no separator occurs in a written name or value, and each is
  read back as it was (`readComponent_writeComponent`). The separators then come
  apart where they were put, and reading gives all pairs back (`read_write`).
-/

import GatewayCache.Proofs.Text.Joined
import GatewayCache.Proofs.Text.Repair
import GatewayCache.Text.Form

namespace GatewayCache.Text.Form

/-! ## Written bytes -/

/-- The bytes of some characters. -/
def bytesOf (cs : List Char) : List UInt8 := cs.flatMap String.utf8EncodeChar

theorem encode_ofList (cs : List Char) : Utf8.encode (String.ofList cs) = bytesOf cs := by
  rw [Utf8.encode, String.toList_ofList, bytesOf]

theorem bytesOf_append (a b : List Char) : bytesOf (a ++ b) = bytesOf a ++ bytesOf b :=
  List.flatMap_append

theorem bytesOf_cons (c : Char) (cs : List Char) : bytesOf (c :: cs) = bytesOf [c] ++ bytesOf cs :=
  bytesOf_append [c] cs

theorem bytesOf_flatMap {α : Type} (xs : List α) (f : α → List Char) :
    bytesOf (xs.flatMap f) = xs.flatMap fun x => bytesOf (f x) :=
  List.flatMap_assoc

theorem bytesOf_intercalate (sep : List Char) (pieces : List (List Char)) :
    bytesOf (List.intercalate sep pieces) =
      List.intercalate (bytesOf sep) (pieces.map bytesOf) :=
  flatMap_intercalate String.utf8EncodeChar sep pieces

theorem bytesOf_singleton {c : Char} (h : c.toNat < 0x80) :
    bytesOf [c] = [UInt8.ofNat c.toNat] := by
  rw [bytesOf, List.flatMap_singleton, Utf8.utf8EncodeChar_of_lt h]

theorem bounds_of_isPlain {b : UInt8} (h : isPlain b = true) :
    b.toNat < 0x80 ∧ b ≠ 0x25 ∧ b ≠ 0x26 ∧ b ≠ 0x2B ∧ b ≠ 0x3D ∧ b ≠ 0x7C := by
  simp only [isPlain, Bool.or_eq_true, Bool.and_eq_true, decide_eq_true_eq, beq_iff_eq] at h
  refine ⟨by omega, ?_⟩
  refine ⟨?_, ?_, ?_, ?_, ?_⟩
  all_goals
    rintro rfl
    revert h
    decide

/-- The byte of an upper-case digit. -/
def digitByte (n : Nat) : UInt8 := UInt8.ofNat (Hex.upperDigit n).toNat

theorem isPlain_digitByte {n : Nat} (h : n < 16) : isPlain (digitByte n) = true := by
  revert h; revert n; decide

theorem digitValue?_digitByte {n : Nat} (h : n < 16) :
    Hex.digitValue? (digitByte n).toNat = some n := by
  revert h; revert n; decide

theorem bytesOf_upperDigit {n : Nat} (h : n < 16) : bytesOf [Hex.upperDigit n] = [digitByte n] := by
  apply bytesOf_singleton
  revert h; revert n; decide

/-- The bytes that one byte is written as. -/
def written (b : UInt8) : List UInt8 := bytesOf (writeByte b)

theorem written_of_isPlain {b : UInt8} (h : isPlain b = true) : written b = [b] := by
  have hlt := (bounds_of_isPlain h).1
  have hc : (Char.ofNat b.toNat).toNat = b.toNat := Utf8.toNat_ofNat_of_scalar (.inl (by omega))
  rw [written, writeByte, if_pos h, bytesOf_singleton (by omega), hc, UInt8.ofNat_toNat]

theorem written_space : written 0x20 = [0x2B] := by decide

theorem written_of_not_isPlain {b : UInt8} (h : ¬ isPlain b = true) (hs : b ≠ 0x20) :
    written b = [0x25, digitByte (b.toNat / 16), digitByte (b.toNat % 16)] := by
  have hb := b.toNat_lt
  have hpercent : bytesOf ['%'] = [0x25] := by decide
  rw [written, writeByte, if_neg h, if_neg hs, bytesOf_cons, hpercent, bytesOf_cons,
    bytesOf_upperDigit (by omega), bytesOf_upperDigit (by omega)]
  rfl

theorem mem_written {b c : UInt8} (h : c ∈ written b) : isPlain c = true ∨ c = 0x2B ∨ c = 0x25 := by
  have hb := b.toNat_lt
  by_cases hp : isPlain b = true
  · rw [written_of_isPlain hp, List.mem_singleton] at h
    exact .inl (h ▸ hp)
  · by_cases hs : b = 0x20
    · rw [hs, written_space, List.mem_singleton] at h
      exact .inr (.inl h)
    · rw [written_of_not_isPlain hp hs] at h
      simp only [List.mem_cons, List.not_mem_nil, or_false] at h
      rcases h with rfl | rfl | rfl
      · exact .inr (.inr rfl)
      · exact .inl (isPlain_digitByte (by omega))
      · exact .inl (isPlain_digitByte (by omega))

/-! ## Reading names and values back -/

/-- A byte behind a plus sign turned into a space. -/
def unplus (b : UInt8) : UInt8 := if b = 0x2B then 0x20 else b

theorem unplus_of_isPlain {b : UInt8} (h : isPlain b = true) : unplus b = b :=
  if_neg (bounds_of_isPlain h).2.2.2.1

theorem percentDecode_cons {b : UInt8} (h : b ≠ 0x25) (rest : List UInt8) :
    percentDecode (b :: rest) = b :: percentDecode rest := by
  rw [percentDecode.eq_def]
  simp only [if_neg h]

theorem percentDecode_escape {m n : Nat} (hm : m < 16) (hn : n < 16) (rest : List UInt8) :
    percentDecode (0x25 :: digitByte m :: digitByte n :: rest) =
      UInt8.ofNat (16 * m + n) :: percentDecode rest := by
  rw [percentDecode.eq_def]
  simp only [if_pos, digitValue?_digitByte hm, digitValue?_digitByte hn]

/-- A written byte is read back in front of anything. -/
theorem percentDecode_written (b : UInt8) (rest : List UInt8) :
    percentDecode ((written b).map unplus ++ rest) = b :: percentDecode rest := by
  have hb := b.toNat_lt
  by_cases hp : isPlain b = true
  · rw [written_of_isPlain hp, List.map_singleton, unplus_of_isPlain hp, List.singleton_append,
      percentDecode_cons (bounds_of_isPlain hp).2.1]
  · by_cases hs : b = 0x20
    · -- The plus sign of a space is turned back before escapes are undone.
      subst hs
      exact percentDecode_cons (by decide) rest
    · have hhigh : b.toNat / 16 < 16 := by omega
      have hlow : b.toNat % 16 < 16 := by omega
      have hpercent : unplus 0x25 = 0x25 := by decide
      rw [written_of_not_isPlain hp hs, List.map_cons, List.map_cons, List.map_singleton, hpercent,
        unplus_of_isPlain (isPlain_digitByte hhigh), unplus_of_isPlain (isPlain_digitByte hlow),
        List.cons_append, List.cons_append, List.singleton_append, percentDecode_escape hhigh hlow,
        Nat.div_add_mod, UInt8.ofNat_toNat]

theorem percentDecode_flatMap_written (bs : List UInt8) :
    percentDecode ((bs.flatMap written).map unplus) = bs := by
  induction bs with
  | nil => rfl
  | cons b bs ih => rw [List.flatMap_cons, List.map_append, percentDecode_written, ih]

theorem bytesOf_writeComponent (s : String) :
    bytesOf (writeComponent s) = (Utf8.encode s).flatMap written := bytesOf_flatMap _ _

theorem readComponent_writeComponent (s : String) :
    readComponent (bytesOf (writeComponent s)) = s := by
  rw [bytesOf_writeComponent]
  have hread : readComponent ((Utf8.encode s).flatMap written) =
      Utf8.read (percentDecode (((Utf8.encode s).flatMap written).map unplus)) := rfl
  rw [hread, percentDecode_flatMap_written, Utf8.read_encode]

/-! ## Reading pairs back -/

/-- No separator occurs in a written name or value. -/
theorem ne_of_mem_writeComponent {s : String} {c : UInt8} (h : c ∈ bytesOf (writeComponent s)) :
    c ≠ 0x26 ∧ c ≠ 0x3D ∧ c ≠ 0x7C := by
  rw [bytesOf_writeComponent, List.mem_flatMap] at h
  obtain ⟨b, -, hc⟩ := h
  rcases mem_written hc with hp | rfl | rfl
  · obtain ⟨-, -, h26, -, h3D, h7C⟩ := bounds_of_isPlain hp
    exact ⟨h26, h3D, h7C⟩
  · decide
  · decide

theorem bytesOf_writePair (p : String × String) :
    bytesOf (writePair p) =
      bytesOf (writeComponent p.1) ++ 0x3D :: bytesOf (writeComponent p.2) := by
  have hequals : bytesOf ['='] = [0x3D] := by decide
  rw [writePair, bytesOf_append, bytesOf_cons, hequals]
  rfl

theorem readPair_writePair (p : String × String) : readPair (bytesOf (writePair p)) = p := by
  have hcut : cut 0x3D (bytesOf (writePair p)) =
      (bytesOf (writeComponent p.1), some (bytesOf (writeComponent p.2))) := by
    rw [bytesOf_writePair]
    exact cut_append_cons (fun h => (ne_of_mem_writeComponent h).2.1 rfl) _
  rw [readPair, hcut]
  simp only [Option.getD_some, readComponent_writeComponent]

theorem ne_of_mem_writePair {p : String × String} {c : UInt8} (h : c ∈ bytesOf (writePair p)) :
    c ≠ 0x26 ∧ c ≠ 0x7C := by
  rw [bytesOf_writePair, List.mem_append, List.mem_cons] at h
  rcases h with h | rfl | h
  · exact ⟨(ne_of_mem_writeComponent h).1, (ne_of_mem_writeComponent h).2.2⟩
  · decide
  · exact ⟨(ne_of_mem_writeComponent h).1, (ne_of_mem_writeComponent h).2.2⟩

theorem bytesOf_write (pairs : List (String × String)) :
    bytesOf (write pairs) = List.intercalate [0x26] (pairs.map fun p => bytesOf (writePair p)) := by
  have hand : bytesOf ['&'] = [0x26] := by decide
  rw [write, bytesOf_intercalate, hand, List.map_map]
  rfl

/-- Reading gives the written pairs back, in order. -/
theorem read_write (pairs : List (String × String)) :
    read (Utf8.encode (String.ofList (write pairs))) = pairs := by
  rw [encode_ofList, bytesOf_write, read]
  cases pairs with
  -- No pairs are written as the empty text, whose one empty piece is skipped.
  | nil => rfl
  | cons p ps =>
      have hnone : ∀ piece ∈ (p :: ps).map fun p => bytesOf (writePair p),
          (0x26 : UInt8) ∉ piece := by
        intro piece hpiece hmem
        obtain ⟨q, -, rfl⟩ := List.mem_map.1 hpiece
        exact (ne_of_mem_writePair hmem).1 rfl
      have hsplit := List.splitOn_intercalate 0x26 hnone (by simp)
      have hkept : ∀ piece ∈ (p :: ps).map fun p => bytesOf (writePair p), !piece.isEmpty := by
        intro piece hpiece
        obtain ⟨q, -, rfl⟩ := List.mem_map.1 hpiece
        simp [bytesOf_writePair]
      rw [hsplit, List.filter_eq_self.2 hkept, List.map_map]
      exact (List.map_congr_left fun q _ => readPair_writePair q).trans (List.map_id _)

theorem write_injective {ps qs : List (String × String)} (h : write ps = write qs) : ps = qs := by
  rw [← read_write ps, ← read_write qs, h]

/-- Written pairs have no bar. -/
theorem bar_not_mem_write (pairs : List (String × String)) : '|' ∉ write pairs := by
  intro h
  have hbar : (0x7C : UInt8) ∈ bytesOf (write pairs) :=
    List.mem_flatMap.2 ⟨'|', h, by decide⟩
  rw [bytesOf_write] at hbar
  rcases mem_intercalate hbar with hsep | ⟨piece, hpiece, hmem⟩
  · revert hsep
    decide
  · obtain ⟨q, -, rfl⟩ := List.mem_map.1 hpiece
    exact (ne_of_mem_writePair hmem).2 rfl

end GatewayCache.Text.Form
