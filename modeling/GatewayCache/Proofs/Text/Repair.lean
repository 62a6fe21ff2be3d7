/-
  GatewayCache.Proofs.Text.Repair

  What reading bytes as text keeps of them.

  A character that has been started stays inside the range of code points that
  its first byte allows (`Started.Proper`), so every character that repairing
  makes of bytes above ASCII lies above ASCII itself. Hence an ASCII character of
  a text that was read stands for one of the bytes (`mem_toList_read`), and bytes
  above ASCII never vanish (`exists_high_mem_read`).
-/

import GatewayCache.Text.Utf8
import Mathlib.Algebra.Group.Nat.Defs
import Mathlib.Tactic.SplitIfs

namespace GatewayCache.Text.Utf8

/-! ## Encoding single characters -/

theorem utf8EncodeChar_of_lt {c : Char} (h : c.toNat < 0x80) :
    String.utf8EncodeChar c = [UInt8.ofNat c.toNat] := by
  have hle : c.val.toNat ≤ 0x7f := Nat.le_of_lt_succ h
  unfold String.utf8EncodeChar
  exact if_pos hle

/-- Characters above ASCII are encoded in bytes above ASCII. -/
theorem le_of_mem_utf8EncodeChar {c : Char} (h : 0x80 ≤ c.toNat) {b : UInt8}
    (hb : b ∈ String.utf8EncodeChar c) : 0x80 ≤ b.toNat := by
  have hv : 0x80 ≤ c.val.toNat := h
  unfold String.utf8EncodeChar at hb
  dsimp only at hb
  split_ifs at hb
  · omega
  all_goals
    simp only [List.mem_cons, List.not_mem_nil, or_false] at hb
    rcases hb with rfl | rfl | rfl | rfl
  all_goals
    rw [UInt8.toNat_ofNat']
    omega

theorem mem_encode {s : String} {b : UInt8} :
    b ∈ encode s ↔ ∃ c ∈ s.toList, b ∈ String.utf8EncodeChar c := List.mem_flatMap

/-- Well-formed bytes are what their text is encoded as. -/
theorem encode_of_decode? {bs : List UInt8} {s : String} (h : decode? bs = some s) :
    encode s = bs := by
  unfold decode? String.fromUTF8? at h
  split at h
  · have hs : s.toByteArray = bs.toByteArray := by
      rw [← Option.some.inj h]
      rfl
    have hdata := congrArg ByteArray.data ((toByteArray_encode s).trans hs)
    rw [List.data_toByteArray, List.data_toByteArray] at hdata
    exact List.toArray_inj hdata
  · cases h

/-! ## Started characters -/

/-- The least code point that a started character can still become. -/
def Started.least (s : Started) : Nat := (s.code * 64 + (s.low - 0x80)) * 64 ^ s.more

/-- The greatest code point that a started character can still become. -/
def Started.greatest (s : Started) : Nat :=
  (s.code * 64 + (s.high - 0x80)) * 64 ^ s.more + (64 ^ s.more - 1)

/-- A started character can only become a character above ASCII. -/
structure Started.Proper (s : Started) : Prop where
  more_le : s.more ≤ 2
  low_ge : 0x80 ≤ s.low
  high_le : s.high ≤ 0xBF
  least_ge : 0x80 ≤ s.least
  scalar : s.greatest < 0xD800 ∨ (0xE000 ≤ s.least ∧ s.greatest < 0x110000)

theorem toNat_ofNat_of_scalar {n : Nat} (h : n < 0xD800 ∨ (0xE000 ≤ n ∧ n < 0x110000)) :
    (Char.ofNat n).toNat = n := by
  have hv : n.isValidChar := by
    rcases h with h | ⟨hge, hlt⟩
    · exact .inl h
    · exact .inr ⟨by omega, hlt⟩
  unfold Char.ofNat
  rw [dif_pos hv]
  rfl

theorem replacement_high : 0x80 ≤ replacement.toNat := by decide

theorem proper_mk {code more low high : Nat} (hmore : more ≤ 2) (hlow : 0x80 ≤ low)
    (hhigh : high ≤ 0xBF) (hleast : 0x80 ≤ (code * 64 + (low - 0x80)) * 64 ^ more)
    (hscalar : (code * 64 + (high - 0x80)) * 64 ^ more + (64 ^ more - 1) < 0xD800 ∨
      (0xE000 ≤ (code * 64 + (low - 0x80)) * 64 ^ more ∧
        (code * 64 + (high - 0x80)) * 64 ^ more + (64 ^ more - 1) < 0x110000)) :
    Started.Proper ⟨code, more, low, high⟩ :=
  ⟨hmore, hlow, hhigh, hleast, hscalar⟩

/-- All that a first byte can do: it is an ASCII character, it is replaced, or it
    leaves a proper character started. -/
theorem start_cases (b : UInt8) :
    (b.toNat < 0x80 ∧ start b = ([Char.ofNat b.toNat], none)) ∨ start b = ([replacement], none) ∨
      ∃ s : Started, s.Proper ∧ start b = ([], some s) := by
  have hb : b.toNat < 256 := b.toNat_lt
  by_cases h1 : b.toNat < 0x80
  · exact .inl ⟨h1, if_pos h1⟩
  refine .inr ?_
  rw [show start b = _ from if_neg h1]
  by_cases h2 : b.toNat < 0xC2
  · exact .inl (if_pos h2)
  rw [if_neg h2]
  -- From here on only the ranges of the first byte differ.
  by_cases h3 : b.toNat < 0xE0
  · exact .inr ⟨_, proper_mk (by omega) (by omega) (by omega) (by omega) (by omega), if_pos h3⟩
  rw [if_neg h3]
  by_cases h4 : b.toNat = 0xE0
  · exact .inr ⟨_, proper_mk (by omega) (by omega) (by omega) (by omega) (by omega), if_pos h4⟩
  rw [if_neg h4]
  by_cases h5 : b.toNat = 0xED
  · exact .inr ⟨_, proper_mk (by omega) (by omega) (by omega) (by omega) (by omega), if_pos h5⟩
  rw [if_neg h5]
  by_cases h6 : b.toNat < 0xF0
  · exact .inr ⟨_, proper_mk (by omega) (by omega) (by omega) (by omega) (by omega), if_pos h6⟩
  rw [if_neg h6]
  by_cases h7 : b.toNat = 0xF0
  · exact .inr ⟨_, proper_mk (by omega) (by omega) (by omega) (by omega) (by omega), if_pos h7⟩
  rw [if_neg h7]
  by_cases h8 : b.toNat < 0xF4
  · exact .inr ⟨_, proper_mk (by omega) (by omega) (by omega) (by omega) (by omega), if_pos h8⟩
  rw [if_neg h8]
  by_cases h9 : b.toNat = 0xF4
  · exact .inr ⟨_, proper_mk (by omega) (by omega) (by omega) (by omega) (by omega), if_pos h9⟩
  · exact .inl (if_neg h9)

theorem proper_start {b : UInt8} {s : Started} (h : (start b).2 = some s) : s.Proper := by
  rcases start_cases b with ⟨-, hstart⟩ | hstart | ⟨t, ht, hstart⟩
  · rw [hstart] at h
    cases h
  · rw [hstart] at h
    cases h
  · rw [hstart] at h
    exact Option.some.inj h ▸ ht

/-- A first byte is an ASCII character, or gives characters above ASCII only. -/
theorem mem_start {b : UInt8} {c : Char} (h : c ∈ (start b).1) :
    0x80 ≤ c.toNat ∨ (b.toNat < 0x80 ∧ c.toNat = b.toNat) := by
  rcases start_cases b with ⟨hlt, hstart⟩ | hstart | ⟨t, -, hstart⟩
  · rw [hstart, List.mem_singleton] at h
    rw [h, toNat_ofNat_of_scalar (.inl (by omega))]
    exact .inr ⟨hlt, rfl⟩
  · rw [hstart, List.mem_singleton] at h
    exact .inl (h ▸ replacement_high)
  · rw [hstart] at h
    cases h

section

variable {s : Started} {b : UInt8}

theorem Started.code_bounds (hin : s.low ≤ b.toNat ∧ b.toNat ≤ s.high) :
    s.least ≤ (s.code * 64 + (b.toNat - 0x80)) * 64 ^ s.more ∧
      (s.code * 64 + (b.toNat - 0x80)) * 64 ^ s.more + (64 ^ s.more - 1) ≤ s.greatest := by
  obtain ⟨hlow, hhigh⟩ := hin
  have h1 : s.code * 64 + (s.low - 0x80) ≤ s.code * 64 + (b.toNat - 0x80) := by omega
  have h2 : s.code * 64 + (b.toNat - 0x80) ≤ s.code * 64 + (s.high - 0x80) := by omega
  exact ⟨Nat.mul_le_mul_right _ h1, Nat.add_le_add_right (Nat.mul_le_mul_right _ h2) _⟩

/-- A byte in range that ends the character makes one above ASCII. -/
theorem Started.Proper.finished (h : s.Proper) (hin : s.low ≤ b.toNat ∧ b.toNat ≤ s.high)
    (hm : s.more = 0) : 0x80 ≤ (Char.ofNat (s.code * 64 + (b.toNat - 0x80))).toNat := by
  obtain ⟨hleast, hgreatest⟩ := Started.code_bounds hin
  have hge := h.least_ge
  have hscalar := h.scalar
  rw [hm] at hleast hgreatest
  rw [toNat_ofNat_of_scalar (by omega)]
  omega

/-- A byte in range that does not end the character leaves it proper. -/
theorem Started.Proper.continued (h : s.Proper) (hin : s.low ≤ b.toNat ∧ b.toNat ≤ s.high)
    (hm : s.more ≠ 0) :
    Started.Proper ⟨s.code * 64 + (b.toNat - 0x80), s.more - 1, 0x80, 0xBF⟩ := by
  obtain ⟨hleast, hgreatest⟩ := Started.code_bounds hin
  have hge := h.least_ge
  have hscalar := h.scalar
  have hle := h.more_le
  obtain hm | hm : s.more = 1 ∨ s.more = 2 := by omega
  all_goals
    rw [hm] at hleast hgreatest
    constructor <;> simp only [Started.least, Started.greatest, hm] <;> omega

end

/-! ## Repairing -/

/-- What a byte leaves started is proper. -/
theorem proper_feed {s : Option Started} (hs : ∀ t, s = some t → t.Proper) {b : UInt8}
    {t : Started} (h : (feed s b).2 = some t) : t.Proper := by
  cases s with
  | none => exact proper_start h
  | some s =>
      unfold feed at h
      dsimp only at h
      split_ifs at h with hin hm
      · exact Option.some.inj h ▸ (hs s rfl).continued hin hm
      · exact proper_start h

theorem mem_feed {s : Option Started} (hs : ∀ t, s = some t → t.Proper) {b : UInt8} {c : Char}
    (h : c ∈ (feed s b).1) : 0x80 ≤ c.toNat ∨ (b.toNat < 0x80 ∧ c.toNat = b.toNat) := by
  cases s with
  | none => exact mem_start h
  | some s =>
      unfold feed at h
      dsimp only at h
      split_ifs at h with hin hm
      · exact .inl (List.mem_singleton.1 h ▸ (hs s rfl).finished hin hm)
      · cases h
      · rcases List.mem_cons.1 h with rfl | h
        · exact .inl replacement_high
        · exact mem_start h

/-- Every character of a repaired text lies above ASCII or is one of the bytes. -/
theorem mem_repairFrom {s : Option Started} (hs : ∀ t, s = some t → t.Proper) {bs : List UInt8}
    {c : Char} (h : c ∈ repairFrom s bs) : 0x80 ≤ c.toNat ∨ UInt8.ofNat c.toNat ∈ bs := by
  induction bs generalizing s with
  | nil =>
      cases s with
      | none => cases h
      | some t =>
          obtain rfl := List.mem_singleton.1 h
          exact .inl replacement_high
  | cons b bs ih =>
      rw [repairFrom] at h
      rcases List.mem_append.1 h with h | h
      · rcases mem_feed hs h with hge | ⟨-, heq⟩
        · exact .inl hge
        · rw [heq, UInt8.ofNat_toNat]
          exact .inr List.mem_cons_self
      · exact (ih (fun t => proper_feed hs) h).imp_right (List.mem_cons_of_mem b)

/-- A started character comes out above ASCII, one way or the other. -/
theorem exists_high_mem_repairFrom {s : Started} (hs : s.Proper) (bs : List UInt8) :
    ∃ c ∈ repairFrom (some s) bs, 0x80 ≤ c.toNat := by
  induction bs generalizing s with
  | nil => exact ⟨replacement, List.mem_singleton.2 rfl, replacement_high⟩
  | cons b bs ih =>
      rw [repairFrom, feed]
      dsimp only
      -- The byte ends the character, continues it, or has it replaced.
      split_ifs with hin hm
      · exact ⟨_, List.mem_append_left _ (List.mem_singleton.2 rfl), hs.finished hin hm⟩
      · exact ih (hs.continued hin hm)
      · exact ⟨replacement, List.mem_append_left _ List.mem_cons_self, replacement_high⟩

theorem exists_high_mem_repair {bs : List UInt8} (h : ∃ b ∈ bs, 0x80 ≤ b.toNat) :
    ∃ c ∈ repair bs, 0x80 ≤ c.toNat := by
  unfold repair
  induction bs with
  | nil =>
      obtain ⟨b, hb, -⟩ := h
      cases hb
  | cons b bs ih =>
      rw [repairFrom, feed]
      rcases start_cases b with ⟨hlt, hstart⟩ | hstart | ⟨t, ht, hstart⟩
      · obtain ⟨b', hb', hge⟩ := h
        have hmem : b' ∈ bs := by
          rcases List.mem_cons.1 hb' with rfl | hmem
          · omega
          · exact hmem
        obtain ⟨c, hc, hge⟩ := ih ⟨b', hmem, hge⟩
        rw [hstart]
        exact ⟨c, List.mem_append_right _ hc, hge⟩
      · rw [hstart]
        exact ⟨replacement, List.mem_append_left _ List.mem_cons_self, replacement_high⟩
      · rw [hstart]
        obtain ⟨c, hc, hge⟩ := exists_high_mem_repairFrom ht bs
        exact ⟨c, List.mem_append_right _ hc, hge⟩

/-! ## Reading -/

/-- Every character of a text that was read lies above ASCII or is one of the
    bytes. -/
theorem mem_toList_read {bs : List UInt8} {c : Char} (h : c ∈ (read bs).toList) :
    0x80 ≤ c.toNat ∨ UInt8.ofNat c.toNat ∈ bs := by
  unfold read at h
  cases hd : decode? bs with
  | none =>
      rw [hd, Option.getD_none, String.toList_ofList] at h
      exact mem_repairFrom (fun t ht => by cases ht) h
  | some s =>
      rw [hd, Option.getD_some] at h
      rcases Nat.lt_or_ge c.toNat 0x80 with hlt | hge
      · rw [← encode_of_decode? hd]
        refine .inr (mem_encode.2 ⟨c, h, ?_⟩)
        rw [utf8EncodeChar_of_lt hlt]
        exact List.mem_singleton.2 rfl
      · exact .inl hge

/-- Bytes above ASCII leave a character above ASCII in the text. -/
theorem exists_high_mem_read {bs : List UInt8} (h : ∃ b ∈ bs, 0x80 ≤ b.toNat) :
    ∃ c ∈ (read bs).toList, 0x80 ≤ c.toNat := by
  unfold read
  cases hd : decode? bs with
  | none =>
      rw [Option.getD_none, String.toList_ofList]
      exact exists_high_mem_repair h
  | some s =>
      rw [Option.getD_some]
      obtain ⟨b, hb, hge⟩ := h
      rw [← encode_of_decode? hd] at hb
      obtain ⟨c, hc, hbc⟩ := mem_encode.1 hb
      refine ⟨c, hc, ?_⟩
      rcases Nat.lt_or_ge c.toNat 0x80 with hlt | hge'
      · rw [utf8EncodeChar_of_lt hlt, List.mem_singleton] at hbc
        rw [hbc, UInt8.toNat_ofNat'] at hge
        omega
      · exact hge'

end GatewayCache.Text.Utf8
