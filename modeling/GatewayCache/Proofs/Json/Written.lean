/-
  GatewayCache.Proofs.Json.Written

  Written values are read as the documents they were written for.

  Whether bytes spell a document is said for every rest that may follow a value and
  for fuel in proportion to the bytes (`Spells`). Quoted texts and natural numbers
  spell theirs, and a list or a map spells the document of its parts if these do.
  Bytes that spell a document are read as it (`Spells.read`).
-/

import GatewayCache.Json.Reader
import GatewayCache.Proofs.Json.Number
import GatewayCache.Proofs.Json.Quoted

namespace GatewayCache.Json

/-- The bytes are a value that is read as the document. They start with no blank
    and no closing bracket, so they are not taken for the end of a list. -/
structure Spells (bs : List UInt8) (d : Document) : Prop where
  starts : ∃ b others, bs = b :: others ∧ isBlankByte b = false ∧ b ≠ 0x5D
  scanned : ∀ fuel rest, 2 * bs.length ≤ fuel → EndsNumber rest →
    scanValue fuel (bs ++ rest) = some (d, rest)

theorem skipBlanks_cons {b : UInt8} (h : isBlankByte b = false) (rest : List UInt8) :
    skipBlanks (b :: rest) = b :: rest := List.dropWhile_cons_of_neg (by simp [h])

theorem Spells.one_le_length {bs : List UInt8} {d : Document} (h : Spells bs d) :
    1 ≤ bs.length := by
  obtain ⟨b, others, rfl, -, -⟩ := h.starts
  exact Nat.le_add_left 1 others.length

/-- The whole input is read as the document it spells. -/
theorem Spells.read {bs : List UInt8} {d : Document} (h : Spells bs d) : read bs = some d := by
  have hscan := h.scanned (2 * bs.length + 2) [] (Nat.le_add_right _ _) nofun
  rw [List.append_nil] at hscan
  rw [Json.read, hscan]
  rfl

theorem endsNumber_cons {b : UInt8} (h : b = 0x2C ∨ b = 0x5D ∨ b = 0x7D) (rest : List UInt8) :
    EndsNumber (b :: rest) := by
  rintro _ ⟨rfl⟩
  rcases h with rfl | rfl | rfl <;> decide

/-! ## Single values -/

theorem spells_quoted (s : String) : Spells (quoted s) (.text s) where
  starts := ⟨0x22, _, rfl, by decide, by decide⟩
  scanned := by
    intro fuel rest hfuel _
    obtain ⟨us, others, hcons, htext, hscan⟩ := scanQuoted_quoted s rest
    have hdocument : documentOfUnits us = .text s := by rw [documentOfUnits, htext]
    rw [quoted, List.length_cons] at hfuel
    obtain ⟨fuel, rfl⟩ := Nat.exists_eq_add_of_le' (show 1 ≤ fuel by omega)
    rw [hcons, scanValue, skipBlanks_cons (by decide)]
    simp only [hscan, Option.map_some, hdocument]

/-- What starts with a digit is no word. -/
theorem scanPlain_of_isDigitByte {b : UInt8} (h : isDigitByte b = true) (rest : List UInt8) :
    scanPlain (b :: rest) = scanNumber (b :: rest) := by
  unfold scanPlain
  split
  next hcons => exact absurd h (by rw [(List.cons.inj hcons).1]; decide)
  next hcons => exact absurd h (by rw [(List.cons.inj hcons).1]; decide)
  next hcons => exact absurd h (by rw [(List.cons.inj hcons).1]; decide)
  next => rfl

theorem spells_natural {n : Nat} (hn : n ≤ Text.Decimal.word64) :
    Spells (natural n) (.natural n) := by
  obtain ⟨b, bs, hcons, hdigit⟩ := exists_digit_natural n
  have hne : ∀ c, isDigitByte c = false → b ≠ c := fun c hc e => by simp [← e, hdigit] at hc
  have hblank : isBlankByte b = false := by
    simp [isBlankByte, hne 0x20 rfl, hne 0x0A rfl, hne 0x0D rfl, hne 0x09 rfl]
  refine ⟨⟨b, bs, hcons, hblank, hne 0x5D rfl⟩, fun fuel rest hfuel hrest => ?_⟩
  rw [hcons, List.length_cons] at hfuel
  obtain ⟨fuel, rfl⟩ := Nat.exists_eq_add_of_le' (show 1 ≤ fuel by omega)
  have hscan := scanNumber_natural hn hrest
  rw [hcons, List.cons_append] at hscan ⊢
  rw [scanValue, skipBlanks_cons hblank]
  split
  next h => exact absurd (List.cons.inj h).1 (hne 0x22 rfl)
  next h => exact absurd (List.cons.inj h).1 (hne 0x5B rfl)
  next h => exact absurd (List.cons.inj h).1 (hne 0x7B rfl)
  next => rw [scanPlain_of_isDigitByte hdigit, hscan]

/-! ## Lists -/

/-- Joined parts start as the first of them does. -/
theorem exists_intercalate_cons (sep : List UInt8) (b : UInt8) (bs : List UInt8)
    (parts : List (List UInt8)) (rest : List UInt8) :
    ∃ others, List.intercalate sep ((b :: bs) :: parts) ++ rest = b :: others := by
  cases parts with
  | nil => exact ⟨bs ++ rest, by rw [List.intercalate_singleton, List.cons_append]⟩
  | cons part parts => exact ⟨_, by rw [List.intercalate_cons_cons]; rfl⟩

theorem scanItems_last {fuel : Nat} {bs rest : List UInt8} {d : Document}
    (h : scanValue fuel bs = some (d, 0x5D :: rest)) :
    scanItems (fuel + 1) bs = some ([d], rest) := by
  rw [scanItems, h]
  rfl

theorem scanItems_next {fuel : Nat} {bs others rest : List UInt8} {d : Document}
    {ds : List Document} (h : scanValue fuel bs = some (d, 0x2C :: others))
    (hothers : scanItems fuel others = some (ds, rest)) :
    scanItems (fuel + 1) bs = some (d :: ds, rest) := by
  rw [scanItems, h]
  show (scanItems fuel others).map _ = _
  rw [hothers]
  rfl

section Parts

variable {α : Type} {w : α → List UInt8} {d : α → Document}

/-- The items up to the closing bracket are read one by one. -/
theorem scanItems_intercalate {x : α} {xs : List α} (h : ∀ y ∈ x :: xs, Spells (w y) (d y))
    (fuel : Nat) (rest : List UInt8)
    (hfuel : 2 * (List.intercalate [0x2C] ((x :: xs).map w)).length + 1 ≤ fuel) :
    scanItems fuel (List.intercalate [0x2C] ((x :: xs).map w) ++ 0x5D :: rest) =
      some ((x :: xs).map d, rest) := by
  have hx := h x List.mem_cons_self
  induction xs generalizing x fuel with
  | nil =>
      rw [List.map_singleton, List.intercalate_singleton] at hfuel ⊢
      obtain ⟨fuel, rfl⟩ := Nat.exists_eq_add_of_le' (show 1 ≤ fuel by omega)
      exact scanItems_last
        (hx.scanned fuel (0x5D :: rest) (by omega) (endsNumber_cons (by decide) rest))
  | cons y ys ih =>
      rw [List.map_cons, List.map_cons, List.intercalate_cons_cons, ← List.map_cons] at hfuel ⊢
      rw [List.append_assoc, List.append_assoc, List.singleton_append]
      -- The item and the comma take up bytes, so the fuel left suffices for the rest.
      have hone := hx.one_le_length
      simp only [List.length_append, List.length_singleton] at hfuel
      obtain ⟨fuel, rfl⟩ := Nat.exists_eq_add_of_le' (show 1 ≤ fuel by omega)
      have hother : ∀ z ∈ y :: ys, Spells (w z) (d z) :=
        fun z hz => h z (List.mem_cons_of_mem x hz)
      exact scanItems_next
        (hx.scanned fuel _ (by omega) (endsNumber_cons (by decide) _))
        (ih hother fuel (by omega) (hother y List.mem_cons_self))

theorem spells_list {xs : List α} (h : ∀ x ∈ xs, Spells (w x) (d x)) :
    Spells (list (xs.map w)) (.list (xs.map d)) where
  starts := ⟨0x5B, _, rfl, by decide, by decide⟩
  scanned := by
    intro fuel rest hfuel _
    rw [list, List.length_cons, List.length_append, List.length_singleton] at hfuel
    obtain ⟨fuel, rfl⟩ := Nat.exists_eq_add_of_le' (show 1 ≤ fuel by omega)
    rw [list, List.cons_append, List.append_assoc, List.singleton_append, scanValue,
      skipBlanks_cons (by decide)]
    cases xs with
    | nil => rfl
    | cons x xs =>
      have hitems := scanItems_intercalate h fuel rest (by omega)
      obtain ⟨b, bs, hx, hblank, hb⟩ := (h x List.mem_cons_self).starts
      obtain ⟨others, hcons⟩ := exists_intercalate_cons [0x2C] b bs (xs.map w) (0x5D :: rest)
      rw [List.map_cons, hx, hcons] at hitems ⊢
      simp only
      rw [skipBlanks_cons hblank]
      split
      next hbracket => exact absurd (List.cons.inj hbracket).1 hb
      next => rw [hitems]; rfl

/-! ## Maps -/

/-- Behind a written name and a value, the brace or the comma decides. -/
theorem scanMembers_member {fuel : Nat} {k : String} {bs others : List UInt8} {v : Document}
    {b : UInt8} (h : scanValue fuel bs = some (v, b :: others)) :
    (b = 0x7D → scanMembers (fuel + 1) (quoted k ++ 0x3A :: bs) =
      some ([(.text k, v)], others)) ∧
    (b = 0x2C → scanMembers (fuel + 1) (quoted k ++ 0x3A :: bs) =
      (scanMembers fuel others).map fun p => ((.text k, v) :: p.1, p.2)) := by
  obtain ⟨us, behind, hcons, htext, hscan⟩ := scanQuoted_quoted k (0x3A :: bs)
  have hkey : documentOfUnits us = .text k := by rw [documentOfUnits, htext]
  rw [hcons, scanMembers, skipBlanks_cons (by decide)]
  simp only [hscan, hkey]
  rw [skipBlanks_cons (by decide)]
  simp only [h]
  constructor
  · rintro rfl
    rfl
  · rintro rfl
    rfl

theorem member_append (k : String) (bs rest : List UInt8) :
    member (k, bs) ++ rest = quoted k ++ 0x3A :: (bs ++ rest) := by
  rw [member, List.append_assoc, List.cons_append]

theorem length_member_le (k : String) (bs : List UInt8) :
    bs.length + 1 ≤ (member (k, bs)).length := by
  rw [member, List.length_append, List.length_cons]
  exact Nat.le_add_left _ _

variable {k : α → String}

/-- The members up to the closing brace are read one by one. -/
theorem scanMembers_intercalate {x : α} {xs : List α} (h : ∀ y ∈ x :: xs, Spells (w y) (d y))
    (fuel : Nat) (rest : List UInt8)
    (hfuel : 2 * (List.intercalate [0x2C]
      ((x :: xs).map fun y => member (k y, w y))).length + 1 ≤ fuel) :
    scanMembers fuel
        (List.intercalate [0x2C] ((x :: xs).map fun y => member (k y, w y)) ++ 0x7D :: rest) =
      some ((x :: xs).map fun y => (.text (k y), d y), rest) := by
  have hx := h x List.mem_cons_self
  have hlength := length_member_le (k x) (w x)
  induction xs generalizing x fuel with
  | nil =>
      rw [List.map_singleton, List.intercalate_singleton] at hfuel ⊢
      obtain ⟨fuel, rfl⟩ := Nat.exists_eq_add_of_le' (show 1 ≤ fuel by omega)
      rw [member_append]
      exact (scanMembers_member
        (hx.scanned fuel (0x7D :: rest) (by omega) (endsNumber_cons (by decide) rest))).1 rfl
  | cons y ys ih =>
      rw [List.map_cons, List.map_cons, List.intercalate_cons_cons,
        ← List.map_cons (f := fun y => member (k y, w y))] at hfuel ⊢
      rw [List.append_assoc, List.append_assoc, List.singleton_append, member_append]
      simp only [List.length_append, List.length_singleton] at hfuel
      obtain ⟨fuel, rfl⟩ := Nat.exists_eq_add_of_le' (show 1 ≤ fuel by omega)
      have hother : ∀ z ∈ y :: ys, Spells (w z) (d z) :=
        fun z hz => h z (List.mem_cons_of_mem x hz)
      have hrest := ih hother fuel (by omega) (hother y List.mem_cons_self) (length_member_le _ _)
      rw [(scanMembers_member
        (hx.scanned fuel _ (by omega) (endsNumber_cons (by decide) _))).2 rfl, hrest]
      rfl

theorem spells_map {xs : List α} (h : ∀ x ∈ xs, Spells (w x) (d x)) :
    Spells (map (xs.map fun x => (k x, w x))) (.map (xs.map fun x => (.text (k x), d x))) where
  starts := ⟨0x7B, _, rfl, by decide, by decide⟩
  scanned := by
    intro fuel rest hfuel _
    have hmap : map (xs.map fun x => (k x, w x)) = 0x7B ::
        (List.intercalate [0x2C] (xs.map fun x => member (k x, w x)) ++ [0x7D]) := by
      rw [map, List.map_map]
      rfl
    rw [hmap, List.length_cons, List.length_append, List.length_singleton] at hfuel
    obtain ⟨fuel, rfl⟩ := Nat.exists_eq_add_of_le' (show 1 ≤ fuel by omega)
    rw [hmap, List.cons_append, List.append_assoc, List.singleton_append, scanValue,
      skipBlanks_cons (by decide)]
    cases xs with
    | nil => rfl
    | cons x xs =>
      have hmembers := scanMembers_intercalate (k := k) h fuel rest (by omega)
      obtain ⟨bs, hx⟩ : ∃ bs, member (k x, w x) = 0x22 :: bs := ⟨_, rfl⟩
      obtain ⟨others, hcons⟩ := exists_intercalate_cons [0x2C] 0x22 bs
        (xs.map fun y => member (k y, w y)) (0x7D :: rest)
      rw [List.map_cons, hx, hcons] at hmembers ⊢
      show (scanMembers fuel (0x22 :: others)).map _ = _
      rw [hmembers]
      rfl

end Parts

end GatewayCache.Json
