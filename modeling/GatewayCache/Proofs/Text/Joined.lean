/-
  GatewayCache.Proofs.Text.Joined

  Texts joined from pieces, and texts without blanks at their ends.

  A joined text splits at the separators into what each of its pieces splits into
  (`splitOn_intercalate_eq_flatMap`). Trimming makes texts without blanks at their ends
  and leaves them as they are. Joined with separators of that kind they make such a
  text again (`Trimmed.intercalate`).
-/

import GatewayCache.Text.Blank
import Mathlib.Logic.Function.Basic

namespace GatewayCache.Text

/-! ## Joined pieces -/

theorem mem_intercalate {α : Type} {sep : List α} {pieces : List (List α)} {c : α}
    (h : c ∈ List.intercalate sep pieces) : c ∈ sep ∨ ∃ piece ∈ pieces, c ∈ piece := by
  induction pieces with
  | nil => cases h
  | cons piece pieces ih =>
      cases pieces with
      | nil => exact .inr ⟨piece, List.mem_cons_self, by simpa using h⟩
      | cons next pieces =>
          rw [List.intercalate_cons_cons, List.mem_append, List.mem_append] at h
          rcases h with (h | h) | h
          · exact .inr ⟨piece, List.mem_cons_self, h⟩
          · exact .inl h
          · rcases ih h with h | ⟨p, hp, hc⟩
            · exact .inl h
            · exact .inr ⟨p, List.mem_cons_of_mem piece hp, hc⟩

theorem flatMap_intercalate {α β : Type} (f : α → List β) (sep : List α)
    (pieces : List (List α)) : (List.intercalate sep pieces).flatMap f =
      List.intercalate (sep.flatMap f) (pieces.map fun piece => piece.flatMap f) := by
  induction pieces with
  | nil => rfl
  | cons piece pieces ih =>
      cases pieces with
      | nil => simp
      | cons next pieces =>
          rw [List.intercalate_cons_cons, List.flatMap_append, List.flatMap_append, ih]
          simp only [List.map_cons, List.intercalate_cons_cons]

theorem all_intercalate {α : Type} {p : α → Bool} {sep : List α} (hsep : sep.all p = true)
    (pieces : List (List α)) :
    (List.intercalate sep pieces).all p = pieces.all fun piece => piece.all p := by
  induction pieces with
  | nil => rfl
  | cons piece pieces ih =>
      cases pieces with
      | nil => simp
      | cons next pieces =>
          rw [List.intercalate_cons_cons, List.all_append, List.all_append, hsep, Bool.and_true, ih]
          rfl

/-! ## Split at separators -/

/-- Pieces that are joined fall apart again, and may fall apart further. -/
theorem splitOn_intercalate_eq_flatMap {α : Type} [BEq α] [ReflBEq α] (sep : α)
    {pieces : List (List α)} (h : pieces ≠ []) :
    (List.intercalate [sep] pieces).splitOn sep = pieces.flatMap fun p => p.splitOn sep := by
  induction pieces with
  | nil => exact absurd rfl h
  | cons piece pieces ih =>
      cases pieces with
      | nil => simp
      | cons next pieces =>
          rw [List.intercalate_cons_cons, List.append_assoc, List.singleton_append,
            List.splitOn_append_cons_self, ih (List.cons_ne_nil next pieces), ← List.flatMap_cons]

/-- A text falls apart into what stands in it between the separators. -/
theorem mem_and_ne_of_mem_splitOn {α : Type} [DecidableEq α] {sep c : α} {cs piece : List α}
    (h : piece ∈ cs.splitOn sep) (hc : c ∈ piece) : c ∈ cs ∧ c ≠ sep := by
  induction cs generalizing piece with
  | nil =>
      rw [List.splitOn_nil, List.mem_singleton] at h
      subst h
      cases hc
  | cons d cs ih =>
      obtain ⟨first, rest, hsplit⟩ := List.exists_cons_of_ne_nil (List.splitOn_ne_nil sep cs)
      have hlater : ∀ {piece : List α}, piece ∈ first :: rest → c ∈ piece → c ∈ d :: cs ∧ c ≠ sep :=
        fun hpiece hc => (ih (hsplit ▸ hpiece) hc).imp_left (List.mem_cons_of_mem d)
      rw [List.splitOn_cons_eq_if_modifyHead, hsplit] at h
      split at h
      · rcases List.mem_cons.1 h with rfl | h
        · cases hc
        · exact hlater h hc
      · next hd =>
          rcases List.mem_cons.1 h with rfl | h
          · rcases List.mem_cons.1 hc with rfl | hc
            · exact ⟨List.mem_cons_self, fun heq => hd (beq_iff_eq.2 heq)⟩
            · exact hlater List.mem_cons_self hc
          · exact hlater (List.mem_cons_of_mem first h) hc

/-- Renamed characters split at the renamed separator, if nothing else gets its name. -/
theorem splitOn_map_of_beq {α β : Type} [BEq α] [BEq β] {f : α → β} {sep : α} {sep' : β}
    (hf : ∀ c, (f c == sep') = (c == sep)) (cs : List α) :
    (cs.map f).splitOn sep' = (cs.splitOn sep).map (List.map f) := by
  induction cs with
  | nil => rfl
  | cons c cs ih =>
      rw [List.map_cons, List.splitOn_cons_eq_if_modifyHead, List.splitOn_cons_eq_if_modifyHead, ih,
        hf c]
      split
      · rfl
      · cases cs.splitOn sep <;> rfl

theorem splitOn_map {α β : Type} [DecidableEq α] [DecidableEq β] {f : α → β}
    (hf : Function.Injective f) (sep : α) (cs : List α) :
    (cs.map f).splitOn (f sep) = (cs.splitOn sep).map (List.map f) := by
  apply splitOn_map_of_beq
  intro c
  rw [Bool.eq_iff_iff, beq_iff_eq, beq_iff_eq, hf.eq_iff]

/-- What is taken up to a boundary is all that stands in front of it. -/
theorem takeWhile_append_of_head {α : Type} {p : α → Bool} {front back : List α}
    (hfront : ∀ a ∈ front, p a = true) (hback : ∀ a ∈ back.head?, p a = false) :
    (front ++ back).takeWhile p = front := by
  rw [List.takeWhile_append_of_pos hfront]
  cases back with
  | nil => simp
  | cons a back => rw [List.takeWhile_cons_of_neg (by simp [hback a rfl]), List.append_nil]

/-! ## Padded texts -/

/-- Taking characters off both ends leaves what they stand around. -/
theorem strip_padded {p : Char → Bool} {front cs back : List Char}
    (hfront : ∀ c ∈ front, p c = true) (hback : ∀ c ∈ back, p c = true)
    (first : ∀ c ∈ cs.head?, p c = false) (last : ∀ c ∈ cs.getLast?, p c = false) :
    strip p (front ++ cs ++ back) = cs := by
  have hfront' : (front ++ (cs ++ back)).dropWhile p = (cs ++ back).dropWhile p :=
    List.dropWhile_append_of_pos hfront
  have hback' : (back.reverse ++ cs.reverse).dropWhile p = cs.reverse.dropWhile p :=
    List.dropWhile_append_of_pos fun c hc => hback c (List.mem_reverse.1 hc)
  cases cs with
  | nil =>
      have hnone : (back ++ []).dropWhile p = [] := List.dropWhile_append_of_pos hback
      rw [List.append_nil] at hnone
      rw [strip, List.append_assoc, hfront', List.nil_append, hnone]
      rfl
  | cons c rest =>
      -- The first character stops what is taken off in front, with the back or without it.
      have hkeep : ∀ xs : List Char, (c :: xs).dropWhile p = c :: xs := fun xs =>
        List.dropWhile_cons_of_neg (by simp [first c rfl])
      have hself : strip p (c :: rest) = c :: rest := strip_eq_self first last
      rw [strip, hkeep] at hself
      rw [strip, List.append_assoc, hfront', List.cons_append, hkeep, ← List.cons_append,
        List.reverse_append, hback', hself]

/-! ## Trimmed texts -/

/-- There is no blank at either end. -/
structure Trimmed (cs : List Char) : Prop where
  first : ∀ c ∈ cs.head?, isBlank c = false
  last : ∀ c ∈ cs.getLast?, isBlank c = false

theorem trimmed_nil : Trimmed [] := ⟨by simp, by simp⟩

theorem Trimmed.trim_eq {cs : List Char} (h : Trimmed cs) : trim cs = cs :=
  strip_eq_self h.first h.last

theorem head?_dropWhile {p : Char → Bool} (cs : List Char) :
    ∀ c ∈ (cs.dropWhile p).head?, p c = false := by
  intro c hc
  have h := List.head?_dropWhile_not p cs
  rw [Option.mem_def.1 hc] at h
  exact h

theorem trimmed_trim (cs : List Char) : Trimmed (trim cs) := by
  unfold trim strip
  constructor
  · intro c hc
    -- What is dropped at the end leaves the first character as it is.
    obtain ⟨dropped, hd⟩ := List.dropWhile_suffix (l := (cs.dropWhile isBlank).reverse) isBlank
    have hsplit : cs.dropWhile isBlank =
        ((cs.dropWhile isBlank).reverse.dropWhile isBlank).reverse ++ dropped.reverse := by
      rw [← List.reverse_append, hd, List.reverse_reverse]
    apply head?_dropWhile cs
    rw [hsplit, List.head?_append, Option.mem_def.1 hc]
    rfl
  · intro c hc
    rw [List.getLast?_reverse] at hc
    exact head?_dropWhile _ c hc

theorem trimmed_iff {cs : List Char} : Trimmed cs ↔ trim cs = cs :=
  ⟨Trimmed.trim_eq, fun h => h ▸ trimmed_trim cs⟩

theorem mem_of_mem_strip {p : Char → Bool} {cs : List Char} {c : Char} (h : c ∈ strip p cs) :
    c ∈ cs := by
  have hback := (List.dropWhile_sublist p).subset (List.mem_reverse.1 h)
  exact (List.dropWhile_sublist p).subset (List.mem_reverse.1 hback)

theorem Trimmed.append {a b : List Char} (ha : Trimmed a) (hb : Trimmed b) :
    Trimmed (a ++ b) := by
  constructor
  · intro c hc
    rw [List.head?_append] at hc
    rcases Option.or_eq_some_iff.1 hc with hc | ⟨-, hc⟩
    · exact ha.first c hc
    · exact hb.first c hc
  · intro c hc
    rw [List.getLast?_append] at hc
    rcases Option.or_eq_some_iff.1 hc with hc | ⟨-, hc⟩
    · exact hb.last c hc
    · exact ha.last c hc

/-- What ends one such text and starts another is one itself. -/
theorem Trimmed.of_overlap {front mid back : List Char} (h : Trimmed (front ++ mid))
    (h' : Trimmed (mid ++ back)) : Trimmed mid where
  first c hc := h'.first c (by rw [List.head?_append, Option.mem_def.1 hc]; rfl)
  last c hc := h.last c (by rw [List.getLast?_append, Option.mem_def.1 hc]; rfl)

theorem Trimmed.flatMap {α : Type} {xs : List α} {f : α → List Char}
    (h : ∀ x ∈ xs, Trimmed (f x)) : Trimmed (xs.flatMap f) := by
  induction xs with
  | nil => exact trimmed_nil
  | cons x xs ih =>
      rw [List.flatMap_cons]
      exact (h x List.mem_cons_self).append (ih fun y hy => h y (List.mem_cons_of_mem x hy))

theorem Trimmed.intercalate {sep : List Char} {pieces : List (List Char)} (hsep : Trimmed sep)
    (h : ∀ piece ∈ pieces, Trimmed piece) : Trimmed (List.intercalate sep pieces) := by
  induction pieces with
  | nil => exact trimmed_nil
  | cons piece pieces ih =>
      have hpiece := h piece List.mem_cons_self
      have hrest := ih fun p hp => h p (List.mem_cons_of_mem piece hp)
      cases pieces with
      | nil => simpa using hpiece
      | cons next pieces =>
          rw [List.intercalate_cons_cons]
          exact (hpiece.append hsep).append hrest

end GatewayCache.Text
