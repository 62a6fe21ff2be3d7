/-
  GatewayCache.Proofs.Key.RequestLine

  What the request line says, and what keys tell of it.

  A written query has no bar, so the last bar of a request line stands in front of
  the query. In front of it a slash starts the path, since no method has one; and
  without a slash the path is empty or the asterisk. So the line determines the
  method, the path and the sorted pairs (`requestLine_eq_iff`). Requests with the
  same fields then have the same key exactly when these agree, up to a collision,
  and whatever else their targets were spelled with (`same_key_iff_same_line`).
-/

import GatewayCache.Proofs.Http.Target
import GatewayCache.Proofs.Key.Parts
import GatewayCache.Proofs.Text.Form
import Mathlib.Data.List.Basic

namespace GatewayCache

open GatewayCache.Http GatewayCache.Text

namespace CacheKey

/-! ## Sorted pairs -/

theorem pairLe_iff {a b : String × String} :
    pairLe a b = true ↔ a.1 < b.1 ∨ (a.1 = b.1 ∧ a.2 ≤ b.2) := by
  simp [pairLe]

theorem pairLe_trans (a b c : String × String) (hab : pairLe a b = true)
    (hbc : pairLe b c = true) : pairLe a c = true := by
  rw [pairLe_iff] at hab hbc ⊢
  rcases hab with hab | ⟨hab, hab'⟩
  · rcases hbc with hbc | ⟨hbc, -⟩
    · exact .inl (String.lt_trans hab hbc)
    · exact .inl (hbc ▸ hab)
  · rcases hbc with hbc | ⟨hbc, hbc'⟩
    · exact .inl (hab ▸ hbc)
    · exact .inr ⟨hab.trans hbc, String.le_trans hab' hbc'⟩

theorem pairLe_total (a b : String × String) : (pairLe a b || pairLe b a) = true := by
  rw [Bool.or_eq_true, pairLe_iff, pairLe_iff]
  rcases Std.lt_trichotomy a.1 b.1 with hlt | heq | hgt
  · exact .inl (.inl hlt)
  · rcases String.le_total a.2 b.2 with hle | hge
    · exact .inl (.inr ⟨heq, hle⟩)
    · exact .inr (.inr ⟨heq.symm, hge⟩)
  · exact .inr (.inl hgt)

theorem pairLe_antisymm {a b : String × String} (hab : pairLe a b = true)
    (hba : pairLe b a = true) : a = b := by
  rw [pairLe_iff] at hab hba
  rcases hab with hab | ⟨heq, hle⟩
  · rcases hba with hba | ⟨heq, -⟩
    · exact absurd (String.lt_trans hab hba) (String.lt_irrefl _)
    · exact absurd (heq ▸ hab) (String.lt_irrefl _)
  · rcases hba with hba | ⟨-, hge⟩
    · exact absurd (heq ▸ hba) (String.lt_irrefl _)
    · exact Prod.ext heq (String.le_antisymm hle hge)

/-- Sorting forgets the order of pairs and nothing else. -/
theorem mergeSort_eq_iff_perm {ps qs : List (String × String)} :
    ps.mergeSort pairLe = qs.mergeSort pairLe ↔ ps.Perm qs := by
  constructor
  · intro h
    exact (List.mergeSort_perm ps pairLe).symm.trans (h ▸ List.mergeSort_perm qs pairLe)
  · intro h
    have hperm : (ps.mergeSort pairLe).Perm (qs.mergeSort pairLe) :=
      (List.mergeSort_perm ps pairLe).trans (h.trans (List.mergeSort_perm qs pairLe).symm)
    exact hperm.eq_of_pairwise (fun a b _ _ hab hba => pairLe_antisymm hab hba)
      (List.pairwise_mergeSort pairLe_trans pairLe_total ps)
      (List.pairwise_mergeSort pairLe_trans pairLe_total qs)

theorem sortedQuery_eq_iff {t t' : Target} :
    sortedQuery t = sortedQuery t' ↔ (queryPairs t).Perm (queryPairs t') := by
  rw [← mergeSort_eq_iff_perm]
  constructor
  · intro h
    exact Form.write_injective (String.ofList_injective h)
  · intro h
    rw [sortedQuery, sortedQuery, h]

/-! ## Taking the line apart -/

/-- The last bar of a text separates what has no bar from what stands before. -/
theorem append_bar_inj {a a' b b' : List Char} (hb : '|' ∉ b) (hb' : '|' ∉ b')
    (h : a ++ '|' :: b = a' ++ '|' :: b') : a = a' ∧ b = b' := by
  have hreverse : b.reverse ++ '|' :: a.reverse = b'.reverse ++ '|' :: a'.reverse := by
    simpa using congrArg List.reverse h
  have hcut := congrArg (cut '|') hreverse
  rw [cut_append_cons (by simpa using hb), cut_append_cons (by simpa using hb')] at hcut
  obtain ⟨hback, hfront⟩ := Prod.mk.inj hcut
  exact ⟨List.reverse_inj.1 (Option.some.inj hfront), List.reverse_inj.1 hback⟩

theorem slash_not_mem_method (m : Method) : '/' ∉ m.text.toList := by
  intro h
  have hm := m.token
  simp only [isMethodText, Bool.and_eq_true, List.all_eq_true] at hm
  exact absurd (hm.2 '/' h) (by decide)

/-- A path starts with a slash, or has neither slash nor bar. -/
theorem path_cases (t : Target) : (∃ rest, t.path.toList = '/' :: rest) ∨
    ('/' ∉ t.path.toList ∧ '|' ∉ t.path.toList) := by
  have hform := t.path_form
  simp only [isPathForm, Bool.or_eq_true, beq_iff_eq] at hform
  rcases hform with (hempty | hstar) | hslash
  · rw [hempty]
    exact .inr (by decide)
  · rw [hstar]
    exact .inr (by decide)
  · obtain ⟨rest, hrest⟩ := List.head?_eq_some_iff.1 hslash
    exact .inl ⟨rest, hrest⟩

/-- Method and path are told apart, although both may have bars. -/
theorem method_path_inj {m m' : Method} {t t' : Target}
    (h : m.text.toList ++ '|' :: t.path.toList = m'.text.toList ++ '|' :: t'.path.toList) :
    m.text.toList = m'.text.toList ∧ t.path.toList = t'.path.toList := by
  -- The first slash of the text, if there is one, starts the path.
  have hfront : ∀ m : Method, '/' ∉ m.text.toList ++ ['|'] := by
    intro m hmem
    rcases List.mem_append.1 hmem with hmem | hmem
    · exact slash_not_mem_method m hmem
    · exact absurd (List.mem_singleton.1 hmem) (by decide)
  have hcut : ∀ (m : Method) (path : List Char),
      m.text.toList ++ '|' :: path = (m.text.toList ++ ['|']) ++ path := by simp
  have hnone : ∀ (m : Method) {path : List Char}, '/' ∉ path →
      '/' ∉ m.text.toList ++ '|' :: path := by
    intro m path hpath hmem
    rw [hcut] at hmem
    exact (List.mem_append.1 hmem).elim (hfront m) hpath
  rcases path_cases t with ⟨rest, hrest⟩ | ⟨hslash, hbar⟩
  · rcases path_cases t' with ⟨rest', hrest'⟩ | ⟨hslash', hbar'⟩
    · rw [hrest, hrest', hcut m ('/' :: rest), hcut m' ('/' :: rest')] at h
      have heq := congrArg (cut '/') h
      rw [cut_append_cons (hfront m), cut_append_cons (hfront m')] at heq
      obtain ⟨hmethod, hpath⟩ := Prod.mk.inj heq
      rw [hrest, hrest', Option.some.inj hpath]
      exact ⟨List.append_cancel_right hmethod, rfl⟩
    · refine absurd ?_ (hnone m' hslash')
      rw [← h, hrest]
      simp
  · rcases path_cases t' with ⟨rest', hrest'⟩ | ⟨hslash', hbar'⟩
    · refine absurd ?_ (hnone m hslash)
      rw [h, hrest']
      simp
    · -- Neither path has a bar, so the last one stands behind the method.
      exact append_bar_inj hbar hbar' h

theorem toList_requestLine (r : Request) :
    (requestLine r).toList = (r.method.text.toList ++ '|' :: r.target.path.toList) ++
      '|' :: Form.write ((queryPairs r.target).mergeSort pairLe) := by
  have hbar : "|".toList = ['|'] := by decide
  simp only [requestLine, sortedQuery, String.toList_append, String.toList_ofList, hbar,
    List.append_assoc, List.cons_append, List.nil_append]

theorem method_eq_of_text_eq {m m' : Method} (h : m.text = m'.text) : m = m' := by
  cases m
  cases m'
  simp_all

/-- The requests have the same method, the same path, and the same pairs of names
    and values in their queries, in any order. -/
structure SameLine (r r' : Request) : Prop where
  method : r.method = r'.method
  path : r.target.path = r'.target.path
  pairs : (queryPairs r.target).Perm (queryPairs r'.target)

theorem requestLine_eq_iff {r r' : Request} : requestLine r = requestLine r' ↔ SameLine r r' := by
  constructor
  · intro h
    have hline := congrArg String.toList h
    rw [toList_requestLine, toList_requestLine] at hline
    obtain ⟨hfront, hquery⟩ :=
      append_bar_inj (Form.bar_not_mem_write _) (Form.bar_not_mem_write _) hline
    obtain ⟨hmethod, hpath⟩ := method_path_inj hfront
    constructor
    · exact method_eq_of_text_eq (String.toList_inj.1 hmethod)
    · exact String.toList_inj.1 hpath
    · exact mergeSort_eq_iff_perm.1 (Form.write_injective hquery)
  · intro h
    rw [requestLine, requestLine, h.method, h.path, sortedQuery_eq_iff.2 h.pairs]

/-! ## Keys of requests with the same fields -/

/-- Requests with the same fields have the same key if their methods, their paths
    and their pairs up to order are the same; and only then, unless two texts that
    are digested for the keys collide. Scheme, authority and fragment of an address
    are no part of the target that it asks for. -/
theorem same_key_iff_same_line (r r' : Request)
    (hfields : ∀ n, r.fields.values n = r'.fields.values n) :
    (SameLine r r' → derive r = derive r') ∧
    (derive r = derive r' → SameLine r r' ∨ Collision r r') ∧
    (∀ scheme authority rest : List UInt8,
      (∀ b ∈ scheme, Target.isSchemeByte b = true) →
      (∀ b ∈ authority, Target.endsAuthority b = false) →
      (∀ b ∈ rest.head?, Target.endsAuthority b = true) →
      Target.ofBytes? (Target.absolute scheme authority rest) = some r.target →
      Target.ofPathAndQuery? rest = some r.target) ∧
    ∀ rest fragment : List UInt8, 0x23 ∉ rest →
      (Target.ofPathAndQuery? (rest ++ 0x23 :: fragment) = some r.target ↔
        Target.ofPathAndQuery? rest = some r.target) := by
  refine ⟨?_, ?_, ?_, ?_⟩
  · intro hline
    apply derive_congr (requestLine_eq_iff.2 hline)
    · exact negotiation_congr fun n _ => hfields n
    · exact suffix_congr hline.method (hfields _) (hfields _)
  · intro hkey
    rcases parts_of_derive_eq hkey with ⟨hline, -, -⟩ | collision
    · exact .inl (requestLine_eq_iff.1 hline)
    · exact .inr collision
  · intro scheme authority rest hscheme hauthority hrest h
    exact Target.ofPathAndQuery?_of_absolute hscheme hauthority hrest h
  · intro rest fragment hrest
    rw [Target.ofPathAndQuery?_append_fragment hrest fragment]

/-- A request with a query for a path that holds a bar. -/
def querying (query : String) : Request :=
  ⟨.get, ⟨"/|", some query, by decide⟩, ⟨[(.accept, ⟨[0x61], by decide⟩)]⟩⟩

/-- Neither the order of pairs nor how they are escaped changes the key. -/
theorem same_key_iff_same_line_reordered :
    (∀ n, (querying "b=%7C&a=1&b=2").fields.values n = (querying "b=2&b=|&%61=1").fields.values n) ∧
      derive (querying "b=%7C&a=1&b=2") = derive (querying "b=2&b=|&%61=1") := by
  have hfields : ∀ n, (querying "b=%7C&a=1&b=2").fields.values n =
      (querying "b=2&b=|&%61=1").fields.values n := fun n => rfl
  have hperm : (queryPairs (querying "b=%7C&a=1&b=2").target).Perm
      (queryPairs (querying "b=2&b=|&%61=1").target) := by
    decide +kernel
  exact ⟨hfields, (same_key_iff_same_line _ _ hfields).1 ⟨rfl, rfl, hperm⟩⟩

end CacheKey

end GatewayCache
