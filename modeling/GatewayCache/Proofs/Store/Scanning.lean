/-
  GatewayCache.Proofs.Store.Scanning

  Sweeps over a key-value store that scans by the rules of patterns.

  Such a store is free in how it pages: a page may hold any number of keys, the same
  key may come twice, and cursors are its own business. It owes only what a whole scan
  finds (`Finds`): all keys that match the pattern and were there throughout, and no
  key that does not match; and a scan comes to an end. A sweep removes keys between the
  pages, so the law is about scans with deletions in between (`Scans`). It is enough for
  sweeps: they end, all keys that start with the text are taken away and counted, and no
  other (`purgePrefix_found`).
-/

import GatewayCache.Proofs.KeyValue.Exact
import GatewayCache.Proofs.Store.Sweep
import GatewayCache.Proofs.Text.Glob

namespace GatewayCache

namespace KeyValueStore

/-! ## Whole scans -/

variable {κ : Type} [KeyValueStore κ]

/-- Pages asked for one after the other, each from the cursor that the page before
    named, with any deletions in between: the pages, the cursor named last and the
    store behind the last page. -/
inductive Scans (pattern : String) (count : Nat) : Nat → κ → List ScanPage → Nat → κ → Prop
  | page {cursor kv page kv'}
      (scan : KeyValueStore.scan cursor pattern count kv = (.ok page, kv')) :
      Scans pattern count cursor kv [page] page.next kv'
  | more {cursor kv page scanned pages next kv'}
      (scan : KeyValueStore.scan cursor pattern count kv = (.ok page, scanned))
      (goesOn : page.next ≠ 0) (gone : List String)
      (rest : Scans pattern count page.next (KeyValueStore.delete gone scanned).2 pages next kv') :
      Scans pattern count cursor kv (page :: pages) next kv'

/-- The keys on some pages. -/
def foundOn (pages : List ScanPage) : List String := pages.flatMap (·.keys)

/-- What a store owes whose scans go by the rules of patterns, for one pattern. -/
structure Finds (holdings : κ → Dict Holding) (pattern : String) : Prop where
  scan : ∀ cursor count (kv : κ), ∃ page,
    (KeyValueStore.scan cursor pattern count kv).1 = .ok page
  holdings_scan : ∀ cursor count (kv : κ),
    holdings (KeyValueStore.scan cursor pattern count kv).2 = holdings kv
  /-- However much is removed meanwhile, a scan comes to an end. -/
  ends : ∀ count (kv : κ), 0 < count → ∃ limit, ∀ pages next kv',
    Scans pattern count 0 kv pages next kv' → pages.length ≤ limit
  /-- No page of a whole scan has a key that does not match. -/
  sound : ∀ count pages (kv kv' : κ), 0 < count → Scans pattern count 0 kv pages 0 kv' →
    ∀ k ∈ foundOn pages, Text.Glob.isMatch pattern.toList k.toList = true
  /-- A key that matches is on a page, unless it was removed meanwhile. -/
  complete : ∀ count pages (kv kv' : κ), 0 < count → Scans pattern count 0 kv pages 0 kv' →
    ∀ k, (holdings kv).contains k = true → (holdings kv').contains k = true →
      Text.Glob.isMatch pattern.toList k.toList = true → k ∈ foundOn pages

end KeyValueStore

namespace KeySpace

open KeyValueStore (Answers Finds Scans foundOn)

variable {κ : Type} [KeyValueStore κ] {holdings : κ → Dict Holding} {pattern : String}

/-! ## Pages -/

/-- A store that answers removes all of the keys and counts those that it held. -/
theorem discard_eq (answers : Answers holdings) (keys : List String) (kv : κ) :
    discard keys kv =
      (((holdings kv).filter fun k _ => keys.contains k).size, (KeyValueStore.delete keys kv).2) := by
  have hdelete : KeyValueStore.delete keys kv =
      (.ok ((holdings kv).filter fun k _ => keys.contains k).size,
        (KeyValueStore.delete keys kv).2) :=
    Prod.ext (answers.delete keys kv) rfl
  rw [discard, hdelete]

/-- A page is there, and its keys are taken away and counted. -/
theorem exists_found_page (answers : Answers holdings) (finds : Finds holdings pattern)
    (count cursor : Nat) (kv : κ) :
    ∃ page scanned kv', KeyValueStore.scan cursor pattern count kv = (.ok page, scanned) ∧
      kv' = (KeyValueStore.delete page.keys scanned).2 ∧ holdings scanned = holdings kv ∧
      discard page.keys scanned =
        (((holdings kv).filter fun k _ => page.keys.contains k).size, kv') ∧
      holdings kv' = ((holdings kv).filter fun k _ => !page.keys.contains k) := by
  obtain ⟨page, hpage⟩ := finds.scan cursor count kv
  obtain ⟨scanned, hscan⟩ :
      ∃ scanned, KeyValueStore.scan cursor pattern count kv = (.ok page, scanned) :=
    ⟨_, Prod.ext hpage rfl⟩
  have held : holdings scanned = holdings kv := by
    rw [← finds.holdings_scan cursor count kv, hscan]
  refine ⟨page, scanned, _, hscan, rfl, held, ?_, ?_⟩
  · rw [discard_eq answers, held]
  · rw [answers.holdings_delete, held]

/-! ## Sweeps -/

/-- Where a scan has `limit` pages at most, a sweep goes along a whole one. It takes away
    and counts what is on the pages, and nothing else is gone. -/
theorem sweeps_along (answers : Answers holdings) (finds : Finds holdings pattern) (count : Nat)
    {limit : Nat} (cursor removed : Nat) (kv : κ)
    (ends : ∀ pages next kv', Scans pattern count cursor kv pages next kv' →
      pages.length ≤ limit) :
    ∃ pages kv' result, Scans pattern count cursor kv pages 0 kv' ∧
      Sweeps pattern count cursor removed kv result ∧
      (∀ k, (holdings kv).contains k = true → k ∉ foundOn pages →
        (holdings kv').contains k = true) ∧
      holdings result.2 = ((holdings kv).filter fun k _ => !(foundOn pages).contains k) ∧
      result.1 + (holdings result.2).size = removed + (holdings kv).size := by
  induction limit generalizing cursor removed kv with
  | zero =>
      obtain ⟨page, hpage⟩ := finds.scan cursor count kv
      exact absurd (ends _ _ _ (.page (Prod.ext hpage rfl))) (Nat.not_succ_le_zero 0)
  | succ limit ih =>
      obtain ⟨page, scanned, kv', hscan, hkv', held, hdiscard, hkept⟩ :=
        exists_found_page answers finds count cursor kv
      have hsize := Dict.size_filter_add (holdings kv) fun k _ => page.keys.contains k
      rw [← hkept] at hsize
      by_cases hnext : page.next = 0
      · have hone : foundOn [page] = page.keys := by
          rw [foundOn, List.flatMap_cons, List.flatMap_nil, List.append_nil]
        refine ⟨[page], scanned, _, hnext ▸ .page hscan, .last hscan hdiscard hnext, ?_, ?_, ?_⟩
        · intro k hk _
          rwa [held]
        · rw [hone]
          exact hkept
        · show _ + _ + (holdings kv').size = _
          omega
      · -- The rest of the scan has one page less to go.
        have hends : ∀ pages next last, Scans pattern count page.next kv' pages next last →
            pages.length ≤ limit := fun pages next last h =>
          Nat.le_of_succ_le_succ
            (ends (page :: pages) next last (.more hscan hnext page.keys (hkv' ▸ h)))
        obtain ⟨pages, last, result, hscans, hsweeps, hkeep, hrest, hcounted⟩ :=
          ih page.next (removed + ((holdings kv).filter fun k _ => page.keys.contains k).size) kv'
            hends
        have hfound : foundOn (page :: pages) = page.keys ++ foundOn pages := rfl
        refine ⟨page :: pages, last, result, .more hscan hnext page.keys (hkv' ▸ hscans),
          .more hscan hdiscard hnext hsweeps, ?_, ?_, ?_⟩
        · intro k hk hnot
          rw [hfound, List.mem_append, not_or] at hnot
          apply hkeep k _ hnot.2
          rw [hkept, Dict.contains_filter, hk, Bool.and_true]
          simpa using hnot.1
        · rw [hrest, hkept, Dict.filter_filter]
          apply Dict.filter_congr
          intro k h _
          rw [hfound, List.contains_append, Bool.not_or]
        · omega

/-- The pattern that a store asks for matches the keys that start with the full key. -/
theorem isMatch_pattern (space : KeySpace) (start full : String) :
    Text.Glob.isMatch (space.pattern start).toList full.toList =
      (space.key start).toList.isPrefixOf full.toList := by
  rw [pattern, String.toList_ofList, Text.Glob.isMatch_startingWith]

/-- What became of all keys that start with a text: the sweep for them came to an end
    with the result, they and no other are gone, and it counted them. -/
structure Purged (holdings : κ → Dict Holding) (space : KeySpace) (start : String) (kv : κ)
    (result : Nat × κ) : Prop where
  sweeps : Sweeps (space.pattern start) space.scanCount 0 0 kv result
  kept : holdings result.2 =
    ((holdings kv).filter fun k _ => !(space.key start).toList.isPrefixOf k.toList)
  counted : result.1 + (holdings result.2).size = (holdings kv).size

/-- Removing all keys that start with a text takes away these keys and no other, and
    counts them, if scans find what the pattern for them matches. -/
theorem purgePrefix_found (answers : Answers holdings) {space : KeySpace}
    (hcount : 0 < space.scanCount) (start : String)
    (finds : Finds holdings (space.pattern start)) (kv : κ) :
    Purged holdings space start kv (space.purgePrefix start kv) := by
  obtain ⟨limit, hends⟩ := finds.ends space.scanCount kv hcount
  obtain ⟨pages, last, result, scans, sweeps, hkeep, hrest, hcounted⟩ :=
    sweeps_along answers finds space.scanCount 0 0 kv hends
  have hfound : ∀ k, (holdings kv).contains k = true →
      (foundOn pages).contains k = (space.key start).toList.isPrefixOf k.toList := by
    intro k hk
    rw [Bool.eq_iff_iff, List.contains_iff_mem, ← isMatch_pattern]
    constructor
    · exact finds.sound _ _ _ _ hcount scans k
    · intro hmatch
      by_contra hnot
      exact hnot (finds.complete _ _ _ _ hcount scans k hk (hkeep k hk hnot) hmatch)
  rw [purgePrefix, sweeps.sweep_eq]
  refine ⟨sweeps, ?_, hcounted.trans (Nat.zero_add _)⟩
  rw [hrest]
  apply Dict.filter_congr
  intro k h hk
  rw [hfound k (Option.isSome_iff_exists.2 ⟨h, hk⟩)]

/-- The count is how many keys started with the text. -/
theorem Purged.removed_eq {space : KeySpace} {start : String} {kv : κ} {result : Nat × κ}
    (h : Purged holdings space start kv result) :
    result.1 =
      ((holdings kv).filter fun k _ => (space.key start).toList.isPrefixOf k.toList).size := by
  -- What went is what was there without what is left.
  have hsplit := Dict.size_filter_add (holdings kv) fun k _ =>
    (space.key start).toList.isPrefixOf k.toList
  have hcounted := h.counted
  rw [h.kept] at hcounted
  exact Nat.add_right_cancel (hcounted.trans hsplit.symm)

end KeySpace

end GatewayCache
