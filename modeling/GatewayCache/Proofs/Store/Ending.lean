/-
  GatewayCache.Proofs.Store.Ending

  Sweeps over an exact key-value store.

  An exact store cuts its pages from a listing that deletions leave as it is, and each
  page but the last moves the cursor on (`listed_behind`). So a scan has no more pages
  than there are keys, and finds what the pattern matches (`View.Exact.finds`). Removing
  all keys that start with a text therefore ends; it takes away these keys and no other,
  and counts them (`purges_exactly_the_prefix`).
-/

import GatewayCache.Proofs.Store.Scanning

namespace GatewayCache

open KeyValueStore (View pageOf Finds Scans foundOn)

variable {κ : Type} [KeyValueStore κ] {v : View κ}

namespace KeySpace

/-! ## Scans -/

variable {pattern : String}

/-- The page of an exact store is cut from its listing, which stays. -/
theorem page_of_scan (exact : v.Exact) {cursor count : Nat} {kv scanned : κ} {page : ScanPage}
    (scan : KeyValueStore.scan cursor pattern count kv = (.ok page, scanned)) :
    page = KeyValueStore.pageOf (v.holdings kv) (v.listed cursor kv) cursor pattern count ∧
      v.holdings scanned = v.holdings kv ∧ v.listing scanned = v.listed cursor kv := by
  have hpage := exact.scan cursor pattern count kv
  have held := exact.holdings_scan cursor pattern count kv
  have listed := exact.listing_scan cursor pattern count kv
  rw [scan] at hpage held listed
  exact ⟨Except.ok.inj hpage, held, listed⟩

/-- A page that names a cursor is followed by the next stretch of the same listing,
    whatever is removed meanwhile. -/
theorem listed_behind (exact : v.Exact) {cursor count : Nat} {kv scanned : κ} {page : ScanPage}
    (scan : KeyValueStore.scan cursor pattern count kv = (.ok page, scanned))
    (goesOn : page.next ≠ 0) (gone : List String) :
    page.next = cursor + count ∧ cursor + count < (v.listed cursor kv).length ∧
      v.listed page.next (KeyValueStore.delete gone scanned).2 = v.listed cursor kv := by
  obtain ⟨hpage, -, listed⟩ := page_of_scan exact scan
  have hnext : page.next =
      if (v.listed cursor kv).length ≤ cursor + count then 0 else cursor + count := by
    rw [hpage, KeyValueStore.pageOf]
  have hmore : cursor + count < (v.listed cursor kv).length :=
    Nat.lt_of_not_le fun hle => goesOn (hnext.trans (if_pos hle))
  rw [if_neg (Nat.not_le_of_lt hmore)] at hnext
  refine ⟨hnext, hmore, ?_⟩
  rw [KeyValueStore.View.listed, if_neg goesOn, exact.listing_delete, listed]

/-- A scan of an exact store has no more pages than keys are listed behind its
    cursor, but for the last one. -/
theorem length_le_listed (exact : v.Exact) {count : Nat} (hcount : 0 < count) {cursor next : Nat}
    {kv kv' : κ} {pages : List ScanPage} (h : Scans pattern count cursor kv pages next kv') :
    pages.length ≤ (v.listed cursor kv).length - cursor + 1 := by
  induction h with
  | page scan => exact Nat.le_add_left 1 _
  | more scan goesOn gone _ ih =>
      obtain ⟨hnext, hmore, hlisted⟩ := listed_behind exact scan goesOn gone
      rw [hlisted, hnext] at ih
      rw [List.length_cons]
      omega

/-- Deletions during a scan only remove. -/
theorem held_of_scans (exact : v.Exact) {count cursor next : Nat} {kv kv' : κ}
    {pages : List ScanPage} (h : Scans pattern count cursor kv pages next kv') {k : String}
    (held : (v.holdings kv').contains k = true) : (v.holdings kv).contains k = true := by
  induction h with
  | page scan => rwa [(page_of_scan exact scan).2.1] at held
  | more scan goesOn gone _ ih =>
      have hdeleted := ih held
      rw [exact.holdings_delete, Dict.contains_filter, Bool.and_eq_true,
        (page_of_scan exact scan).2.1] at hdeleted
      exact hdeleted.2

/-- What stands on the pages starts with the literal text of the pattern. -/
theorem prefixed_of_found (exact : v.Exact) {count cursor next : Nat} {kv kv' : κ}
    {pages : List ScanPage} (h : Scans pattern count cursor kv pages next kv') {k : String}
    (found : k ∈ foundOn pages) :
    (Text.Glob.literalStart pattern.toList).isPrefixOf k.toList = true := by
  have hpaged : ∀ {cursor : Nat} {kv scanned : κ} {page : ScanPage},
      KeyValueStore.scan cursor pattern count kv = (.ok page, scanned) → k ∈ page.keys →
      (Text.Glob.literalStart pattern.toList).isPrefixOf k.toList = true := by
    intro cursor kv scanned page scan hk
    rw [(page_of_scan exact scan).1, KeyValueStore.pageOf, List.mem_filter, Bool.and_eq_true] at hk
    exact hk.2.2
  induction h with
  | page scan => exact hpaged scan (by simpa [foundOn] using found)
  | more scan goesOn gone _ ih =>
      rcases List.mem_append.1 found with hk | hk
      · exact hpaged scan hk
      · exact ih hk

/-- Whether a key is listed behind a cursor and starts with the literal text of the
    pattern. -/
def isSwept (pattern : String) (listing : List String) (cursor : Nat) (key : String) : Bool :=
  (listing.drop cursor).contains key &&
    (Text.Glob.literalStart pattern.toList).isPrefixOf key.toList

/-- What is swept behind a cursor is on the page or swept behind the page. -/
theorem isSwept_eq_or {held : Dict Holding} {key : String} (h : held.contains key = true)
    (pattern : String) (listing : List String) (cursor count : Nat) :
    isSwept pattern listing cursor key =
      ((pageOf held listing cursor pattern count).keys.contains key ||
        isSwept pattern listing (cursor + count) key) := by
  have hsplit : listing.drop cursor =
      (listing.take (cursor + count)).drop cursor ++ listing.drop (cursor + count) := by
    rw [List.drop_take, Nat.add_sub_cancel_left, ← List.drop_drop, List.take_append_drop]
  rw [isSwept, isSwept, hsplit, Bool.eq_iff_iff]
  simp only [pageOf, Bool.and_eq_true, Bool.or_eq_true, List.contains_iff_mem, List.mem_append,
    List.mem_filter, h, true_and, or_and_right]

theorem isSwept_of_length_le {pattern : String} {listing : List String} {cursor : Nat}
    (h : listing.length ≤ cursor) (key : String) : isSwept pattern listing cursor key = false := by
  rw [isSwept, List.drop_eq_nil_of_le h]
  rfl

/-- A whole scan finds what is swept, as far as it stays. -/
theorem found_of_isSwept (exact : v.Exact) {count : Nat} (hcount : 0 < count) {cursor next : Nat}
    {kv kv' : κ} {pages : List ScanPage} (h : Scans pattern count cursor kv pages next kv')
    (hnext : next = 0) {k : String} (held : (v.holdings kv').contains k = true)
    (swept : isSwept pattern (v.listed cursor kv) cursor k = true) : k ∈ foundOn pages := by
  have hsplit : ∀ {cursor : Nat} {kv scanned : κ} {page : ScanPage},
      KeyValueStore.scan cursor pattern count kv = (.ok page, scanned) →
      (v.holdings kv).contains k = true →
      isSwept pattern (v.listed cursor kv) cursor k = true →
      k ∈ page.keys ∨ isSwept pattern (v.listed cursor kv) (cursor + count) k = true := by
    intro cursor kv scanned page scan hk hswept
    rwa [isSwept_eq_or hk _ _ _ count, Bool.or_eq_true, List.contains_iff_mem,
      ← (page_of_scan exact scan).1] at hswept
  induction h with
  | @page cursor kv page kv' scan =>
      rcases hsplit scan (held_of_scans exact (.page scan) held) swept with hk | hbehind
      · simpa [foundOn] using hk
      · -- Behind the last page nothing is listed.
        have hall : (v.listed cursor kv).length ≤ cursor + count := by
          by_contra hmore
          have hgoesOn : page.next = cursor + count := by
            rw [(page_of_scan exact scan).1, KeyValueStore.pageOf, if_neg hmore]
          omega
        rw [isSwept_of_length_le hall] at hbehind
        cases hbehind
  | @more cursor kv page scanned pages next kv' scan goesOn gone rest ih =>
      obtain ⟨hcursor, -, hlisted⟩ := listed_behind exact scan goesOn gone
      rw [hlisted, hcursor] at ih
      have hk := held_of_scans exact (.more scan goesOn gone rest) held
      rcases hsplit scan hk swept with hk | hbehind
      · exact List.mem_append_left _ hk
      · exact List.mem_append_right _ (ih hnext held hbehind)

end KeySpace

/-- Exact key-value stores find what the pattern for everything that starts with a
    text matches. -/
theorem KeyValueStore.View.Exact.finds {κ : Type} [KeyValueStore κ] {v : View κ} (exact : v.Exact)
    (start : String) :
    Finds v.holdings (String.ofList (Text.Glob.startingWith start.toList)) where
  scan cursor count kv := ⟨_, exact.scan cursor _ count kv⟩
  holdings_scan cursor count kv := exact.holdings_scan cursor _ count kv
  ends count kv hcount :=
    ⟨(v.listed 0 kv).length - 0 + 1, fun _ _ _ h => KeySpace.length_le_listed exact hcount h⟩
  sound count pages kv kv' _ h k found := by
    rw [String.toList_ofList, Text.Glob.isMatch_startingWith,
      ← Text.Glob.literalStart_startingWith start.toList]
    have hprefixed := KeySpace.prefixed_of_found exact h found
    rwa [String.toList_ofList] at hprefixed
  complete count pages kv kv' hcount h k held kept hmatch := by
    have hlisted : k ∈ v.snapshot kv :=
      (exact.snapshot_perm kv).mem_iff.2 (Dict.mem_keys_iff.2 held)
    have hswept : KeySpace.isSwept (String.ofList (Text.Glob.startingWith start.toList))
        (v.listed 0 kv) 0 k = true := by
      rw [String.toList_ofList, Text.Glob.isMatch_startingWith] at hmatch
      rw [KeySpace.isSwept, List.drop_zero, View.listed, if_pos rfl,
        List.contains_iff_mem.2 hlisted, String.toList_ofList,
        Text.Glob.literalStart_startingWith, hmatch]
      rfl
    exact KeySpace.found_of_isSwept exact hcount h rfl kept hswept

/-- Exact key-value stores have all keys that start with a text removed. -/
theorem KeySpace.purgePrefix_exact (exact : v.Exact) {space : KeySpace}
    (hcount : 0 < space.scanCount) (start : String) (kv : κ) :
    Purged v.holdings space start kv (space.purgePrefix start kv) :=
  purgePrefix_found exact.answers hcount start (exact.finds (space.key start)) kv

namespace NetworkedStore

/-- On an exact key-value store, for any start of the keys, any number of keys to a
    scan and any text, the sweep for the keys that start with both ends, and only in
    this way: exactly these keys are gone, what stands under all others is as it was,
    and the count is how many they were. -/
theorem purges_exactly_the_prefix (exact : v.Exact) (start : String) (n : Nat) (text : String)
    (kv : κ) :
    ∃ removed kv',
      ResponseStore.purgePrefix text (⟨KeySpace.scanning { start } n, kv⟩ : NetworkedStore κ) =
        (removed, ⟨KeySpace.scanning { start } n, kv'⟩) ∧
      (∀ result, KeySpace.Sweeps (String.ofList (Text.Glob.startingWith (start ++ text).toList))
        (max n 1) 0 0 kv result ↔ result = (removed, kv')) ∧
      (∀ k, (v.holdings kv').get? k =
        if (start ++ text).toList.isPrefixOf k.toList then none else (v.holdings kv).get? k) ∧
      removed =
        ((v.holdings kv).filter fun k _ => (start ++ text).toList.isPrefixOf k.toList).size := by
  let space := KeySpace.scanning { start } n
  have hcount : 0 < space.scanCount := Nat.le_max_right n 1
  have purged := KeySpace.purgePrefix_exact exact hcount text kv
  refine ⟨(space.purgePrefix text kv).1, (space.purgePrefix text kv).2, rfl,
    fun result => ⟨fun h => h.unique purged.sweeps, fun h => h ▸ purged.sweeps⟩, fun k => ?_,
    purged.removed_eq⟩
  rw [purged.kept, Dict.get?_filter_key]
  show (if (!(start ++ text).toList.isPrefixOf k.toList) = true then _ else _) = _
  cases (start ++ text).toList.isPrefixOf k.toList <;> rfl

/-- Keys with a star in their start, beside keys that a star in a pattern would cover
    as well. -/
def starred : Table :=
  ⟨Dict.ofList [("t*a/1", ⟨[1], 5⟩), ("t*a/2", ⟨[2], 6⟩), ("t*b", ⟨[3], 7⟩), ("ta/3", ⟨[4], 8⟩),
    ("tea/4", ⟨[5], 9⟩)], ["t*a/1"]⟩

/-- Scanned two at a time, the keys under the star and the text go. -/
theorem purges_exactly_the_prefix_starred :
    Table.view.Exact ∧ ∃ kv',
      ResponseStore.purgePrefix "a/" (⟨KeySpace.scanning { start := "t*" } 2, starred⟩ :
        NetworkedStore Table) = (2, ⟨KeySpace.scanning { start := "t*" } 2, kv'⟩) ∧
      kv'.holdings.get? "t*a/2" = none ∧ kv'.holdings.get? "t*b" = some ⟨[3], 7⟩ ∧
      kv'.holdings.get? "tea/4" = some ⟨[5], 9⟩ := by
  obtain ⟨removed, kv', hpurge, -, hkept, hremoved⟩ :=
    purges_exactly_the_prefix Table.exact "t*" 2 "a/" starred
  have htwo : removed = 2 := by
    rw [hremoved]
    decide
  have hkept' : ∀ k, kv'.holdings.get? k =
      if "t*a/".toList.isPrefixOf k.toList then none else starred.holdings.get? k := hkept
  refine ⟨Table.exact, kv', htwo ▸ hpurge, ?_, ?_, ?_⟩
  · rw [hkept']
    decide
  · rw [hkept']
    decide
  · rw [hkept']
    decide

end NetworkedStore

end GatewayCache
