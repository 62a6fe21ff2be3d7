/-
  GatewayCache.Proofs.Store.Faltering

  Sweeps over a key-value store whose calls may fail.

  Of such a store only this is known: scans leave the holdings as they are, and a
  deletion fails and leaves them too, or takes its keys away and counts those that were
  held (`Falters`). A page may hold any keys, as often as it likes, and name any cursor.

  What a sweep asks for and is answered, round by round, is its course. The course ends
  with the first page behind which there is none, or with the first scan that fails
  (`Course`). A sweep goes along its course and ends where it ends (`sweeps_of_course`),
  it asks for just what the rounds say (`Course.noted`), and its count is what the
  holdings lost (`Course.account`).
-/

import GatewayCache.Proofs.KeyValue.Noted
import GatewayCache.Proofs.Dict.Parts
import GatewayCache.Proofs.Store.Sweep
import Mathlib.Algebra.GroupWithZero.Nat

namespace GatewayCache

/-! ## Stores -/

/-- What a key-value store owes whose calls may fail. -/
structure KeyValueStore.Falters {κ : Type} [KeyValueStore κ] (holdings : κ → Dict Holding) :
    Prop where
  holdings_scan : ∀ cursor pattern count (kv : κ),
    holdings (KeyValueStore.scan cursor pattern count kv).2 = holdings kv
  /-- A deletion counts the keys that were there, and takes them away. -/
  deleted : ∀ keys n (kv kv' : κ), KeyValueStore.delete keys kv = (.ok n, kv') →
    n = ((holdings kv).filter fun k _ => keys.contains k).size ∧
      holdings kv' = (holdings kv).filter fun k _ => !keys.contains k
  not_deleted : ∀ keys fault (kv kv' : κ), KeyValueStore.delete keys kv = (.error fault, kv') →
    holdings kv' = holdings kv

/-! ## Rounds -/

/-- One round of a sweep: a scan from a cursor that fails, or one that gives a page, and
    what the deletion of the page's keys is answered. -/
inductive Round where
  | refused (cursor : Nat) (fault : Fault)
  | paged (cursor : Nat) (page : ScanPage) (deletion : Except Fault Nat)

namespace Round

/-- The cursor that the scan starts from. -/
def cursor : Round → Nat
  | .refused cursor _ => cursor
  | .paged cursor _ _ => cursor

/-- The cursor that the page names. -/
def next? : Round → Option Nat
  | .refused _ _ => none
  | .paged _ page _ => some page.next

/-- The keys that were deleted. -/
def deleted : Round → List String
  | .refused _ _ => []
  | .paged _ page (.ok _) => page.keys
  | .paged _ _ (.error _) => []

/-- How many keys the deletion counted. -/
def counted : Round → Nat
  | .refused _ _ => 0
  | .paged _ _ (.ok n) => n
  | .paged _ _ (.error _) => 0

/-- The calls of a round. -/
def calls (pattern : String) (count : Nat) : Round → List KeyValueCall
  | .refused cursor _ => [.scan cursor pattern count]
  | .paged cursor page _ => [.scan cursor pattern count, .delete page.keys]

/-- The rounds are asked for in turn: the first from a cursor, each other one from the
    cursor that the page before names. Only the last one ends the sweep, by a scan that
    fails or by a page that names cursor zero. -/
structure InTurn (start : Nat) (rounds : List Round) : Prop where
  asked : rounds.map cursor = start :: rounds.dropLast.filterMap next?
  goesOn : ∀ r ∈ rounds.dropLast, ∃ next, r.next? = some next ∧ next ≠ 0
  ends : ∃ last, rounds.getLast? = some last ∧ ∀ next, last.next? = some next → next = 0

theorem inTurn_singleton (r : Round) (h : ∀ next, r.next? = some next → next = 0) :
    InTurn r.cursor [r] :=
  ⟨rfl, nofun, r, rfl, h⟩

theorem InTurn.cons (r : Round) {next : Nat} {rounds : List Round} (h : InTurn next rounds)
    (named : r.next? = some next) (goesOn : next ≠ 0) : InTurn r.cursor (r :: rounds) := by
  obtain ⟨last, hlast, hends⟩ := h.ends
  have hne : rounds ≠ [] := by
    rintro rfl
    cases hlast
  -- A round in front joins those that go on; the last one stays the last.
  have hdrop : (r :: rounds).dropLast = r :: rounds.dropLast := List.dropLast_cons_of_ne_nil hne
  constructor
  · rw [hdrop, List.map_cons, h.asked, List.filterMap_cons_some named]
  · intro r' hr'
    rw [hdrop] at hr'
    rcases List.mem_cons.1 hr' with rfl | hr'
    · exact ⟨next, named, goesOn⟩
    · exact h.goesOn r' hr'
  · exact ⟨last, by rw [List.getLast?_cons, hlast]; rfl, hends⟩

end Round

namespace KeySpace

open KeyValueStore (Falters)

variable {κ : Type} [KeyValueStore κ] {pattern : String} {count cursor : Nat} {kv kv' : κ}
  {rounds : List Round}

/-! ## Courses -/

/-- The course of a sweep from a cursor on, up to the first page that names cursor zero
    or the first scan that fails: its rounds, and the store behind the last one. -/
inductive Course (pattern : String) (count : Nat) : (cursor : Nat) → κ → List Round → κ → Prop
  | refused {cursor kv fault kv'}
      (scan : KeyValueStore.scan cursor pattern count kv = (.error fault, kv')) :
      Course pattern count cursor kv [.refused cursor fault] kv'
  | last {cursor kv page scanned deletion kv'}
      (scan : KeyValueStore.scan cursor pattern count kv = (.ok page, scanned))
      (delete : KeyValueStore.delete page.keys scanned = (deletion, kv')) (ends : page.next = 0) :
      Course pattern count cursor kv [.paged cursor page deletion] kv'
  | more {cursor kv page scanned deletion kv' rounds kv''}
      (scan : KeyValueStore.scan cursor pattern count kv = (.ok page, scanned))
      (delete : KeyValueStore.delete page.keys scanned = (deletion, kv')) (goesOn : page.next ≠ 0)
      (rest : Course pattern count page.next kv' rounds kv'') :
      Course pattern count cursor kv (.paged cursor page deletion :: rounds) kv''

theorem Course.inTurn (h : Course pattern count cursor kv rounds kv') :
    Round.InTurn cursor rounds := by
  induction h with
  | @refused cursor kv fault kv' scan => exact Round.inTurn_singleton (.refused cursor fault) nofun
  | @last cursor kv page scanned deletion kv' scan delete ends =>
      exact Round.inTurn_singleton (.paged cursor page deletion) fun _ hnext =>
        Option.some.inj hnext ▸ ends
  | @more cursor kv page scanned deletion kv' rounds kv'' scan delete goesOn _ ih =>
      exact ih.cons (.paged cursor page deletion) rfl goesOn

/-- Where the calls are noted, these are the calls of the rounds. -/
theorem Course.noted (h : Course pattern count cursor kv rounds kv') (calls : List KeyValueCall) :
    Course pattern count cursor (⟨kv, calls⟩ : Noted κ) rounds
      ⟨kv', calls ++ rounds.flatMap (Round.calls pattern count)⟩ := by
  induction h generalizing calls with
  | refused scan => exact .refused (Noted.scan_eq scan calls)
  | @last cursor kv page scanned deletion kv' scan delete ends =>
      have hdelete := Noted.delete_eq delete (calls ++ [.scan cursor pattern count])
      rw [List.append_assoc] at hdelete
      exact .last (Noted.scan_eq scan calls) hdelete ends
  | @more cursor kv page scanned deletion kv' rounds kv'' scan delete goesOn _ ih =>
      have hdelete := Noted.delete_eq delete (calls ++ [.scan cursor pattern count])
      -- The rest starts with the two calls of this round noted.
      have hrest := ih (calls ++ [.scan cursor pattern count] ++ [.delete page.keys])
      rw [List.append_assoc, List.append_assoc] at hrest
      rw [List.append_assoc] at hdelete
      exact .more (Noted.scan_eq scan calls) hdelete goesOn hrest

/-! ## Sweeping -/

/-- How many keys the deletions of some rounds counted. -/
def countedOn (rounds : List Round) : Nat := (rounds.map Round.counted).sum

/-- The keys that some rounds deleted. -/
def deletedOn (rounds : List Round) : List String := rounds.flatMap Round.deleted

theorem countedOn_cons (r : Round) (rounds : List Round) :
    countedOn (r :: rounds) = r.counted + countedOn rounds := by
  rw [countedOn, List.map_cons, List.sum_cons, ← countedOn]

theorem deletedOn_cons (r : Round) (rounds : List Round) :
    deletedOn (r :: rounds) = r.deleted ++ deletedOn rounds := List.flatMap_cons

/-- What a deletion counted is what a sweep counts; a failed one counts for nothing. -/
theorem discard_eq_counted {keys : List String} {scanned kv' : κ} {deletion : Except Fault Nat}
    (delete : KeyValueStore.delete keys scanned = (deletion, kv')) (cursor next : Nat) :
    discard keys scanned = (Round.counted (.paged cursor ⟨next, keys⟩ deletion), kv') := by
  rw [discard, delete]
  cases deletion <;> rfl

/-- A sweep goes along its course and ends where it ends. -/
theorem sweeps_of_course (h : Course pattern count cursor kv rounds kv') (removed : Nat) :
    Sweeps pattern count cursor removed kv (removed + countedOn rounds, kv') := by
  induction h generalizing removed with
  | refused scan => exact .failed scan
  | @last cursor kv page scanned deletion kv' scan delete ends =>
      exact .last scan (discard_eq_counted delete cursor page.next) ends
  | @more cursor kv page scanned deletion kv' rounds kv'' scan delete goesOn _ ih =>
      have hrest := ih (removed + Round.counted (.paged cursor page deletion))
      rw [Nat.add_assoc, ← countedOn_cons] at hrest
      exact .more scan (discard_eq_counted delete cursor page.next) goesOn hrest

/-! ## What is lost and what is counted -/

/-- A round takes away the keys that it deleted, and counts them. -/
theorem account_round {holdings : κ → Dict Holding} (falters : Falters holdings) {page : ScanPage}
    {scanned : κ} {deletion : Except Fault Nat}
    (scan : KeyValueStore.scan cursor pattern count kv = (.ok page, scanned))
    (delete : KeyValueStore.delete page.keys scanned = (deletion, kv')) :
    let round : Round := .paged cursor page deletion
    holdings kv' = ((holdings kv).filter fun k _ => !round.deleted.contains k) ∧
      round.counted + (holdings kv').size = (holdings kv).size := by
  intro round
  have hscan : holdings scanned = holdings kv := by
    rw [← falters.holdings_scan cursor pattern count kv, scan]
  cases deletion with
  | error fault =>
      have hkept := falters.not_deleted _ _ _ _ delete
      rw [hkept, hscan]
      exact ⟨((holdings kv).filter_true).symm, Nat.zero_add _⟩
  | ok n =>
      obtain ⟨hcount, hkept⟩ := falters.deleted _ _ _ _ delete
      -- The keys are counted on what was held before the scan, since that changed nothing.
      rw [hscan] at hcount hkept
      refine ⟨hkept, ?_⟩
      rw [hkept]
      show n + _ = _
      rw [hcount]
      exact (holdings kv).size_filter_add fun k _ => page.keys.contains k

/-- Over its course a sweep takes away the keys that were deleted, and counts them. -/
theorem Course.account {holdings : κ → Dict Holding} (falters : Falters holdings)
    (h : Course pattern count cursor kv rounds kv') :
    holdings kv' = ((holdings kv).filter fun k _ => !(deletedOn rounds).contains k) ∧
      countedOn rounds + (holdings kv').size = (holdings kv).size := by
  induction h with
  | @refused cursor kv fault kv' scan =>
      have hscan : holdings kv' = holdings kv := by
        rw [← falters.holdings_scan cursor pattern count kv, scan]
      rw [hscan]
      exact ⟨((holdings kv).filter_true).symm, Nat.zero_add _⟩
  | last scan delete ends =>
      obtain ⟨hkept, hcount⟩ := account_round falters scan delete
      rw [deletedOn, List.flatMap_singleton, countedOn, List.map_singleton, List.sum_singleton]
      exact ⟨hkept, hcount⟩
  | more scan delete goesOn _ ih =>
      obtain ⟨hkept, hcount⟩ := account_round falters scan delete
      obtain ⟨hrest, hsum⟩ := ih
      constructor
      · -- What is left was deleted neither in this round nor in the rest.
        rw [hrest, hkept, Dict.filter_filter]
        apply Dict.filter_congr
        intro k v _
        rw [deletedOn_cons, List.contains_append, Bool.not_or]
      · rw [countedOn_cons]
        omega

end KeySpace

/-! ## The store -/

namespace NetworkedStore

variable {κ : Type} [KeyValueStore κ]

/-- On a key-value store whose calls may fail and whose scans may answer anything, for
    any start of the keys, any number of keys to a scan and any text: if the course of
    the sweep for the keys that start with both comes to an end, then it was asked for in
    turn from cursor zero on, and the sweep ends there, and only there, with no calls but
    those of its rounds. The keys of the pages that could be deleted are gone and what
    stands under all others is as it was; the count is how many of these keys were held,
    each counted once. -/
theorem purges_along_its_course {holdings : κ → Dict Holding}
    (falters : KeyValueStore.Falters holdings) (start : String) (n : Nat) (text : String)
    {kv kv' : κ} {rounds : List Round}
    (course : KeySpace.Course (String.ofList (Text.Glob.startingWith (start ++ text).toList))
      (max n 1) 0 kv rounds kv') :
    let pattern := String.ofList (Text.Glob.startingWith (start ++ text).toList)
    let space := KeySpace.scanning { start } n
    let lost := (holdings kv).filter fun k _ => (KeySpace.deletedOn rounds).contains k
    Round.InTurn 0 rounds ∧
    (∀ calls result, KeySpace.Sweeps pattern (max n 1) 0 0 (⟨kv, calls⟩ : Noted κ) result ↔
      result = (lost.size, ⟨kv', calls ++ rounds.flatMap (Round.calls pattern (max n 1))⟩)) ∧
    ResponseStore.purgePrefix text (⟨space, kv⟩ : NetworkedStore κ) = (lost.size, ⟨space, kv'⟩) ∧
    ∀ k, (holdings kv').get? k =
      if (KeySpace.deletedOn rounds).contains k then none else (holdings kv).get? k := by
  intro pattern space lost
  obtain ⟨hkept, hcount⟩ := course.account falters
  have hlost : KeySpace.countedOn rounds = lost.size := by
    -- What went is what was there without what is left.
    have hsplit := (holdings kv).size_filter_add fun k _ => (KeySpace.deletedOn rounds).contains k
    rw [hkept] at hcount
    exact Nat.add_right_cancel (hcount.trans hsplit.symm)
  refine ⟨course.inTurn, fun calls result => ?_, ?_, fun k => ?_⟩
  · have hends := KeySpace.sweeps_of_course (course.noted calls) 0
    rw [Nat.zero_add, hlost] at hends
    exact ⟨fun h => h.unique hends, fun h => h ▸ hends⟩
  · have hsweep : space.purgePrefix text kv = (lost.size, kv') := by
      show KeySpace.sweep pattern (max n 1) 0 0 kv = _
      rw [(KeySpace.sweeps_of_course course 0).sweep_eq, Nat.zero_add, hlost]
    show ((space.purgePrefix text kv).1, (⟨space, (space.purgePrefix text kv).2⟩ :
      NetworkedStore κ)) = _
    rw [hsweep]
  · rw [hkept, Dict.get?_filter_key]
    cases (KeySpace.deletedOn rounds).contains k <;> rfl

/-- A store that answers scans as it was told to, and whose deletions fail as it was told
    to; without orders they succeed. -/
structure Scripted where
  holdings : Dict Holding
  scans : List (Except Fault ScanPage)
  failing : List Bool

instance : KeyValueStore Scripted where
  get key s := (.ok ((s.holdings.get? key).map (·.value)), s)
  setFor key value seconds s :=
    (.ok (), { s with holdings := s.holdings.insert key ⟨value, seconds⟩ })
  delete keys s :=
    if s.failing.head? = some true then
      (.error Rehearsal.refusal, { s with failing := s.failing.tail })
    else
      (.ok (s.holdings.filter fun k _ => keys.contains k).size,
        { s with
          holdings := s.holdings.filter fun k _ => !keys.contains k, failing := s.failing.tail })
  scan _ _ _ s := (s.scans.head?.getD (.ok ⟨0, []⟩), { s with scans := s.scans.tail })

theorem Scripted.falters : KeyValueStore.Falters Scripted.holdings where
  holdings_scan _ _ _ _ := rfl
  deleted keys n s s' h := by
    by_cases hfails : s.failing.head? = some true
    · rw [show KeyValueStore.delete keys s = _ from if_pos hfails] at h
      cases h
    · rw [show KeyValueStore.delete keys s = _ from if_neg hfails] at h
      cases h
      exact ⟨rfl, rfl⟩
  not_deleted keys fault s s' h := by
    by_cases hfails : s.failing.head? = some true
    · rw [show KeyValueStore.delete keys s = _ from if_pos hfails] at h
      cases h
      rfl
    · rw [show KeyValueStore.delete keys s = _ from if_neg hfails] at h
      cases h

/-- Four keys; three pages that overlap and repeat keys, and then a scan that fails. The
    second deletion fails. -/
def troubled : Scripted where
  holdings := Dict.ofList [("a", ⟨[1], 5⟩), ("b", ⟨[2], 6⟩), ("c", ⟨[3], 7⟩), ("d", ⟨[4], 8⟩)]
  scans := [.ok ⟨7, ["a", "b", "a"]⟩, .ok ⟨3, ["b", "c"]⟩, .ok ⟨7, ["a", "d", "x"]⟩, .error .server]
  failing := [false, true]

/-- The course of a sweep over all keys. -/
def troubledCourse : List Round :=
  [.paged 0 ⟨7, ["a", "b", "a"]⟩ (.ok 2), .paged 7 ⟨3, ["b", "c"]⟩ (.error Rehearsal.refusal),
    .paged 3 ⟨7, ["a", "d", "x"]⟩ (.ok 1), .refused 7 .server]

/-- The key whose page could not be deleted stays; one that stands on two pages counts
    once. The failed scan takes nothing back. -/
theorem purges_along_its_course_troubled :
    KeyValueStore.Falters Scripted.holdings ∧
      ∃ left,
        KeySpace.Course (String.ofList (Text.Glob.startingWith ("" ++ "").toList)) (max 9 1) 0
          troubled troubledCourse left ∧
        ResponseStore.purgePrefix "" (⟨KeySpace.scanning { start := "" } 9, troubled⟩ :
          NetworkedStore Scripted) = (3, ⟨KeySpace.scanning { start := "" } 9, left⟩) ∧
        left.holdings.get? "b" = none ∧ left.holdings.get? "c" = some ⟨[3], 7⟩ := by
  obtain ⟨left, course⟩ : ∃ left,
      KeySpace.Course (String.ofList (Text.Glob.startingWith ("" ++ "").toList)) (max 9 1) 0
        troubled troubledCourse left :=
    ⟨_, .more rfl rfl (by decide)
      (.more rfl rfl (by decide) (.more rfl rfl (by decide) (.refused rfl)))⟩
  obtain ⟨-, -, hpurge, hkept⟩ := purges_along_its_course Scripted.falters "" 9 "" course
  have hthree : (troubled.holdings.filter fun k _ =>
      (KeySpace.deletedOn troubledCourse).contains k).size = 3 := by decide
  refine ⟨Scripted.falters, left, course, ?_, ?_, ?_⟩
  · rw [hpurge, hthree]
  · rw [hkept]
    decide
  · rw [hkept]
    decide

end NetworkedStore

end GatewayCache
