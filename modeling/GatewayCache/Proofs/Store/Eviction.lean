/-
  GatewayCache.Proofs.Store.Eviction

  What a bounded store inside the process gives up for a new key.

  A store that has come about by operations holds no more entries than its bound
  allows (`fits_run`), and each of them has an expiry. So when it is full and a new key
  comes, it is full to the brim: if some entries have expired they go, and that is room
  enough; if none has, just one has to go, one that expires soonest (`MakesRoom`). The
  loop that drops entries ends, in one way (`evicts_iff`).
-/

import GatewayCache.Proofs.Dict.Parts
import GatewayCache.Proofs.Store.Expiring

namespace GatewayCache.MemoryStore

/-! ## Sooner and later -/

theorem expiresBefore_irrefl (a : Entry) : expiresBefore a a = false := by
  unfold expiresBefore
  cases a.expiresAt <;> simp

theorem expiresBefore_asymm {a b : Entry} (h : expiresBefore a b = true) :
    expiresBefore b a = false := by
  unfold expiresBefore at h ⊢
  cases ha : a.expiresAt <;> cases hb : b.expiresAt <;> simp_all
  omega

/-- What comes before an entry comes before all that are no sooner. -/
theorem expiresBefore_of_not {a b c : Entry} (hab : expiresBefore a b = true)
    (hcb : expiresBefore c b = false) : expiresBefore a c = true := by
  unfold expiresBefore at hab hcb ⊢
  cases ha : a.expiresAt <;> cases hb : b.expiresAt <;> cases hc : c.expiresAt <;>
    simp_all
  omega

/-- An entry with an expiry that no other entry comes before expires no later than
    the others. -/
theorem le_of_not_expiresBefore {a b : Entry} {s t : Instant} (ha : a.expiresAt = some s)
    (hb : b.expiresAt = some t) (h : expiresBefore b a = false) : s.nanos ≤ t.nanos := by
  simpa [expiresBefore, ha, hb] using h

theorem sooner_eq (a b : String × Entry) : sooner a b = a ∨ sooner a b = b := by
  unfold sooner
  split
  · exact .inr rfl
  · exact .inl rfl

/-- Neither of two entries comes before the sooner one. -/
theorem not_expiresBefore_sooner (a b : String × Entry) :
    expiresBefore a.2 (sooner a b).2 = false ∧ expiresBefore b.2 (sooner a b).2 = false := by
  unfold sooner
  split
  · next hba => exact ⟨expiresBefore_asymm hba, expiresBefore_irrefl b.2⟩
  · next hba => exact ⟨expiresBefore_irrefl a.2, Bool.eq_false_iff.2 hba⟩

/-- Going through entries keeps the soonest of those seen. -/
theorem foldl_sooner (es : List (String × Entry)) (e : String × Entry) :
    es.foldl sooner e ∈ e :: es ∧
      ∀ x ∈ e :: es, expiresBefore x.2 (es.foldl sooner e).2 = false := by
  induction es generalizing e with
  | nil =>
      refine ⟨List.mem_cons_self, fun x hx => ?_⟩
      rw [List.mem_singleton.1 hx]
      exact expiresBefore_irrefl e.2
  | cons b es ih =>
      obtain ⟨hmem, hleast⟩ := ih (sooner e b)
      have hkept := hleast _ List.mem_cons_self
      obtain ⟨he, hb⟩ := not_expiresBefore_sooner e b
      -- What came before the result would come before the one that was kept.
      have hdropped : ∀ x : String × Entry, expiresBefore x.2 (sooner e b).2 = false →
          expiresBefore x.2 (es.foldl sooner (sooner e b)).2 = false := by
        intro x hx
        rw [← Bool.not_eq_true]
        intro hbefore
        rw [expiresBefore_of_not hbefore hkept] at hx
        cases hx
      rw [List.foldl_cons]
      constructor
      · rcases List.mem_cons.1 hmem with h | h
        · rw [h]
          rcases sooner_eq e b with h | h <;> simp [h]
        · exact List.mem_cons_of_mem _ (List.mem_cons_of_mem _ h)
      · intro x hx
        rcases List.mem_cons.1 hx with rfl | hx
        · exact hdropped x he
        · rcases List.mem_cons.1 hx with rfl | hx
          · exact hdropped x hb
          · exact hleast x (List.mem_cons_of_mem _ hx)

/-- The entry that expires soonest is there, and no entry comes before it. -/
theorem soonest?_eq_some {es : List (String × Entry)} {e : String × Entry}
    (h : soonest? es = some e) : e ∈ es ∧ ∀ x ∈ es, expiresBefore x.2 e.2 = false := by
  cases es with
  | nil => cases h
  | cons first es =>
      obtain rfl := Option.some.inj h
      exact foldl_sooner es first

/-! ## Dropping the soonest -/

theorem soonest?_eq_none_iff {m : Dict Entry} : soonest? m.entries = none ↔ m.size = 0 := by
  rw [Dict.size, List.length_eq_zero_iff]
  cases m.entries <;> simp [soonest?]

/-- From entries that there are one goes that no other comes before. -/
theorem exists_dropSoonest {m : Dict Entry} (h : m.size ≠ 0) :
    ∃ victim old, m.get? victim = some old ∧ dropSoonest m = m.erase victim ∧
      ∀ k other, m.get? k = some other → expiresBefore other old = false := by
  obtain ⟨⟨victim, old⟩, hsoonest⟩ := Option.ne_none_iff_exists'.1 (mt soonest?_eq_none_iff.1 h)
  obtain ⟨hmem, hleast⟩ := soonest?_eq_some hsoonest
  refine ⟨victim, old, Dict.get?_of_mem_entries hmem, ?_, ?_⟩
  · rw [dropSoonest, hsoonest]
  · intro k other hother
    exact hleast (k, other) (Dict.mem_entries_of_get? hother)

theorem size_dropSoonest (m : Dict Entry) : (dropSoonest m).size = m.size - 1 := by
  by_cases hempty : m.size = 0
  · rw [dropSoonest, soonest?_eq_none_iff.2 hempty, hempty]
  · obtain ⟨victim, old, hold, hdrop, -⟩ := exists_dropSoonest hempty
    rw [hdrop, Dict.size_erase, if_pos (Dict.contains_eq_true_iff.2 ⟨old, hold⟩)]

theorem size_dropSoonestTimes (n : Nat) (m : Dict Entry) :
    (dropSoonestTimes n m).size = m.size - n := by
  induction n generalizing m with
  | zero => rfl
  | succ n ih =>
      rw [dropSoonestTimes, ih, size_dropSoonest]
      omega

/-- Entries that go until there is room under the bound, the soonest first, or until
    none is left. -/
inductive Evicts (bound : Nat) : Dict Entry → Dict Entry → Prop
  | room {m} (room : m.size < bound) : Evicts bound m m
  | none {m} (full : bound ≤ m.size) (none : soonest? m.entries = none) : Evicts bound m m
  | more {m e m'} (full : bound ≤ m.size) (soonest : soonest? m.entries = some e)
      (rest : Evicts bound (m.erase e.1) m') : Evicts bound m m'

/-- The loop ends in one way at most. -/
theorem Evicts.unique {bound : Nat} {m a b : Dict Entry} (ha : Evicts bound m a)
    (hb : Evicts bound m b) : a = b := by
  induction ha with
  | room room =>
      cases hb with
      | room => rfl
      | none => rfl
      | more full => exact absurd room (Nat.not_lt_of_le full)
  | none full none =>
      cases hb with
      | room => rfl
      | none => rfl
      | more _ soonest => rw [none] at soonest; cases soonest
  | more full soonest _ ih =>
      cases hb with
      | room room => exact absurd room (Nat.not_lt_of_le full)
      | none _ none => rw [none] at soonest; cases soonest
      | more _ soonest' rest' =>
          rw [soonest] at soonest'
          cases soonest'
          exact ih rest'

/-- It ends when as many have gone as are too many. -/
theorem evicts_dropSoonestTimes (bound : Nat) (m : Dict Entry) :
    Evicts bound m (dropSoonestTimes (m.size + 1 - bound) m) := by
  obtain ⟨n, hn⟩ : ∃ n, n = m.size + 1 - bound := ⟨_, rfl⟩
  rw [← hn]
  induction n generalizing m with
  | zero => exact .room (by omega)
  | succ n ih =>
      have full : bound ≤ m.size := by omega
      by_cases hempty : m.size = 0
      · -- Nothing is left to go: only a bound of zero comes to that.
        have hnone := soonest?_eq_none_iff.2 hempty
        have hzero : n = 0 := by omega
        rw [hzero, dropSoonestTimes, dropSoonestTimes, dropSoonest, hnone]
        exact .none full hnone
      · obtain ⟨e, hsoonest⟩ := Option.ne_none_iff_exists'.1 (mt soonest?_eq_none_iff.1 hempty)
        have hdrop : dropSoonest m = m.erase e.1 := by rw [dropSoonest, hsoonest]
        have hsize := size_dropSoonest m
        rw [hdrop] at hsize
        rw [dropSoonestTimes, hdrop]
        exact .more full hsoonest (ih _ (by omega))

theorem evicts_iff (bound : Nat) (m m' : Dict Entry) :
    Evicts bound m m' ↔ m' = dropSoonestTimes (m.size + 1 - bound) m := by
  constructor
  · intro h
    exact h.unique (evicts_dropSoonestTimes bound m)
  · rintro rfl
    exact evicts_dropSoonestTimes bound m

/-! ## Within the bound -/

/-- A store holds no more entries than its bound allows, which are one at least. -/
def Fits (s : MemoryStore) : Prop := ∀ n, s.bound = some n → 0 < n ∧ s.entries.size ≤ n

theorem fits_ofBound (bound : Option Nat) : (ofBound bound).Fits := by
  intro n hn
  cases bound with
  | none => cases hn
  | some m =>
      obtain rfl := Option.some.inj hn
      exact ⟨Nat.lt_of_lt_of_le Nat.one_pos (Nat.le_max_right m 1), Nat.zero_le _⟩

/-- Behind making room for a key there is room for it. -/
theorem size_erase_makeRoom_lt {bound : Nat} {m : Dict Entry} (hpos : 0 < bound)
    (hsize : m.size ≤ bound) (key : String) (now : Instant) :
    ((makeRoom bound m key now).erase key).size < bound := by
  have herase := Dict.size_erase (makeRoom bound m key now) key
  unfold makeRoom at herase ⊢
  split
  · next h =>
      rw [if_pos h] at herase
      rw [Bool.or_eq_true, decide_eq_true_eq] at h
      rcases h with hroom | hthere
      · exact Nat.lt_of_le_of_lt (Dict.size_filter_le _ _) hroom
      · rw [if_pos hthere] at herase
        omega
  · refine Nat.lt_of_le_of_lt (Dict.size_filter_le _ _) ?_
    rw [size_dropSoonestTimes]
    omega

theorem fits_step {s : MemoryStore} (fits : s.Fits) (now : Instant) (op : ResponseStore.Op) :
    (ResponseStore.step now op s).2.Fits := by
  intro n hn
  rw [bound_step] at hn
  obtain ⟨hpos, hsize⟩ := fits n hn
  refine ⟨hpos, ?_⟩
  cases op with
  | get key =>
      show (MemoryStore.get now key s).2.entries.size ≤ n
      unfold MemoryStore.get
      split
      · exact hsize
      · split
        · exact hsize
        · exact (Dict.size_filter_le _ _).trans hsize
  | set key e =>
      show (set now key e s).entries.size ≤ n
      unfold set
      split
      · rw [Dict.size_insert, hn]
        exact size_erase_makeRoom_lt hpos hsize key now
      · exact hsize
  | purge key => exact (Dict.size_filter_le _ _).trans hsize
  | purgePrefix start => exact (Dict.size_filter_le _ _).trans hsize

theorem fits_run {s : MemoryStore} (fits : s.Fits) (ops : List (Instant × ResponseStore.Op)) :
    (ResponseStore.run ops s).2.Fits :=
  runSteps_induction (P := Fits) (fun now op _ h => fits_step h now op) ops fits

/-! ## A new key in a full store -/

/-- What becomes of the entries of a full store when a new key comes. -/
structure MakesRoom (now : Instant) (key : String) (before after : Dict Entry) : Prop where
  /-- What has expired goes. -/
  expired : ∀ k old, before.get? k = some old → old.isLive now = false → after.get? k = none
  /-- If something has expired, nothing else goes. -/
  spared : (∃ k old, before.get? k = some old ∧ old.isLive now = false) →
    ∀ k old, before.get? k = some old → old.isLive now = true → after.get? k = some old
  /-- If nothing has expired, just one entry goes, and no other expires sooner. -/
  soonest : (∀ k old, before.get? k = some old → old.isLive now = true) →
    ∃ victim old, before.get? victim = some old ∧ after.get? victim = none ∧
      (∀ k, k ≠ key → k ≠ victim → after.get? k = before.get? k) ∧
      ∀ k other, before.get? k = some other →
        ∃ s t, old.expiresAt = some s ∧ other.expiresAt = some t ∧ s.nanos ≤ t.nanos

theorem makeRoom_of_full {bound : Nat} {m : Dict Entry} {key : String}
    (new : m.contains key = false) (full : bound ≤ m.size) (now : Instant) :
    makeRoom bound m key now =
      dropSoonestTimes ((onlyLive m now).size + 1 - bound) (onlyLive m now) := by
  rw [makeRoom, if_neg]
  rw [new, Bool.or_false, decide_eq_true_eq]
  exact Nat.not_lt_of_le full

/-- As long as an entry has expired, there are fewer live ones. -/
theorem size_onlyLive_lt {m : Dict Entry} {now : Instant} {k : String} {old : Entry}
    (held : m.get? k = some old) (dead : old.isLive now = false) :
    (onlyLive m now).size < m.size := by
  have hsplit := m.size_filter_add fun _ e => e.isLive now
  have hexpired : (m.filter fun _ e => !e.isLive now).get? k = some old := by
    rw [Dict.get?_filter, held, Option.filter_some, dead]
    rfl
  have hpos : 0 < (m.filter fun _ e => !e.isLive now).size :=
    List.length_pos_of_mem (Dict.mem_entries_of_get? hexpired)
  rw [onlyLive]
  omega

theorem onlyLive_eq_self {m : Dict Entry} {now : Instant}
    (h : ∀ k old, m.get? k = some old → old.isLive now = true) : onlyLive m now = m :=
  (Dict.filter_congr h).trans m.filter_true

/-- A full store that is within its bound gives up for a new key what must go, and
    nothing else. -/
theorem makesRoom_of_full {bound : Nat} {m : Dict Entry} (hpos : 0 < bound) (hsize : m.size ≤ bound)
    {key : String} (new : m.contains key = false) (full : bound ≤ m.size) (now : Instant)
    (e : Entry) : MakesRoom now key m ((makeRoom bound m key now).insert key e) := by
  have hkey : ∀ k old, m.get? k = some old → k ≠ key := by
    rintro k old held rfl
    rw [Dict.contains_eq_false_iff.1 new] at held
    cases held
  rw [makeRoom_of_full new full]
  constructor
  case expired =>
    intro k old held dead
    rw [Dict.get?_insert, if_neg (hkey k old held), Option.eq_none_iff_forall_ne_some]
    intro left hleft
    have hlive := get?_of_dropSoonestTimes hleft
    rw [onlyLive, Dict.get?_filter, held, Option.filter_some, dead] at hlive
    cases hlive
  case spared =>
    rintro ⟨k', old', held', dead⟩ k old held live
    have hroom := size_onlyLive_lt held' dead
    have hnone : (onlyLive m now).size + 1 - bound = 0 := by omega
    rw [Dict.get?_insert, if_neg (hkey k old held), hnone, dropSoonestTimes, onlyLive,
      Dict.get?_filter, held, Option.filter_some, if_pos live]
  case soonest =>
    intro alive
    have hone : m.size + 1 - bound = 1 := by omega
    obtain ⟨victim, old, held, hdrop, hleast⟩ := exists_dropSoonest (by omega : m.size ≠ 0)
    rw [onlyLive_eq_self alive, hone, dropSoonestTimes, dropSoonestTimes, hdrop]
    refine ⟨victim, old, held, ?_, ?_, ?_⟩
    · rw [Dict.get?_insert, if_neg (hkey victim old held), Dict.get?_erase, if_pos rfl]
    · intro k hk hvictim
      rw [Dict.get?_insert, if_neg hk, Dict.get?_erase, if_neg hvictim]
    · intro k other hother
      obtain ⟨s, hs, -⟩ := Entry.isLive_iff.1 (alive victim old held)
      obtain ⟨t, ht, -⟩ := Entry.isLive_iff.1 (alive k other hother)
      exact ⟨s, t, hs, ht, le_of_not_expiresBefore hs ht (hleast k other hother)⟩

/-! ## Writes -/

/-- A bounded store that operations have brought about holds no more entries than its
    bound allows, one at least, and each of them has an expiry. An entry with time left
    is put under its key, and what else is held then was held before. If the key was
    held or there was room, nothing is given up. Otherwise what has expired is given
    up, and only if nothing had, one entry is, which expires soonest; the loop that
    sees to it ends. -/
theorem set_evicts_expired_or_soonest (n : Nat) (ops : List (Instant × ResponseStore.Op))
    (s : MemoryStore) (reached : (ResponseStore.run ops (bounded n)).2 = s) :
    s.size ≤ max n 1 ∧
    (∀ k old, s.entries.get? k = some old → ∃ expiry, old.expiresAt = some expiry) ∧
    ∀ now key e after, e.isLive now = true → (ResponseStore.set now key e s).entries = after →
      after.get? key = some e ∧
      (∀ k old, k ≠ key → after.get? k = some old → s.entries.get? k = some old) ∧
      (s.entries.contains key = true ∨ s.size < max n 1 →
        ∀ k, k ≠ key → after.get? k = s.entries.get? k) ∧
      (s.entries.contains key = false → max n 1 ≤ s.size →
        MakesRoom now key s.entries after ∧
        ∃ room, (∀ m, Evicts (max n 1) (onlyLive s.entries now) m ↔ m = room) ∧
          after = room.insert key e) := by
  have hrun : (ResponseStore.run ops (ofBound (some n))).2 = s := reached
  have hbound : s.bound = some (max n 1) := by
    rw [← hrun, bound_run]
    rfl
  obtain ⟨hpos, hsize⟩ : 0 < max n 1 ∧ s.entries.size ≤ max n 1 := by
    rw [← hrun] at hbound ⊢
    exact fits_run (fits_ofBound (some n)) ops _ hbound
  refine ⟨hsize, ?_, ?_⟩
  · intro k old held
    rw [← hrun] at held
    -- What is held was written with time left.
    obtain ⟨-, written, -, -, live, -⟩ := standing_of_held held
    obtain ⟨expiry, hexpiry, -⟩ := Entry.isLive_iff.1 live
    exact ⟨expiry, hexpiry⟩
  · intro now key e after live hafter
    have hset : after = (makeRoom (max n 1) s.entries key now).insert key e := by
      rw [← hafter]
      show (set now key e s).entries = _
      rw [set, if_pos live, hbound]
    subst hset
    refine ⟨by rw [Dict.get?_insert, if_pos rfl], ?_, ?_, ?_⟩
    · intro k old hk held
      rw [Dict.get?_insert, if_neg hk] at held
      exact get?_of_makeRoom held
    · intro hroom k hk
      have hkept : makeRoom (max n 1) s.entries key now = s.entries := by
        rw [makeRoom, if_pos]
        rw [Bool.or_eq_true, decide_eq_true_eq]
        exact hroom.symm
      rw [Dict.get?_insert, if_neg hk, hkept]
    · intro new full
      refine ⟨makesRoom_of_full hpos hsize new full now e, _, fun m => ?_, rfl⟩
      rw [makeRoom_of_full new full]
      exact evicts_iff (max n 1) (onlyLive s.entries now) m

/-- Two keys in a store with room for two, one of them with time left until the
    instant 5. -/
def shortAndLong : List (Instant × ResponseStore.Op) :=
  [(⟨1⟩, .set "short" ⟨200, .empty, [1], "", some ⟨5⟩⟩),
    (⟨2⟩, .set "long" ⟨200, .empty, [2], "", some ⟨9⟩⟩)]

theorem entries_run_shortAndLong :
    (ResponseStore.run shortAndLong (bounded 2)).2.entries.entries =
      [("long", ⟨200, .empty, [2], "", some ⟨9⟩⟩), ("short", ⟨200, .empty, [1], "", some ⟨5⟩⟩)] := by
  decide

/-- At that instant it has expired, so for a new key it goes and the other one stays.
    Before that instant nothing has expired, and it goes because it expires sooner. -/
theorem set_evicts_expired_or_soonest_full :
    (∃ s after, (ResponseStore.run shortAndLong (bounded 2)).2 = s ∧ max 2 1 ≤ s.size ∧
      s.entries.contains "new" = false ∧
      Entry.isLive ⟨200, .empty, [3], "", some ⟨7⟩⟩ ⟨5⟩ = true ∧
      (ResponseStore.set ⟨5⟩ "new" ⟨200, .empty, [3], "", some ⟨7⟩⟩ s).entries = after ∧
      after.get? "short" = none ∧ after.get? "long" = some ⟨200, .empty, [2], "", some ⟨9⟩⟩) ∧
    ∃ s after, (ResponseStore.run shortAndLong (bounded 2)).2 = s ∧ max 2 1 ≤ s.size ∧
      s.entries.contains "new" = false ∧
      (∀ k old, s.entries.get? k = some old → old.isLive ⟨4⟩ = true) ∧
      Entry.isLive ⟨200, .empty, [3], "", some ⟨7⟩⟩ ⟨4⟩ = true ∧
      (ResponseStore.set ⟨4⟩ "new" ⟨200, .empty, [3], "", some ⟨7⟩⟩ s).entries = after ∧
      after.get? "short" = none ∧ after.get? "long" = some ⟨200, .empty, [2], "", some ⟨9⟩⟩ := by
  have full : max 2 1 ≤ (ResponseStore.run shortAndLong (bounded 2)).2.size := by decide
  have new : (ResponseStore.run shortAndLong (bounded 2)).2.entries.contains "new" = false := by
    decide
  have hmem : ∀ k old, (ResponseStore.run shortAndLong (bounded 2)).2.entries.get? k = some old →
      (k = "long" ∧ old = ⟨200, .empty, [2], "", some ⟨9⟩⟩) ∨
        (k = "short" ∧ old = ⟨200, .empty, [1], "", some ⟨5⟩⟩) := by
    intro k old held
    simpa [entries_run_shortAndLong] using Dict.mem_entries_of_get? held
  obtain ⟨-, -, hset⟩ := set_evicts_expired_or_soonest 2 shortAndLong _ rfl
  constructor
  · have live : Entry.isLive ⟨200, .empty, [3], "", some ⟨7⟩⟩ ⟨5⟩ = true := by decide
    obtain ⟨-, -, -, hnew⟩ := hset ⟨5⟩ "new" _ _ live rfl
    obtain ⟨makesRoom, -⟩ := hnew new full
    refine ⟨_, _, rfl, full, new, live, rfl, ?_, ?_⟩
    · exact makesRoom.expired "short" ⟨200, .empty, [1], "", some ⟨5⟩⟩ (by decide) (by decide)
    · exact makesRoom.spared ⟨"short", ⟨200, .empty, [1], "", some ⟨5⟩⟩, by decide, by decide⟩
        "long" _ (by decide) (by decide)
  · have live : Entry.isLive ⟨200, .empty, [3], "", some ⟨7⟩⟩ ⟨4⟩ = true := by decide
    have alive : ∀ k old, (ResponseStore.run shortAndLong (bounded 2)).2.entries.get? k = some old →
        old.isLive ⟨4⟩ = true := by
      intro k old held
      obtain ⟨-, rfl⟩ | ⟨-, rfl⟩ := hmem k old held
      · decide
      · decide
    obtain ⟨-, -, -, hnew⟩ := hset ⟨4⟩ "new" _ _ live rfl
    obtain ⟨makesRoom, -⟩ := hnew new full
    obtain ⟨victim, old, held, hgone, hkept, hleast⟩ := makesRoom.soonest alive
    -- The longer one is not the victim, since the other one expires before it.
    obtain ⟨rfl, rfl⟩ | ⟨rfl, rfl⟩ := hmem victim old held
    · obtain ⟨s, t, hs, ht, hle⟩ :=
        hleast "short" ⟨200, .empty, [1], "", some ⟨5⟩⟩ (by decide)
      obtain rfl := Option.some.inj hs
      obtain rfl := Option.some.inj ht
      exact absurd hle (by decide)
    · refine ⟨_, _, rfl, full, new, alive, live, rfl, hgone, ?_⟩
      exact (hkept "long" (by decide) (by decide)).trans (by decide)

end GatewayCache.MemoryStore
