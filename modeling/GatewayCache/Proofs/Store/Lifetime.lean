/-
  GatewayCache.Proofs.Store.Lifetime

  How long a key-value store is asked to hold a record.

  A write asks for one call if the entry has time left, and for none otherwise
  (`NetworkedStore.callsOfSet_eq`). The seconds of the call are computed in words of 64
  bits, and up to the end of the calendar the words are large enough
  (`Instant.nanos_le_longest`). They are the time left, a started second counted in full:
  one second at least, and not a second too many (`Span.coveredBy_secondsToHold_of_le`).
  So a key-value store that drops its records in time has the record until the entry
  expires, and has dropped it a second later (`NetworkedStore.lasts_of_coveredBy`).
-/

import GatewayCache.KeyValue.Server
import GatewayCache.Proofs.KeyValue.Lapsing
import GatewayCache.Proofs.KeyValue.Noted
import GatewayCache.Proofs.Store.ReadBack

namespace GatewayCache

/-! ## Whole seconds -/

namespace Span

/-- A span is covered by the least number of whole seconds that reaches it. No number
    covers the empty span. -/
structure CoveredBy (d : Span) (seconds : Nat) : Prop where
  pos : 1 ≤ seconds
  short : (seconds - 1) * nanosPerSecond < d.nanos
  reached : d.nanos ≤ seconds * nanosPerSecond

theorem CoveredBy.le {d : Span} {m n : Nat} (hm : d.CoveredBy m) (hn : d.CoveredBy n) : m ≤ n := by
  have hlt : (m - 1) * nanosPerSecond < n * nanosPerSecond :=
    Nat.lt_of_lt_of_le hm.short hn.reached
  have hpos := hm.pos
  have hless := Nat.lt_of_mul_lt_mul_right hlt
  omega

theorem CoveredBy.unique {d : Span} {m n : Nat} (hm : d.CoveredBy m) (hn : d.CoveredBy n) :
    m = n :=
  Nat.le_antisymm (hm.le hn) (hn.le hm)

theorem coveredBy_secondsRoundedUp {d : Span} (h : 0 < d.nanos) :
    d.CoveredBy d.secondsRoundedUp := by
  have hpos := secondsRoundedUp_pos h
  obtain ⟨hreached, hshort⟩ := d.secondsRoundedUp_bounds
  refine ⟨hpos, ?_, hreached⟩
  -- There is a second to take away, so nothing is cut off at zero.
  rw [Nat.sub_mul, Nat.one_mul]
  omega

/-- The seconds to hold something for cover the time left as far as words count. -/
theorem coveredBy_secondsToHold {d : Span} (h : 0 < d.nanos) :
    (d.min longest).CoveredBy d.secondsToHold := by
  rw [secondsToHold_eq]
  exact coveredBy_secondsRoundedUp (Nat.lt_min.2 ⟨h, by decide⟩)

theorem coveredBy_secondsToHold_of_le {d : Span} (h : 0 < d.nanos)
    (fits : d.nanos ≤ longest.nanos) : d.CoveredBy d.secondsToHold := by
  rw [secondsToHold_of_le fits, toNat_secondsWord_of_le fits]
  exact coveredBy_secondsRoundedUp h

end Span

/-- Up to an instant of the calendar there are few seconds enough for a word. -/
theorem Instant.nanos_le_longest {t : Instant} (h : t.onCalendar = true) {d : Span}
    (within : d.nanos ≤ t.nanos) : d.nanos ≤ Span.longest.nanos := by
  have hlast : t.nanos / nanosPerSecond ≤ lastSecond := of_decide_eq_true h
  have hseconds : t.nanos < (lastSecond + 1) * nanosPerSecond :=
    Nat.lt_mul_of_div_lt (Nat.lt_succ_of_le hlast) (by decide)
  -- The calendar counts with one bit less than a word has.
  have hroom : (lastSecond + 1) * nanosPerSecond ≤ Span.longest.nanos := by decide +kernel
  exact within.trans (hseconds.le.trans hroom)

/-! ## Time left -/

namespace Entry

theorem remaining?_of_expiresAt {e : Entry} {now expiry : Instant}
    (h : e.expiresAt = some expiry) (later : now.nanos < expiry.nanos) :
    e.remaining? now = some ⟨expiry.nanos - now.nanos⟩ := by
  rw [remaining?, h, Option.bind_some, Instant.until?, if_pos later]

theorem remaining?_eq_none {e : Entry} {now : Instant}
    (h : ∀ expiry, e.expiresAt = some expiry → expiry.nanos ≤ now.nanos) :
    e.remaining? now = none := by
  rw [remaining?, Option.bind_eq_none_iff]
  intro expiry hexpiry
  rw [Instant.until?, if_neg (Nat.not_lt_of_le (h expiry hexpiry))]

/-- An entry that was built some time ago has the rest of its lifetime left, if that
    ends on the calendar. -/
theorem remaining?_ofResponse (built : Instant) (status : UInt16) (f : Http.Fields)
    (body : List UInt8) (ttl delay : Span) :
    (ofResponse built status f body ttl).remaining? (built.advance delay) =
      if (built.advance ttl).onCalendar = true ∧ delay.nanos < ttl.nanos then
        some ⟨ttl.nanos - delay.nanos⟩
      else none := by
  show (built.after? ttl).bind (built.advance delay).until? = _
  by_cases hcalendar : (built.advance ttl).onCalendar = true
  · rw [Instant.after?, if_pos hcalendar, Option.bind_some]
    simp only [hcalendar, true_and]
    -- Lifetime and delay start at the same instant, which cancels out.
    simp only [Instant.until?, Instant.advance, Nat.add_lt_add_iff_left, Nat.add_sub_add_left]
  · rw [Instant.after?, if_neg hcalendar, if_neg fun h => hcalendar h.1]
    rfl

end Entry

/-! ## The call of a write -/

/-- A server is sent the seconds as they are: they never fall below the one second that
    it is sent at least. -/
theorem ServerLink.sent_set {e : Entry} {now : Instant} {left : Span}
    (h : e.remaining? now = some left) (space : KeySpace) (key : String) (l : ServerLink) :
    (space.set now key e l).sent =
      l.sent ++
        [[word "SETEX", word (space.key key), number left.secondsToHold, e.write]] := by
  rw [KeySpace.set_of_remaining h]
  show (l.ask [_, _, number (max left.secondsToHold 1), _] _).2.sent = _
  rw [Nat.max_eq_left (Entry.secondsToHold_pos h), ask, exchange]
  cases l.replies <;> rfl

namespace NetworkedStore

variable {κ : Type} [KeyValueStore κ]

/-- The calls that a write makes to the key-value store. -/
def callsOfSet (now : Instant) (key : String) (e : Entry) (store : NetworkedStore κ) :
    List KeyValueCall :=
  (ResponseStore.set now key e
    (⟨store.space, ⟨store.kv, []⟩⟩ : NetworkedStore (Noted κ))).kv.calls

theorem callsOfSet_eq (now : Instant) (key : String) (e : Entry) (store : NetworkedStore κ) :
    store.callsOfSet now key e =
      match e.remaining? now with
      | none => []
      | some left => [.setFor (store.space.key key) e.write left.secondsToHold] := by
  show (store.space.set now key e (⟨store.kv, []⟩ : Noted κ)).calls = _
  rw [KeySpace.set]
  cases e.remaining? now <;> rfl

/-! ## What stands afterwards -/

/-- The store some time later, where time passes by `wait` for its key-value store. -/
def later (wait : Span → κ → κ) (d : Span) (store : NetworkedStore κ) : NetworkedStore κ :=
  { store with kv := wait d store.kv }

/-- From a write on, an entry is read until its expiry, and from one second behind that
    on it is not read any more. -/
structure Lasts (wait : Span → κ → κ) (store : NetworkedStore κ) (written expiry : Instant)
    (key : String) (e : Entry) : Prop where
  stands : ∀ d : Span, (written.advance d).nanos < expiry.nanos →
    (ResponseStore.get (written.advance d) key (store.later wait d)).1 =
      some { e with expiresAt := none }
  lapsed : ∀ d : Span, expiry.nanos + nanosPerSecond ≤ (written.advance d).nanos →
    (ResponseStore.get (written.advance d) key (store.later wait d)).1 = none

/-- Seconds that cover the time left make a record last as long as its entry. -/
theorem lasts_of_coveredBy {wait : Span → κ → κ} (lapses : KeyValueStore.Lapses wait)
    {space : KeySpace} {key : String} {e : Entry} {seconds : Nat} {kv kv' : κ}
    {now expiry : Instant} {left : Span} (ends : now.advance left = expiry)
    (covered : left.CoveredBy seconds)
    (put : KeyValueStore.setFor (space.key key) e.write seconds kv = (.ok (), kv')) :
    Lasts wait ⟨space, kv'⟩ now expiry key e := by
  subst ends
  obtain ⟨hpos, hshort, hreached⟩ := covered
  constructor
  · intro d hbefore
    have hwithin : d.nanos < (Span.ofSeconds seconds).nanos :=
      Nat.lt_of_lt_of_le (Nat.lt_of_add_lt_add_left hbefore) hreached
    exact get_of_held (lapses.stands _ _ _ d kv kv' hpos put hwithin) (now.advance d)
  · intro d hbehind
    -- The seconds are over before one more second has passed since the expiry.
    have hpast : (Span.ofSeconds seconds).nanos < d.nanos := by
      rw [Nat.sub_mul, Nat.one_mul] at hshort
      simp only [Span.ofSeconds, Instant.advance] at hbehind ⊢
      omega
    exact KeySpace.get_of_answer (lapses.lapsed _ _ _ d kv kv' hpos put hpast)

/-- A write asks the key-value store for something exactly if its entry has an expiry
    that is still to come, and then for one call: to hold the record for the least whole
    seconds that cover the time left, down to the nanosecond. They are computed in words
    of 64 bits, which never run over for an expiry on the calendar. If the call succeeds
    on a store that drops its records in time, the entry is read until it expires, and no
    more one second behind that. An entry made of a response has its lifetime left, less
    the delay between building and writing it, unless its expiry is beyond the calendar. -/
theorem held_for_time_left (store : NetworkedStore κ) (now : Instant) (key : String)
    (e : Entry) :
    ((∀ expiry, e.expiresAt = some expiry → expiry.nanos ≤ now.nanos) →
      store.callsOfSet now key e = []) ∧
    (∀ expiry, e.expiresAt = some expiry → now.nanos < expiry.nanos →
      let left : Span := ⟨expiry.nanos - now.nanos⟩
      ∃ seconds,
        store.callsOfSet now key e = [.setFor (store.space.key key) e.write seconds] ∧
        (left.min .longest).CoveredBy seconds ∧
        (expiry.onCalendar = true →
          left.CoveredBy seconds ∧ left.secondsWord.toNat = seconds) ∧
        (left.CoveredBy seconds → ∀ wait : Span → κ → κ, KeyValueStore.Lapses wait →
          (KeyValueStore.setFor (store.space.key key) e.write seconds store.kv).1 = .ok () →
          Lasts wait (ResponseStore.set now key e store) now expiry key e)) ∧
    ∀ built status f body ttl delay, e = .ofResponse built status f body ttl →
      now = built.advance delay →
      ((built.advance ttl).onCalendar = true ∧ delay.nanos < ttl.nanos ↔
        ∃ seconds,
          store.callsOfSet now key e = [.setFor (store.space.key key) e.write seconds] ∧
          Span.CoveredBy ⟨ttl.nanos - delay.nanos⟩ seconds) := by
  refine ⟨fun hpassed => ?_, fun expiry hexpiry hlater => ?_, ?_⟩
  · rw [callsOfSet_eq, Entry.remaining?_eq_none hpassed]
  · intro left
    have hleft : e.remaining? now = some left := Entry.remaining?_of_expiresAt hexpiry hlater
    have hpos : 0 < left.nanos := Nat.sub_pos_of_lt hlater
    refine ⟨left.secondsToHold, ?_, Span.coveredBy_secondsToHold hpos, fun hcalendar => ?_,
      fun hcovered wait lapses hput => ?_⟩
    · rw [callsOfSet_eq, hleft]
    · have hfits : left.nanos ≤ Span.longest.nanos :=
        Instant.nanos_le_longest hcalendar (Nat.sub_le expiry.nanos now.nanos)
      exact ⟨Span.coveredBy_secondsToHold_of_le hpos hfits, (Span.secondsToHold_of_le hfits).symm⟩
    · -- On `store` itself the write makes the call that was noted on its watched copy.
      have hend : now.advance left = expiry :=
        congrArg Instant.mk (Nat.add_sub_of_le (Nat.le_of_lt hlater))
      show Lasts wait { store with kv := store.space.set now key e store.kv } now expiry key e
      rw [KeySpace.set_of_remaining hleft]
      exact lasts_of_coveredBy lapses hend hcovered (Prod.ext hput rfl)
  · rintro built status f body ttl delay rfl rfl
    rw [callsOfSet_eq, Entry.remaining?_ofResponse]
    constructor
    · intro hlasts
      have hpos : 0 < ttl.nanos - delay.nanos := Nat.sub_pos_of_lt hlasts.2
      -- The lifetime ends on the calendar, so what is left of it fits a word.
      have hwithin : ttl.nanos - delay.nanos ≤ (built.advance ttl).nanos :=
        (Nat.sub_le _ _).trans (Nat.le_add_left _ _)
      rw [if_pos hlasts]
      exact ⟨_, rfl, Span.coveredBy_secondsToHold_of_le hpos
        (Instant.nanos_le_longest hlasts.1 hwithin)⟩
    · rintro ⟨seconds, hcalls, -⟩
      by_contra hover
      rw [if_neg hover] at hcalls
      cases hcalls

/-- Nothing under a start of keys, in a table with a clock of its own. -/
def vacancy : NetworkedStore LeaseTable := ⟨{ start := "p:" }, ⟨⟨7⟩, .empty⟩⟩

/-- An entry that was built at the first instant to last for a second and a half. -/
def brief : Entry := .ofResponse ⟨0⟩ 200 ⟨[]⟩ [1] ⟨1500000000⟩

/-- The last instant of the calendar. -/
def nightfall : Instant := ⟨Instant.lastSecond * nanosPerSecond + 999999999⟩

/-- An entry that lasts until then. -/
def lasting : Entry := ⟨200, .empty, [1], "", some nightfall⟩

/-- The brief entry is put for two seconds one nanosecond after it was built, and not at
    all when it expires. The other one is put for one second more than the calendar
    counts, which is still a word. -/
theorem held_for_time_left_brief :
    KeyValueStore.Lapses LeaseTable.wait ∧
      vacancy.callsOfSet ⟨1⟩ "k" brief = [.setFor "p:k" brief.write 2] ∧
      Lasts LeaseTable.wait (ResponseStore.set ⟨1⟩ "k" brief vacancy) ⟨1⟩ ⟨1500000000⟩ "k"
        brief ∧
      vacancy.callsOfSet ⟨1500000000⟩ "k" brief = [] ∧
      nightfall.onCalendar = true ∧
      vacancy.callsOfSet ⟨1⟩ "k" lasting =
        [.setFor "p:k" lasting.write (Instant.lastSecond + 1)] ∧
      (Span.secondsWord ⟨nightfall.nanos - 1⟩).toNat = Instant.lastSecond + 1 := by
  have hexpiry : brief.expiresAt = some ⟨1500000000⟩ := by decide
  have hcalendar : nightfall.onCalendar = true := by decide
  have htwo : Span.CoveredBy ⟨1500000000 - 1⟩ 2 := ⟨by decide, by decide, by decide⟩
  have hall : Span.CoveredBy ⟨nightfall.nanos - 1⟩ (Instant.lastSecond + 1) :=
    ⟨by decide +kernel, by decide +kernel, by decide +kernel⟩
  obtain ⟨-, hlive, hbuilt⟩ := held_for_time_left vacancy ⟨1⟩ "k" brief
  obtain ⟨_, -, -, hcovered, hlasts⟩ := hlive ⟨1500000000⟩ hexpiry (by decide)
  obtain rfl := (hcovered (by decide)).1.unique htwo
  obtain ⟨_, hcalls, hcovered⟩ :=
    (hbuilt ⟨0⟩ 200 ⟨[]⟩ [1] ⟨1500000000⟩ ⟨1⟩ rfl rfl).1 (by decide)
  obtain rfl := hcovered.unique htwo
  have hnone := (held_for_time_left vacancy ⟨1500000000⟩ "k" brief).1 fun expiry h =>
    Nat.le_of_eq (congrArg Instant.nanos (Option.some.inj (h.symm.trans hexpiry)))
  obtain ⟨-, hlive, -⟩ := held_for_time_left vacancy ⟨1⟩ "k" lasting
  obtain ⟨_, hlong, -, hfits, -⟩ := hlive nightfall rfl (by decide +kernel)
  obtain ⟨hcovered, hword⟩ := hfits hcalendar
  obtain rfl := hcovered.unique hall
  exact ⟨LeaseTable.lapses, hcalls, hlasts htwo LeaseTable.wait LeaseTable.lapses rfl, hnone,
    hcalendar, hlong, hword⟩

end NetworkedStore

end GatewayCache
