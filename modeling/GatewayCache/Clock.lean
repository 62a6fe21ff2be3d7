/-
  GatewayCache.Clock

  Lengths of time and points in time, exact to the nanosecond.

  A `Span` is a length of time. An `Instant` is a point in time, counted from
  the epoch. The calendar ends: an instant whose whole seconds do not fit a
  signed 64-bit count does not exist, so `Instant.after?` may give none. Clocks
  only move forward, so no instant lies before the epoch.
-/

namespace GatewayCache

/-- Nanoseconds in one second. -/
def nanosPerSecond : Nat := 1000000000

/-! ## Spans -/

/-- A length of time. -/
structure Span where
  nanos : Nat
deriving DecidableEq, Repr, Inhabited

namespace Span

/-- The empty length of time. -/
def zero : Span := ⟨0⟩

/-- A whole number of seconds. -/
def ofSeconds (n : Nat) : Span := ⟨n * nanosPerSecond⟩

/-- The whole seconds in a span, the rest dropped. -/
def seconds (d : Span) : Nat := d.nanos / nanosPerSecond

/-- The nanoseconds beyond the last whole second. -/
def subseconds (d : Span) : Nat := d.nanos % nanosPerSecond

/-- The seconds in a span, a started second counted as a whole one. -/
def secondsRoundedUp (d : Span) : Nat :=
  if 0 < d.subseconds then d.seconds + 1 else d.seconds

/-- The shorter of two spans. -/
def min (a b : Span) : Span := ⟨Nat.min a.nanos b.nanos⟩

/-- The seconds rounded up, computed in words of 64 bits: sums wrap around. -/
def secondsWord (d : Span) : UInt64 :=
  if 0 < d.subseconds then UInt64.ofNat d.seconds + 1 else UInt64.ofNat d.seconds

/-- The longest span whose seconds, rounded up, fit a word of 64 bits. No two instants of
    the calendar are that far apart. -/
def longest : Span := ofSeconds (UInt64.size - 1)

/-- The seconds to hold something for that has this time left. A span beyond the longest
    one, which no expiry on the calendar leaves, counts as the longest. -/
def secondsToHold (d : Span) : Nat := (d.min longest).secondsWord.toNat

/-- Rounding up reaches the span and overshoots by less than a second. -/
theorem secondsRoundedUp_bounds (d : Span) :
    d.nanos ≤ d.secondsRoundedUp * nanosPerSecond ∧
      d.secondsRoundedUp * nanosPerSecond < d.nanos + nanosPerSecond := by
  unfold secondsRoundedUp subseconds seconds nanosPerSecond
  by_cases h : 0 < d.nanos % 1000000000
  · rw [if_pos h]; omega
  · rw [if_neg h]; omega

theorem secondsRoundedUp_lt_of_le {d : Span} (h : d.nanos ≤ longest.nanos) :
    d.secondsRoundedUp < UInt64.size := by
  obtain ⟨-, hshort⟩ := d.secondsRoundedUp_bounds
  simp only [longest, ofSeconds, nanosPerSecond, UInt64.size] at h hshort ⊢
  omega

/-- Words lose what goes beyond their size, and nothing else. -/
theorem toNat_secondsWord (d : Span) :
    d.secondsWord.toNat = d.secondsRoundedUp % UInt64.size := by
  unfold secondsWord secondsRoundedUp
  split
  · rw [UInt64.toNat_add, UInt64.toNat_ofNat', Nat.mod_add_mod]
    rfl
  · exact UInt64.toNat_ofNat'

/-- The sum of words never wraps around up to the longest span: a started second leaves
    room for one more. -/
theorem toNat_secondsWord_of_le {d : Span} (h : d.nanos ≤ longest.nanos) :
    d.secondsWord.toNat = d.secondsRoundedUp := by
  rw [toNat_secondsWord, Nat.mod_eq_of_lt (secondsRoundedUp_lt_of_le h)]

theorem secondsToHold_eq (d : Span) : d.secondsToHold = (d.min longest).secondsRoundedUp :=
  toNat_secondsWord_of_le (Nat.min_le_right d.nanos longest.nanos)

theorem secondsToHold_of_le {d : Span} (h : d.nanos ≤ longest.nanos) :
    d.secondsToHold = d.secondsWord.toNat := by
  have hmin : d.min longest = d := congrArg mk (Nat.min_eq_left h)
  rw [secondsToHold, hmin]

end Span

/-! ## Instants -/

/-- A point in time, in nanoseconds since the epoch. -/
structure Instant where
  nanos : Nat
deriving DecidableEq, Repr, Inhabited

namespace Instant

/-- The last second of the calendar: the largest signed 64-bit count. -/
def lastSecond : Nat := 9223372036854775807

/-- An instant is on the calendar when its whole seconds fit a signed 64-bit
    count. -/
def onCalendar (t : Instant) : Bool := t.nanos / nanosPerSecond ≤ lastSecond

/-- The clock reading `d` after `t`. -/
def advance (t : Instant) (d : Span) : Instant := ⟨t.nanos + d.nanos⟩

/-- The instant `d` after `t`, if the calendar reaches that far. -/
def after? (t : Instant) (d : Span) : Option Instant :=
  if (t.advance d).onCalendar then some (t.advance d) else none

/-- The span from `t` up to a later instant; `none` unless `later` is strictly
    later. -/
def until? (t later : Instant) : Option Span :=
  if t.nanos < later.nanos then some ⟨later.nanos - t.nanos⟩ else none

theorem after?_eq_some_iff {t u : Instant} {d : Span} :
    t.after? d = some u ↔ u = t.advance d ∧ (t.advance d).onCalendar = true := by
  unfold after?
  by_cases h : (t.advance d).onCalendar = true
  · simp [h, eq_comm]
  · simp [h]

theorem until?_isSome_iff {t u : Instant} : (t.until? u).isSome ↔ t.nanos < u.nanos := by
  unfold until?
  split <;> simp_all

theorem until?_eq_some_iff {t u : Instant} {d : Span} :
    t.until? u = some d ↔ t.nanos < u.nanos ∧ t.nanos + d.nanos = u.nanos := by
  unfold until?
  obtain ⟨n⟩ := d
  by_cases h : t.nanos < u.nanos
  · simp [h]; omega
  · simp [h]

end Instant

end GatewayCache
