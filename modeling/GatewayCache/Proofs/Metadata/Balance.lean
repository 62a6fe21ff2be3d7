/-
  GatewayCache.Proofs.Metadata.Balance

  The counters of a recency cache, and its size, against what was done to it.

  An `Event` is one operation with its reply and the cache before and after it, and what
  became of single items is read off these. Every operation leaves the books balanced
  (`balanced_step`): a read that returned is a hit or a miss, a write that displaced
  another key is an eviction, and the size grows by keys that are new and shrinks by
  those that are displaced, removed, found expired or cleared. So they balance after any
  run (`run_counters_balance`).
-/

import GatewayCache.Proofs.Counting
import GatewayCache.Proofs.Metadata.Recency
import Mathlib.Algebra.GroupWithZero.Nat

namespace GatewayCache.RecencyCache

variable {ν : Type} {c : RecencyCache ν} {now : Instant} {key : String}

/-! ## Events -/

/-- One operation on a cache. -/
structure Event (ν : Type) where
  before : RecencyCache ν
  now : Instant
  op : Op ν
  reply : Reply ν
  after : RecencyCache ν

/-- What happens when an operation is done at an instant. -/
@[simp] def event (now : Instant) (op : Op ν) (c : RecencyCache ν) : Event ν :=
  ⟨c, now, op, (c.step now op).1, (c.step now op).2⟩

/-- All that happens in a run, in order. -/
def events : List (Instant × Op ν) → RecencyCache ν → List (Event ν)
  | [], _ => []
  | (now, op) :: ops, c => c.event now op :: events ops (c.step now op).2

namespace Event

/-- A read gave a value. -/
@[simp] def gave (e : Event ν) : Bool :=
  match e.reply with
  | .value found => found.isSome
  | _ => false

/-- A read returned without a value. -/
@[simp] def refused (e : Event ν) : Bool :=
  match e.reply with
  | .value found => found.isNone
  | .broken off => !off
  | _ => false

/-- A read returned, so it was not broken off. -/
@[simp] def returned (e : Event ν) : Bool :=
  match e.reply with
  | .value _ => true
  | .broken off => !off
  | _ => false

/-- A read found an expired item. -/
@[simp] def foundExpired (e : Event ν) : Bool :=
  match e.op with
  | .get key => (e.before.find? key).any fun i => !i.isLive e.now
  | .brokenGet key => (e.before.find? key).any fun i => !i.isLive e.now
  | _ => false

/-- A write put a key that was absent. -/
@[simp] def introduced (e : Event ν) : Bool :=
  match e.op with
  | .set key _ => (e.before.find? key).isNone && (e.after.find? key).isSome
  | _ => false

/-- A write took another key away. -/
@[simp] def displaced (e : Event ν) : Bool :=
  match e.op with
  | .set key _ => e.before.items.any fun i => i.key != key && (e.after.find? i.key).isNone
  | _ => false

/-- A removal said that the key was there. -/
@[simp] def removed (e : Event ν) : Bool :=
  match e.reply with
  | .removed any => any
  | _ => false

/-- How many items were cleared. -/
@[simp] def cleared (e : Event ν) : Nat :=
  match e.op with
  | .clear => e.before.items.countP fun i => (e.after.find? i.key).isNone
  | _ => 0

/-- The counters and the size after an operation, from those before it. -/
structure Balanced (e : Event ν) : Prop where
  hits : e.after.hits = e.before.hits + e.gave.toNat
  misses : e.after.misses = e.before.misses + e.refused.toNat
  evictions : e.after.evictions = e.before.evictions + e.displaced.toNat
  size : e.after.size + e.displaced.toNat + e.removed.toNat + e.foundExpired.toNat + e.cleared =
    e.before.size + e.introduced.toNat

end Event

/-! ## Single operations -/

/-- Keys are distinct, so at most one item is under a key. -/
theorem Tidy.length_others (tidy : c.Tidy) (key : String) :
    (c.others key).length + (c.find? key).isSome.toNat = c.items.length := by
  cases hfind : c.find? key with
  | none =>
      rw [others_eq_items hfind]
      rfl
  | some i =>
      obtain ⟨held, rfl⟩ := mem_of_find? hfind
      have hone : c.items.countP (fun j => j.key == i.key) = 1 := by
        have hcount := List.count_eq_one_of_mem tidy.distinct (List.mem_map_of_mem held)
        rwa [List.count, List.countP_map] at hcount
      have hothers : (c.others i.key).length = c.items.countP fun j => !(j.key == i.key) :=
        List.countP_eq_length_filter.symm
      have hsplit := c.items.length_eq_countP_add_countP fun j => j.key == i.key
      simp only [Bool.not_eq_true, Bool.decide_eq_false] at hsplit
      rw [hothers, hsplit, hone]
      exact Nat.add_comm _ _

/-! ### Reading -/

/-- What a read does: the item under the key is given and put in front, or dropped if it
    has expired. -/
theorem get_cases (now : Instant) (key : String) (c : RecencyCache ν) :
    (c.find? key = none ∧ c.get now key = (none, { c with misses := c.misses + 1 })) ∨
    (∃ i, c.find? key = some i ∧ i.isLive now = true ∧
      c.get now key = (some i.value, { c with items := i :: c.others key, hits := c.hits + 1 })) ∨
    ∃ i, c.find? key = some i ∧ i.isLive now = false ∧
      c.get now key = (none, { c with items := c.others key, misses := c.misses + 1 }) := by
  unfold get
  cases hfind : c.find? key with
  | none => exact .inl ⟨rfl, rfl⟩
  | some i =>
      cases hlive : i.isLive now with
      | true => exact .inr (.inl ⟨i, rfl, hlive, by simp only [hlive, if_true]⟩)
      | false => exact .inr (.inr ⟨i, rfl, hlive, by simp [hlive]⟩)

/-- A read, also one that is broken off, neither puts nor displaces nor clears. -/
theorem balanced_read (tidy : c.Tidy) {op : Op ν} (reads : op.Reads key) (now : Instant) :
    (c.event now op).Balanced := by
  have hothers := tidy.length_others key
  rcases get_cases now key c with ⟨hfind, hget⟩ | ⟨i, hfind, hlive, hget⟩ | ⟨i, hfind, hdead, hget⟩
  · rcases reads with rfl | rfl <;> constructor <;> simp [step, brokenGet_eq, hget, hfind, size]
  · rw [hfind] at hothers
    rcases reads with rfl | rfl <;> constructor <;>
      simp [step, brokenGet_eq, hget, hfind, hlive, size, ← hothers]
  · rw [hfind] at hothers
    rcases reads with rfl | rfl <;> constructor <;>
      simp [step, brokenGet_eq, hget, hfind, hdead, size, ← hothers]

/-! ### Writing -/

section

variable {value : ν} {expiresAt : Instant}

theorem set_of_room (dated : now.after? c.ttl = some expiresAt)
    (room : (c.find? key).isSome = true ∨ c.items.length < c.capacity) (value : ν) :
    c.set now key value =
      (none, { c with items := ⟨key, value, expiresAt⟩ :: c.others key }) := by
  unfold set
  rw [dated]
  cases hfind : c.find? key with
  | some i => rfl
  | none =>
      rw [hfind] at room
      have hroom : c.items.length < c.capacity := room.resolve_left Bool.false_ne_true
      simp [hroom, others_eq_items hfind]

theorem set_of_full (dated : now.after? c.ttl = some expiresAt) (absent : c.find? key = none)
    (full : c.capacity ≤ c.items.length) (value : ν) :
    c.set now key value =
      (c.items.getLast?.map (·.key), { c with
        items := ⟨key, value, expiresAt⟩ :: c.items.dropLast, evictions := c.evictions + 1 }) := by
  unfold set
  rw [dated, absent]
  simp [Nat.not_lt_of_le full]

theorem isSome_find? {i : TimedItem ν} (held : i ∈ c.items) : (c.find? i.key).isSome = true :=
  Option.isSome_iff_ne_none.2 fun hnone => find?_eq_none_iff.1 hnone i held rfl

/-- A write that leaves all items under other keys displaces none. -/
theorem displaced_eq_false
    (kept : ∀ i ∈ c.items, i.key ≠ key → i ∈ (c.set now key value).2.items) :
    (c.event now (.set key value)).displaced = false := by
  refine List.any_eq_false.2 fun i hi => ?_
  by_cases hkey : i.key = key
  · simp [hkey]
  · have hheld : ((c.set now key value).2.find? i.key).isSome = true :=
      isSome_find? (kept i hi hkey)
    have hafter : (c.event now (.set key value)).after = (c.set now key value).2 := rfl
    rw [hafter, Option.isNone_eq_false_iff.2 hheld, Bool.and_false]
    exact Bool.false_ne_true

theorem displaced_eq_true (tidy : c.Tidy) {i : TimedItem ν}
    (h : Displaces now c key value i (c.set now key value).2.items) :
    (c.event now (.set key value)).displaced = true := by
  refine List.any_eq_true.2 ⟨i, h.held, ?_⟩
  have hgone : (c.set now key value).2.find? i.key = none := find?_eq_none_iff.2 (h.gone tidy)
  have hafter : (c.event now (.set key value)).after = (c.set now key value).2 := rfl
  rw [hafter, hgone]
  simp [h.key_ne.symm]

/-- A write that puts its item introduces its key, if it was absent. -/
theorem introduced_of_front {rest : List (TimedItem ν)}
    (front : (c.set now key value).2.items = ⟨key, value, expiresAt⟩ :: rest) :
    (c.event now (.set key value)).introduced = (c.find? key).isNone := by
  have hmem : ⟨key, value, expiresAt⟩ ∈ (c.set now key value).2.items :=
    front ▸ List.mem_cons_self
  show ((c.find? key).isNone && ((c.set now key value).2.find? key).isSome) = _
  rw [isSome_find? hmem, Bool.and_true]

/-- A write changes the items and evicts, and the books balance if their numbers fit. -/
theorem balanced_of_set {items : List (TimedItem ν)} {evictions : Nat}
    (hset : (c.set now key value).2 = { c with items, evictions })
    (hevictions : evictions = c.evictions + (c.event now (.set key value)).displaced.toNat)
    (hsize : items.length + (c.event now (.set key value)).displaced.toNat =
      c.items.length + (c.event now (.set key value)).introduced.toNat) :
    (c.event now (.set key value)).Balanced where
  hits := by
    show (c.set now key value).2.hits = c.hits
    rw [hset]
  misses := by
    show (c.set now key value).2.misses = c.misses
    rw [hset]
  evictions := by
    show (c.set now key value).2.evictions = _
    rw [hset]
    exact hevictions
  size := by
    show (c.set now key value).2.items.length + _ + 0 + 0 + 0 = _
    rw [hset]
    exact hsize

theorem balanced_set (tidy : c.Tidy) (now : Instant) (key : String) (value : ν) :
    (c.event now (.set key value)).Balanced := by
  cases hdated : now.after? c.ttl with
  | none =>
      have hset : c.set now key value = (none, c) := set_of_undated hdated key value
      have hkept : (c.event now (.set key value)).displaced = false :=
        displaced_eq_false fun i hi _ => by rwa [hset]
      have hold : (c.event now (.set key value)).introduced = false := by
        show ((c.find? key).isNone && ((c.set now key value).2.find? key).isSome) = false
        rw [hset]
        cases c.find? key <;> rfl
      exact balanced_of_set (congrArg Prod.snd hset) (by rw [hkept]; rfl) (by rw [hkept, hold])
  | some expiresAt =>
      by_cases hroom : (c.find? key).isSome = true ∨ c.items.length < c.capacity
      · have hset := set_of_room hdated hroom value
        have hkept : (c.event now (.set key value)).displaced = false :=
          displaced_eq_false fun i hi hkey => by
            rw [hset]
            exact List.mem_cons_of_mem _ (mem_others.2 ⟨hi, hkey⟩)
        have hnew := introduced_of_front (congrArg (·.2.items) hset)
        have hothers := tidy.length_others key
        refine balanced_of_set (congrArg Prod.snd hset) (by rw [hkept]; rfl) ?_
        -- The new item takes the place of the old one under its key, if there was one.
        rw [hkept, hnew, List.length_cons, ← hothers]
        cases c.find? key <;> rfl
      · obtain ⟨hheld, hfull⟩ := not_or.1 hroom
        have absent : c.find? key = none := by simpa using hheld
        have full : c.capacity ≤ c.items.length := Nat.le_of_not_lt hfull
        have hset := set_of_full hdated absent full value
        obtain ⟨i, displaces⟩ := exists_displaces tidy value hdated absent full
        have hgone := displaced_eq_true tidy displaces
        have hnew := introduced_of_front (congrArg (·.2.items) hset)
        have hroomy := tidy.roomy
        refine balanced_of_set (congrArg Prod.snd hset) (by rw [hgone]; rfl) ?_
        rw [hgone, hnew, absent, List.length_cons, List.length_dropLast]
        simp only [Option.isNone_none, Bool.toNat_true]
        omega

end

/-! ### Any operation -/

theorem balanced_step (tidy : c.Tidy) (now : Instant) (op : Op ν) : (c.event now op).Balanced := by
  cases op with
  | get key => exact balanced_read tidy (.inl rfl) now
  | brokenGet key => exact balanced_read tidy (.inr rfl) now
  | set key value => exact balanced_set tidy now key value
  | purge key =>
      have hothers := tidy.length_others key
      exact ⟨rfl, rfl, rfl, hothers⟩
  | clear =>
      have hall : c.items.countP (fun i => ((c.clear.find? i.key).isNone)) = c.items.length :=
        List.countP_eq_length.2 fun i _ => rfl
      exact ⟨rfl, rfl, rfl, (Nat.zero_add _).trans hall⟩

/-! ## Runs -/

/-- The counters and the size after some events, from those before them. -/
structure BalancedOver (history : List (Event ν)) (c c' : RecencyCache ν) : Prop where
  hits : c'.hits = c.hits + history.countP Event.gave
  misses : c'.misses = c.misses + history.countP Event.refused
  evictions : c'.evictions = c.evictions + history.countP Event.displaced
  size : c'.size + history.countP Event.displaced + history.countP Event.removed +
      history.countP Event.foundExpired + (history.map Event.cleared).sum =
    c.size + history.countP Event.introduced

theorem balanced_run (ops : List (Instant × Op ν)) (tidy : c.Tidy) :
    BalancedOver (events ops c) c (run ops c).2 := by
  induction ops generalizing c with
  | nil => exact ⟨rfl, rfl, rfl, rfl⟩
  | cons o ops ih =>
      obtain ⟨now, op⟩ := o
      obtain ⟨hhits, hmisses, hevictions, hsize⟩ := balanced_step tidy now op
      obtain ⟨hhits', hmisses', hevictions', hsize'⟩ := ih (tidy.step now op)
      have hrun : (run ((now, op) :: ops) c).2 = (run ops (c.step now op).2).2 := rfl
      have hafter : (c.event now op).after = (c.step now op).2 := rfl
      have hbefore : (c.event now op).before = c := rfl
      rw [hafter, hbefore] at hhits hmisses hevictions hsize
      rw [hrun]
      constructor
      all_goals
        simp only [events, countP_cons_toNat, List.map_cons, List.sum_cons]
        omega

/-- A read that returned gave a value or not. -/
theorem countP_returned (history : List (Event ν)) :
    history.countP Event.returned =
      history.countP Event.gave + history.countP Event.refused := by
  have heach : ∀ e : Event ν, e.returned.toNat = e.gave.toNat + e.refused.toNat := by
    intro e
    unfold Event.returned Event.gave Event.refused
    cases e.reply with
    | value found => cases found <;> rfl
    | broken off => cases off <;> rfl
    | _ => rfl
  induction history with
  | nil => rfl
  | cons e history ih =>
      simp only [countP_cons_toNat, heach, ih]
      omega

/-- Whatever the lifetime of values and the room, and whatever was done to a cache, reads
    that are broken off included: its keys are distinct and there is room for its items;
    hits and misses are the reads that returned, with and without a value; evictions are
    the writes that displaced another key; and its size is the number of writes that put
    an absent key, less the evictions, the removals that found their key, the reads that
    found an expired item, and what was cleared. -/
theorem run_counters_balance (ttl : Span) (capacity : Nat) (ops : List (Instant × Op ν)) :
    let c := (run ops (create ttl capacity)).2
    let history := events ops (create ttl capacity)
    (c.items.map (·.key)).Nodup ∧ c.size ≤ max 1 capacity ∧
      c.hits = history.countP Event.gave ∧ c.misses = history.countP Event.refused ∧
      c.hits + c.misses = history.countP Event.returned ∧
      c.evictions = history.countP Event.displaced ∧
      c.size + c.evictions + history.countP Event.removed + history.countP Event.foundExpired +
        (history.map Event.cleared).sum = history.countP Event.introduced := by
  intro c history
  have hfresh : (create ttl capacity : RecencyCache ν).Tidy := tidy_create ttl capacity
  have htidy : c.Tidy := tidy_run ops hfresh
  have hcapacity : c.capacity = max capacity 1 := (settings_run ops (create ttl capacity)).1
  obtain ⟨hhits, hmisses, hevictions, hsize⟩ := balanced_run ops hfresh
  -- The books start empty.
  have hnone : (create ttl capacity : RecencyCache ν).size = 0 := rfl
  have hzero : (create ttl capacity : RecencyCache ν).hits = 0 ∧
      (create ttl capacity : RecencyCache ν).misses = 0 ∧
      (create ttl capacity : RecencyCache ν).evictions = 0 := ⟨rfl, rfl, rfl⟩
  rw [hzero.1, Nat.zero_add] at hhits
  rw [hzero.2.1, Nat.zero_add] at hmisses
  rw [hzero.2.2, Nat.zero_add] at hevictions
  rw [hnone, Nat.zero_add, ← hevictions] at hsize
  refine ⟨htidy.distinct, ?_, hhits, hmisses, ?_, hevictions, hsize⟩
  · rw [Nat.max_comm, ← hcapacity]
    exact htidy.fits
  · rw [countP_returned, ← hhits, ← hmisses]

end GatewayCache.RecencyCache
