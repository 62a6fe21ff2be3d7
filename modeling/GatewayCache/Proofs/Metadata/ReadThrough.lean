/-
  GatewayCache.Proofs.Metadata.ReadThrough

  A recency cache in front of a source that may answer anything.

  What passes between the two is written down in notes: what the source was asked and
  told, and what was forgotten. Consulting the cache asks the source only if no live
  value is held. So the source never answers about a key that is held, and every item
  stems from the last answer about its key (`Backed.consult`), even where the calendar
  has no room to put a new one. An answer that is given is then in force: it is the
  last one of the source, not forgotten since, and it was given right now or its time
  is not over (`inForce_of_consult`).
-/

import GatewayCache.Fault
import GatewayCache.Proofs.Metadata.LastWrite

namespace GatewayCache

/-! ## Notes -/

/-- What passes between a cache and the source behind it. -/
inductive Note (ν : Type) where
  /-- The source was asked about a key and answered. -/
  | told (key : String) (answer : Except Fault ν)
  /-- All that is known about a key was declared worthless. -/
  | forgot (key : String)

namespace Note

variable {ν : Type}

/-- Whether a note puts all earlier answers about a key out of force: a new answer, or
    that the key was forgotten. A fault is no answer. -/
def outdates (key : String) : Note ν → Bool
  | .told k (.ok _) => k == key
  | .told _ (.error _) => false
  | .forgot k => k == key

/-- The note that was made at an instant, if one was. -/
def stamped (now : Instant) (note : Option (Note ν)) : List (Instant × Note ν) :=
  (note.map fun n => (now, n)).toList

/-- The last answer about a key is this value, given at this instant, and the key was
    not forgotten since. -/
def LastTold (notes : List (Instant × Note ν)) (key : String) (value : ν) (told : Instant) :
    Prop :=
  ∃ before after, notes = before ++ (told, .told key (.ok value)) :: after ∧
    ∀ n ∈ after, n.2.outdates key = false

/-- The value is the last answer about the key, not forgotten since, and it was given in
    the call at hand or less than `lifetime` ago. -/
def InForce (notes : List (Instant × Note ν)) (call : Option (Note ν)) (lifetime : Nat)
    (now : Instant) (key : String) (value : ν) : Prop :=
  ∃ told, LastTold (notes ++ stamped now call) key value told ∧
    (call = some (.told key (.ok value)) ∨ now.nanos < told.nanos + lifetime)

variable {notes : List (Instant × Note ν)} {key : String} {value : ν} {told now : Instant}

theorem lastTold_concat (notes : List (Instant × Note ν)) (key : String) (value : ν)
    (now : Instant) : LastTold (notes ++ [(now, .told key (.ok value))]) key value now :=
  ⟨notes, [], rfl, nofun⟩

theorem LastTold.stamped {note : Option (Note ν)} (h : LastTold notes key value told)
    (hnote : ∀ n, note = some n → n.outdates key = false) :
    LastTold (notes ++ Note.stamped now note) key value told := by
  obtain ⟨before, after, rfl, kept⟩ := h
  refine ⟨before, after ++ Note.stamped now note, by simp, fun n hn => ?_⟩
  rcases List.mem_append.1 hn with hn | hn
  · exact kept n hn
  · obtain ⟨m, hm, rfl⟩ := Option.map_eq_some_iff.1 (Option.mem_toList.1 hn)
    exact hnote m hm

theorem outdates_told_of_ne {k : String} (h : k ≠ key) (answer : Except Fault ν) :
    outdates key (.told k answer) = false := by
  cases answer with
  | error e => rfl
  | ok v => exact beq_false_of_ne h

end Note

namespace RecencyCache

open Note

variable {ν : Type} {c : RecencyCache ν} {now : Instant} {key : String}
  {worth : ν → Bool} {told : Except Fault ν} {notes : List (Instant × Note ν)}

/-! ## Consulting -/

/-- What is answered about a key where the source would be told to answer `told`: the
    live value that is held, or else what the source says, which is then held if it is
    worth it. -/
def consult (worth : ν → Bool) (told : Except Fault ν) (now : Instant) (key : String)
    (c : RecencyCache ν) : Except Fault ν × RecencyCache ν :=
  match (c.get now key).1, told with
  | some value, _ => (.ok value, (c.get now key).2)
  | none, .error e => (.error e, (c.get now key).2)
  | none, .ok value =>
      (.ok value,
        if worth value then ((c.get now key).2.set now key value).2 else (c.get now key).2)

/-- The note of consulting: the source is asked if no live value is held. -/
def consulted (told : Except Fault ν) (now : Instant) (key : String) (c : RecencyCache ν) :
    Option (Note ν) :=
  if (c.get now key).1.isNone then some (.told key told) else none

theorem consulted_of_hit {value : ν} (hget : (c.get now key).1 = some value)
    (told : Except Fault ν) : c.consulted told now key = none := by
  rw [consulted, hget]
  rfl

theorem consulted_of_miss (hmiss : (c.get now key).1 = none) (told : Except Fault ν) :
    c.consulted told now key = some (.told key told) := by
  rw [consulted, hmiss]
  rfl

theorem ttl_get (now : Instant) (key : String) (c : RecencyCache ν) :
    (c.get now key).2.ttl = c.ttl :=
  (settings_step now (.get key) c).2

theorem ttl_set (now : Instant) (key : String) (value : ν) (c : RecencyCache ν) :
    (c.set now key value).2.ttl = c.ttl :=
  (settings_step now (.set key value) c).2

theorem ttl_consult (worth : ν → Bool) (told : Except Fault ν) (now : Instant) (key : String)
    (c : RecencyCache ν) : (c.consult worth told now key).2.ttl = c.ttl := by
  unfold consult
  split
  · exact ttl_get now key c
  · exact ttl_get now key c
  · split
    · rw [ttl_set, ttl_get]
    · exact ttl_get now key c

/-- Reading keeps or drops items; without a live value none is left under the key. -/
theorem mem_get {i : TimedItem ν} (hi : i ∈ (c.get now key).2.items) :
    i ∈ c.items ∧ ((c.get now key).1 = none → i.key ≠ key) := by
  unfold get at hi ⊢
  cases hfind : c.find? key with
  | none =>
      rw [hfind] at hi
      exact ⟨hi, fun _ => find?_eq_none_iff.1 hfind i hi⟩
  | some j =>
      obtain ⟨held, -⟩ := mem_of_find? hfind
      rw [hfind] at hi
      cases hlive : j.isLive now with
      | true =>
          simp only [hlive, if_true, List.mem_cons] at hi ⊢
          rcases hi with rfl | hi
          · exact ⟨held, nofun⟩
          · exact ⟨(mem_others.1 hi).1, nofun⟩
      | false =>
          simp only [hlive, Bool.false_eq_true, if_false] at hi ⊢
          exact ⟨(mem_others.1 hi).1, fun _ => (mem_others.1 hi).2⟩

/-- An item that is held after consulting was just told by the source, or was held
    before, and then not under the key if the source was asked. -/
theorem mem_consult {i : TimedItem ν} (hi : i ∈ (c.consult worth told now key).2.items) :
    (c.consulted told now key = some (.told i.key (.ok i.value)) ∧
        i.expiresAt = now.advance c.ttl) ∨
      (i ∈ c.items ∧ ((c.get now key).1 = none → i.key ≠ key)) := by
  unfold consult at hi
  split at hi
  · exact .inr (mem_get hi)
  · exact .inr (mem_get hi)
  next value hmiss =>
    split at hi
    · rcases written_or_kept (moves_set now key value (c.get now key).2) hi with
        ⟨hset, hdated⟩ | ⟨held, -⟩
      · obtain ⟨rfl, rfl⟩ := Op.set.inj hset
        rw [ttl_get] at hdated
        exact .inl ⟨consulted_of_miss hmiss _, (Instant.after?_eq_some_iff.1 hdated).1⟩
      · exact .inr (mem_get held)
    · exact .inr (mem_get hi)

/-! ## Items and the answers behind them -/

/-- Every item stems from the last answer about its key, and expires when the lifetime
    of values has passed since then. -/
def Backed (notes : List (Instant × Note ν)) (c : RecencyCache ν) : Prop :=
  ∀ i ∈ c.items, ∃ told, LastTold notes i.key i.value told ∧ i.expiresAt = told.advance c.ttl

theorem backed_create (ttl : Span) (capacity : Nat) :
    Backed [] (create ttl capacity : RecencyCache ν) := nofun

theorem Backed.consult (h : Backed notes c) (worth : ν → Bool) (told : Except Fault ν)
    (now : Instant) (key : String) :
    Backed (notes ++ stamped now (c.consulted told now key)) (c.consult worth told now key).2 := by
  intro i hi
  rw [ttl_consult]
  rcases mem_consult hi with ⟨htold, hexpiry⟩ | ⟨held, hkey⟩
  · rw [htold]
    exact ⟨now, lastTold_concat notes i.key i.value now, hexpiry⟩
  · obtain ⟨earlier, last, hexpiry⟩ := h i held
    refine ⟨earlier, last.stamped fun n hn => ?_, hexpiry⟩
    -- If the source was asked, then about a key under which nothing is left.
    cases hget : (c.get now key).1 with
    | some value =>
        rw [consulted_of_hit hget] at hn
        cases hn
    | none =>
        rw [consulted_of_miss hget] at hn
        rw [← Option.some.inj hn]
        exact outdates_told_of_ne (hkey hget).symm told

theorem Backed.purge (h : Backed notes c) (now : Instant) (key : String) :
    Backed (notes ++ stamped now (some (.forgot key))) (c.purge key).2 := by
  intro i hi
  obtain ⟨held, hne⟩ := mem_others.1 hi
  obtain ⟨earlier, last, hexpiry⟩ := h i held
  refine ⟨earlier, last.stamped fun n hn => ?_, hexpiry⟩
  rw [← Option.some.inj hn]
  exact beq_false_of_ne hne.symm

theorem Backed.idle (h : Backed notes c) (now : Instant) :
    Backed (notes ++ stamped now none) c := by
  rw [show stamped now (none : Option (Note ν)) = [] from rfl, List.append_nil]
  exact h

/-! ## Answers -/

/-- An answer is the last one of the source and in force. -/
theorem inForce_of_consult (h : Backed notes c) {value : ν}
    (hanswer : (c.consult worth told now key).1 = .ok value) :
    InForce notes (c.consulted told now key) c.ttl.nanos now key value := by
  unfold RecencyCache.consult at hanswer
  split at hanswer
  next held hget =>
    obtain rfl := Except.ok.inj hanswer
    obtain ⟨i, hi, rfl, rfl, live⟩ := exists_item_of_get hget
    obtain ⟨earlier, last, hexpiry⟩ := h i hi
    have hlive : now.nanos < i.expiresAt.nanos := of_decide_eq_true live
    rw [hexpiry] at hlive
    rw [consulted_of_hit hget]
    exact ⟨earlier, last.stamped nofun, .inr hlive⟩
  · cases hanswer
  next said hmiss =>
    obtain rfl := Except.ok.inj hanswer
    rw [consulted_of_miss hmiss]
    exact ⟨now, lastTold_concat notes key said now, .inl rfl⟩

/-- A fault that is answered comes from the source, which was just asked. -/
theorem consulted_of_error {e : Fault} (hanswer : (c.consult worth told now key).1 = .error e) :
    c.consulted told now key = some (.told key (.error e)) := by
  unfold consult at hanswer
  split at hanswer
  · cases hanswer
  next fault hmiss =>
    obtain rfl := Except.error.inj hanswer
    exact consulted_of_miss hmiss _
  · cases hanswer

end RecencyCache

end GatewayCache
