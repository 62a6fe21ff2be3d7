/-
  GatewayCache.Proofs.Metadata.Items

  What operations do to the items of a recency cache.

  `Moves` lists all that one operation can do to the items, together with the key that
  it touches, and every operation does one of these things (`moves_step`). What is
  proved about runs rests on that list alone. The first such result: a cache stays
  tidy (`tidy_run`), so its keys are distinct and it never holds more items than it
  has room for.
-/

import GatewayCache.Metadata.RecencyCache
import Mathlib.Data.List.Induction
import Mathlib.Data.List.Nodup

namespace GatewayCache

/-- An earlier instant has a shorter span still in front of it. -/
theorem Instant.after?_isSome_of_le {t u : Instant} {d e : Span} (ht : t.nanos ≤ u.nanos)
    (hd : d.nanos ≤ e.nanos) (h : (u.after? e).isSome = true) : (t.after? d).isSome = true := by
  obtain ⟨v, hv⟩ := Option.isSome_iff_exists.1 h
  obtain ⟨-, hcalendar⟩ := after?_eq_some_iff.1 hv
  have hle : (t.advance d).nanos / nanosPerSecond ≤ (u.advance e).nanos / nanosPerSecond :=
    Nat.div_le_div_right (Nat.add_le_add ht hd)
  have hlast : (u.advance e).nanos / nanosPerSecond ≤ lastSecond := of_decide_eq_true hcalendar
  exact Option.isSome_iff_exists.2
    ⟨_, after?_eq_some_iff.2 ⟨rfl, decide_eq_true (Nat.le_trans hle hlast)⟩⟩

namespace RecencyCache

variable {ν : Type} {c : RecencyCache ν} {now : Instant} {key : String}

/-! ## Items under a key -/

theorem mem_others {i : TimedItem ν} : i ∈ c.others key ↔ i ∈ c.items ∧ i.key ≠ key := by
  simp [others]

theorem find?_eq_none_iff : c.find? key = none ↔ ∀ i ∈ c.items, i.key ≠ key := by
  simp [find?]

theorem mem_of_find? {i : TimedItem ν} (h : c.find? key = some i) : i ∈ c.items ∧ i.key = key :=
  ⟨List.mem_of_find?_eq_some h, by simpa using List.find?_some h⟩

theorem others_eq_items (absent : c.find? key = none) : c.others key = c.items :=
  List.filter_eq_self.2 fun i hi => by simpa using find?_eq_none_iff.1 absent i hi

/-! ## One operation -/

/-- Reading a key, also when that is broken off. -/
def Op.Reads (op : Op ν) (key : String) : Prop := op = .get key ∨ op = .brokenGet key

/-- The key that an operation touches: the one it writes, or the one whose live value
    it reads. -/
def Op.touched? : Op ν → Reply ν → Option String
  | .set key _, _ => some key
  | .get key, .value (some _) => some key
  | .brokenGet key, .broken true => some key
  | _, _ => none

/-- What an operation can do to the items, with the key that it touches. -/
inductive Moves (now : Instant) (c : RecencyCache ν) :
    Op ν → Option String → List (TimedItem ν) → Prop
  | missed {op : Op ν} {key : String} (reads : op.Reads key) (absent : c.find? key = none) :
      Moves now c op none c.items
  | used {op : Op ν} {i : TimedItem ν} (reads : op.Reads i.key) (held : i ∈ c.items)
      (live : i.isLive now = true) :
      Moves now c op (some i.key) (i :: c.others i.key)
  | expired {op : Op ν} {i : TimedItem ν} (reads : op.Reads i.key) (held : i ∈ c.items)
      (dead : i.isLive now = false) :
      Moves now c op none (c.others i.key)
  /-- Beyond the end of the calendar a write is left out. -/
  | leftOut {key : String} {value : ν} (undated : now.after? c.ttl = none) :
      Moves now c (.set key value) (some key) c.items
  | written {key : String} {value : ν} {expiresAt : Instant}
      (dated : now.after? c.ttl = some expiresAt)
      (room : (c.find? key).isSome = true ∨ c.items.length < c.capacity) :
      Moves now c (.set key value) (some key) (⟨key, value, expiresAt⟩ :: c.others key)
  | displaced {key : String} {value : ν} {expiresAt : Instant}
      (dated : now.after? c.ttl = some expiresAt)
      (absent : c.find? key = none) (full : c.capacity ≤ c.items.length) :
      Moves now c (.set key value) (some key) (⟨key, value, expiresAt⟩ :: c.items.dropLast)
  | purged {key : String} : Moves now c (.purge key) none (c.others key)
  | cleared : Moves now c .clear none []

/-! ### Reading -/

/-- A read that is broken off leaves the cache as the whole read does, but for the
    hit. -/
theorem brokenGet_eq (now : Instant) (key : String) (c : RecencyCache ν) :
    c.brokenGet now key = ((c.get now key).1.isSome, { (c.get now key).2 with hits := c.hits }) := by
  unfold brokenGet get
  cases c.find? key with
  | none => rfl
  | some i => cases hlive : i.isLive now <;> simp [hlive]

theorem touched?_get (key : String) (found : Option ν) :
    Op.touched? (.get key) (.value found) = if found.isSome then some key else none := by
  cases found <;> rfl

theorem touched?_brokenGet (key : String) (off : Bool) :
    Op.touched? (.brokenGet key : Op ν) (.broken off) = if off then some key else none := by
  cases off <;> rfl

theorem moves_read {op : Op ν} (reads : op.Reads key) (now : Instant) (c : RecencyCache ν) :
    Moves now c op (if (c.get now key).1.isSome then some key else none)
      (c.get now key).2.items := by
  unfold get
  cases hfind : c.find? key with
  | none => exact .missed reads hfind
  | some i =>
      obtain ⟨held, rfl⟩ := mem_of_find? hfind
      cases hlive : i.isLive now with
      | true =>
          simp only [hlive, if_true]
          exact .used reads held hlive
      | false =>
          simp only [hlive, Bool.false_eq_true, if_false]
          exact .expired reads held hlive

/-! ### Writing -/

/-- A write that the calendar has room for puts its item in front: of all others, if
    its key is held or there is room, and else of all but the last. -/
theorem items_set {expiresAt : Instant} (dated : now.after? c.ttl = some expiresAt) (key : String)
    (value : ν) :
    (((c.find? key).isSome = true ∨ c.items.length < c.capacity) ∧
        (c.set now key value).2.items = ⟨key, value, expiresAt⟩ :: c.others key) ∨
      (c.find? key = none ∧ c.capacity ≤ c.items.length ∧
        (c.set now key value).2.items = ⟨key, value, expiresAt⟩ :: c.items.dropLast) := by
  unfold set
  rw [dated]
  cases hfind : c.find? key with
  | some i => exact .inl ⟨.inl rfl, rfl⟩
  | none =>
      by_cases hroom : c.items.length < c.capacity
      · refine .inl ⟨.inr hroom, ?_⟩
        simp only [Option.isSome_none, Bool.false_eq_true, if_false, if_pos hroom]
        rw [others_eq_items hfind]
      · refine .inr ⟨rfl, Nat.le_of_not_lt hroom, ?_⟩
        simp only [Option.isSome_none, Bool.false_eq_true, if_false, if_neg hroom]

theorem set_of_undated (undated : now.after? c.ttl = none) (key : String) (value : ν) :
    c.set now key value = (none, c) := by
  rw [set, undated]

theorem moves_set (now : Instant) (key : String) (value : ν) (c : RecencyCache ν) :
    Moves now c (.set key value) (some key) (c.set now key value).2.items := by
  cases hdated : now.after? c.ttl with
  | none =>
      rw [set_of_undated hdated]
      exact .leftOut hdated
  | some expiresAt =>
      rcases items_set hdated key value with ⟨room, hitems⟩ | ⟨absent, full, hitems⟩
      · rw [hitems]
        exact .written hdated room
      · rw [hitems]
        exact .displaced hdated absent full

/-! ### Any operation -/

/-- Every operation does one of the listed things. -/
theorem moves_step (now : Instant) (op : Op ν) (c : RecencyCache ν) :
    Moves now c op (op.touched? (c.step now op).1) (c.step now op).2.items := by
  cases op with
  | get key =>
      show Moves now c _ (Op.touched? _ (.value (c.get now key).1)) (c.get now key).2.items
      rw [touched?_get]
      exact moves_read (.inl rfl) now c
  | brokenGet key =>
      show Moves now c _ (Op.touched? _ (.broken (c.brokenGet now key).1))
        (c.brokenGet now key).2.items
      rw [brokenGet_eq, touched?_brokenGet]
      exact moves_read (.inr rfl) now c
  | set key value => exact moves_set now key value c
  | purge key => exact .purged
  | clear => exact .cleared

/-- An operation leaves the room and the lifetime of values as they are. -/
theorem settings_step (now : Instant) (op : Op ν) (c : RecencyCache ν) :
    (c.step now op).2.capacity = c.capacity ∧ (c.step now op).2.ttl = c.ttl := by
  have hget : ∀ key, (c.get now key).2.capacity = c.capacity ∧ (c.get now key).2.ttl = c.ttl := by
    intro key
    unfold get
    split
    · exact ⟨rfl, rfl⟩
    · split <;> exact ⟨rfl, rfl⟩
  cases op with
  | get key => exact hget key
  | brokenGet key =>
      show (c.brokenGet now key).2.capacity = c.capacity ∧ (c.brokenGet now key).2.ttl = c.ttl
      rw [brokenGet_eq]
      exact hget key
  | set key value =>
      show (c.set now key value).2.capacity = c.capacity ∧ (c.set now key value).2.ttl = c.ttl
      unfold set
      split
      · exact ⟨rfl, rfl⟩
      · split
        · exact ⟨rfl, rfl⟩
        · split <;> exact ⟨rfl, rfl⟩
  | purge key => exact ⟨rfl, rfl⟩
  | clear => exact ⟨rfl, rfl⟩

/-! ## Runs -/

theorem settings_run (ops : List (Instant × Op ν)) (c : RecencyCache ν) :
    (run ops c).2.capacity = c.capacity ∧ (run ops c).2.ttl = c.ttl :=
  runSteps_induction (P := fun c' => c'.capacity = c.capacity ∧ c'.ttl = c.ttl)
    (fun now op c' h => (settings_step now op c').imp (·.trans h.1) (·.trans h.2)) ops ⟨rfl, rfl⟩

/-- The keys that a run touches, in order. -/
def touches (ops : List (Instant × Op ν)) (c : RecencyCache ν) : List String :=
  (ops.zip (run ops c).1).filterMap fun o => o.1.2.touched? o.2

theorem touches_concat (ops : List (Instant × Op ν)) (now : Instant) (op : Op ν)
    (c : RecencyCache ν) :
    touches (ops ++ [(now, op)]) c =
      touches ops c ++ (op.touched? ((run ops c).2.step now op).1).toList := by
  rw [touches, run, runSteps_concat, List.zip_append (length_runSteps step ops c).symm,
    List.filterMap_append]
  rfl

/-! ## Tidy caches -/

/-- The keys are distinct, and there is room for all items. -/
structure Tidy (c : RecencyCache ν) : Prop where
  distinct : (c.items.map (·.key)).Nodup
  fits : c.items.length ≤ c.capacity
  roomy : 0 < c.capacity

theorem Tidy.eq_of_key_eq (tidy : c.Tidy) {i j : TimedItem ν} (hi : i ∈ c.items)
    (hj : j ∈ c.items) (h : i.key = j.key) : i = j :=
  List.inj_on_of_nodup_map tidy.distinct hi hj h

theorem Tidy.find?_eq_some_iff (tidy : c.Tidy) {i : TimedItem ν} :
    c.find? key = some i ↔ i ∈ c.items ∧ i.key = key := by
  refine ⟨mem_of_find?, fun ⟨hi, hkey⟩ => ?_⟩
  cases hfind : c.find? key with
  | none => exact absurd hkey (find?_eq_none_iff.1 hfind i hi)
  | some j =>
      obtain ⟨hj, hjkey⟩ := mem_of_find? hfind
      rw [tidy.eq_of_key_eq hj hi (hjkey.trans hkey.symm)]

theorem tidy_create (ttl : Span) (capacity : Nat) : (create ttl capacity : RecencyCache ν).Tidy :=
  ⟨List.nodup_nil, Nat.zero_le _, Nat.le_max_right capacity 1⟩

/-- An item put in front of items with other keys has a key of its own. -/
theorem nodup_keys_cons {i : TimedItem ν} {rest : List (TimedItem ν)}
    (hrest : rest.Sublist c.items) (hkey : ∀ j ∈ rest, j.key ≠ i.key)
    (distinct : (c.items.map (·.key)).Nodup) : ((i :: rest).map (·.key)).Nodup := by
  rw [List.map_cons, List.nodup_cons]
  refine ⟨fun hmem => ?_, distinct.sublist (hrest.map _)⟩
  obtain ⟨j, hj, hjkey⟩ := List.mem_map.1 hmem
  exact hkey j hj hjkey

theorem length_others_lt {i : TimedItem ν} (held : i ∈ c.items) :
    (c.others i.key).length < c.items.length :=
  List.length_filter_lt_length_iff_exists.2 ⟨i, held, by simp⟩

theorem Tidy.step (tidy : c.Tidy) (now : Instant) (op : Op ν) : (c.step now op).2.Tidy := by
  have hmoves := moves_step now op c
  have hcapacity := (settings_step now op c).1
  generalize (c.step now op).2 = c' at hmoves hcapacity
  suffices (c'.items.map (·.key)).Nodup ∧ c'.items.length ≤ c.capacity from
    ⟨this.1, hcapacity ▸ this.2, hcapacity ▸ tidy.roomy⟩
  have hothers : ∀ k, (c.others k).Sublist c.items := fun k => List.filter_sublist
  have hfewer : ∀ k, (c.others k).length ≤ c.capacity := fun k =>
    Nat.le_trans (hothers k).length_le tidy.fits
  have hdistinct : ∀ {items : List (TimedItem ν)}, items.Sublist c.items →
      (items.map (·.key)).Nodup := fun h => tidy.distinct.sublist (h.map _)
  generalize op.touched? _ = touched, c'.items = items at hmoves ⊢
  cases hmoves with
  | missed => exact ⟨tidy.distinct, tidy.fits⟩
  | leftOut => exact ⟨tidy.distinct, tidy.fits⟩
  | @used _ i reads held live =>
      exact ⟨nodup_keys_cons (hothers _) (fun j hj => (mem_others.1 hj).2) tidy.distinct,
        Nat.le_trans (length_others_lt held) tidy.fits⟩
  | expired => exact ⟨hdistinct (hothers _), hfewer _⟩
  | purged => exact ⟨hdistinct (hothers _), hfewer _⟩
  | @written key value expiresAt dated room =>
      refine ⟨nodup_keys_cons (hothers _) (fun j hj => (mem_others.1 hj).2) tidy.distinct, ?_⟩
      rcases room with held | room
      · obtain ⟨i, hi⟩ := Option.isSome_iff_exists.1 held
        obtain ⟨hmem, rfl⟩ := mem_of_find? hi
        exact Nat.le_trans (length_others_lt hmem) tidy.fits
      · exact Nat.le_trans (Nat.succ_le_succ (hothers key).length_le) room
  | @displaced key value expiresAt dated absent full =>
      have hsub : c.items.dropLast.Sublist c.items := List.dropLast_sublist _
      refine ⟨nodup_keys_cons hsub (fun j hj => ?_) tidy.distinct, ?_⟩
      · exact find?_eq_none_iff.1 absent j (hsub.mem hj)
      · have hfits := tidy.fits
        have hroomy := tidy.roomy
        rw [List.length_cons, List.length_dropLast]
        omega
  | cleared => exact ⟨List.nodup_nil, Nat.zero_le _⟩

theorem tidy_run (ops : List (Instant × Op ν)) (tidy : c.Tidy) : (run ops c).2.Tidy :=
  runSteps_induction (P := Tidy) (fun now op _ h => h.step now op) ops tidy

end RecencyCache

end GatewayCache
