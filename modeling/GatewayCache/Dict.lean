/-
  GatewayCache.Dict

  Finite maps from texts to values, kept in the order of their keys.

  The keys are ordered by their code points, which is also the order of their
  bytes. Every operation keeps the entries sorted, so two maps with the same
  entries are equal, and `get?` is the view that the other operations are
  described by.
-/

namespace GatewayCache

/-- A finite map with text keys in increasing order. -/
structure Dict (α : Type) where
  entries : List (String × α)
  sorted : entries.Pairwise fun a b => a.1 < b.1

namespace Dict

variable {α β : Type}

@[ext] theorem ext {m n : Dict α} (h : m.entries = n.entries) : m = n := by
  cases m; cases n; simp_all

instance [DecidableEq α] : DecidableEq (Dict α) := fun m n =>
  if h : m.entries = n.entries then isTrue (ext h) else isFalse fun e => h (e ▸ rfl)

instance [Repr α] : Repr (Dict α) := ⟨fun m n => reprPrec m.entries n⟩

/-! ## Operations -/

/-- The map without entries. -/
def empty : Dict α := ⟨[], .nil⟩

instance : Inhabited (Dict α) := ⟨empty⟩

/-- How many keys the map has. -/
def size (m : Dict α) : Nat := m.entries.length

/-- The keys in order. -/
def keys (m : Dict α) : List String := m.entries.map (·.1)

/-- The value of a key. -/
def get? (m : Dict α) (k : String) : Option α := (m.entries.find? (·.1 == k)).map (·.2)

/-- Whether the map has a key. -/
def contains (m : Dict α) (k : String) : Bool := (m.get? k).isSome

/-- The entries that satisfy `p`. -/
def filter (m : Dict α) (p : String → α → Bool) : Dict α :=
  ⟨m.entries.filter fun e => p e.1 e.2, m.sorted.filter _⟩

/-- The map without a key. -/
def erase (m : Dict α) (k : String) : Dict α := m.filter fun k' _ => k' != k

/-- The map with a key set to a value. -/
def insert (m : Dict α) (k : String) (v : α) : Dict α where
  entries :=
    m.entries.filter (fun e => decide (e.1 < k)) ++
      (k, v) :: m.entries.filter (fun e => decide (k < e.1))
  sorted := by
    rw [List.pairwise_append, List.pairwise_cons]
    refine ⟨m.sorted.filter _, ⟨?_, m.sorted.filter _⟩, ?_⟩
    · intro e he
      simpa using (List.mem_filter.1 he).2
    · intro a ha b hb
      have hak : a.1 < k := by simpa using (List.mem_filter.1 ha).2
      rcases List.mem_cons.1 hb with rfl | hb
      · exact hak
      · exact String.lt_trans hak (by simpa using (List.mem_filter.1 hb).2)

/-- The map built from pairs; of two pairs with one key the later counts. -/
def ofList (pairs : List (String × α)) : Dict α :=
  pairs.foldl (fun m p => m.insert p.1 p.2) empty

/-! ## The view `get?` -/

@[simp] theorem get?_empty (k : String) : (empty : Dict α).get? k = none := rfl

theorem mem_entries_of_get? {m : Dict α} {k : String} {v : α} (h : m.get? k = some v) :
    (k, v) ∈ m.entries := by
  obtain ⟨e, he, rfl⟩ := Option.map_eq_some_iff.1 h
  have hk : e.1 = k := by simpa using List.find?_some he
  simpa [← hk] using List.mem_of_find?_eq_some he

/-- Keys occur once: an entry of the map is what `get?` finds. -/
theorem get?_of_mem_entries {m : Dict α} {k : String} {v : α} (h : (k, v) ∈ m.entries) :
    m.get? k = some v := by
  obtain ⟨entries, sorted⟩ := m
  simp only [get?]
  induction entries with
  | nil => cases h
  | cons e es ih =>
      rw [List.pairwise_cons] at sorted
      by_cases hk : e.1 = k
      · have he : e = (k, v) := by
          rcases List.mem_cons.1 h with h | h
          · exact h.symm
          · exact absurd (hk ▸ sorted.1 _ h) (String.lt_irrefl _)
        simp [he]
      · have hmem : (k, v) ∈ es := by
          rcases List.mem_cons.1 h with h | h
          · exact absurd (by rw [← h]) hk
          · exact h
        rw [List.find?_cons_of_neg (by simpa using hk)]
        exact ih sorted.2 hmem

theorem get?_eq_some_iff {m : Dict α} {k : String} {v : α} :
    m.get? k = some v ↔ (k, v) ∈ m.entries :=
  ⟨mem_entries_of_get?, get?_of_mem_entries⟩

theorem mem_entries_filter {m : Dict α} {p : String → α → Bool} {k : String} {v : α} :
    (k, v) ∈ (m.filter p).entries ↔ (k, v) ∈ m.entries ∧ p k v = true := by
  simp [filter, List.mem_filter]

theorem get?_filter (m : Dict α) (p : String → α → Bool) (k : String) :
    (m.filter p).get? k = (m.get? k).filter (p k) := by
  apply Option.ext
  intro v
  rw [get?_eq_some_iff, mem_entries_filter, Option.filter_eq_some_iff, get?_eq_some_iff]

theorem get?_erase (m : Dict α) (k k' : String) :
    (m.erase k).get? k' = if k' = k then none else m.get? k' := by
  rw [erase, get?_filter]
  by_cases h : k' = k
  · cases m.get? k' <;> simp [h, Option.filter]
  · cases m.get? k' <;> simp [h, Option.filter]

theorem mem_entries_insert {m : Dict α} {k k' : String} {v v' : α} :
    (k', v') ∈ (m.insert k v).entries ↔ (k' = k ∧ v' = v) ∨ (k' ≠ k ∧ (k', v') ∈ m.entries) := by
  simp only [insert, List.mem_append, List.mem_cons, List.mem_filter, decide_eq_true_eq,
    Prod.mk.injEq]
  constructor
  · rintro (⟨hm, hlt⟩ | h | ⟨hm, hlt⟩)
    · exact .inr ⟨fun e => String.lt_irrefl _ (e ▸ hlt), hm⟩
    · exact .inl h
    · exact .inr ⟨fun e => String.lt_irrefl _ (e ▸ hlt), hm⟩
  · rintro (h | ⟨hne, hm⟩)
    · exact .inr (.inl h)
    · rcases Std.lt_trichotomy k' k with hlt | he | hgt
      · exact .inl ⟨hm, hlt⟩
      · exact absurd he hne
      · exact .inr (.inr ⟨hm, hgt⟩)

theorem get?_insert (m : Dict α) (k k' : String) (v : α) :
    (m.insert k v).get? k' = if k' = k then some v else m.get? k' := by
  apply Option.ext
  intro w
  rw [get?_eq_some_iff, mem_entries_insert]
  by_cases h : k' = k
  · simp [h, eq_comm]
  · simp [h, get?_eq_some_iff]

end Dict

end GatewayCache
