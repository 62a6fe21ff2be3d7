/-
  GatewayCache.Proofs.Dict.Parts

  Parts of a map, and how many keys they have.

  `Dict.filter` cuts a part out of a map. Cutting twice is cutting once by both
  conditions, only the entries of the map matter for a condition, and a part and the
  rest have together as many keys as the map. Maps with the same values under all keys
  are the same (`ext_get?`).
-/

import GatewayCache.Dict
import Mathlib.Data.List.Basic
import Mathlib.Data.List.Sort

namespace GatewayCache.Dict

variable {α : Type}

/-- Maps with the same values under all keys are the same. -/
theorem ext_get? {m n : Dict α} (h : ∀ k, m.get? k = n.get? k) : m = n := by
  have nodup : ∀ m : Dict α, m.entries.Nodup := fun m =>
    m.sorted.imp fun hlt => by
      rintro rfl
      exact String.lt_irrefl _ hlt
  have hperm : m.entries.Perm n.entries := by
    rw [List.perm_ext_iff_of_nodup (nodup m) (nodup n)]
    intro e
    rw [← get?_eq_some_iff (k := e.1) (v := e.2), h, get?_eq_some_iff]
  apply ext
  -- Both are in the order of their keys, and no two keys come before each other.
  exact hperm.eq_of_pairwise
    (fun a b _ _ hab hba => absurd (String.lt_trans hab hba) (String.lt_irrefl _)) m.sorted n.sorted

theorem filter_congr {m : Dict α} {p q : String → α → Bool}
    (h : ∀ k v, m.get? k = some v → p k v = q k v) : m.filter p = m.filter q := by
  apply ext
  exact List.filter_congr fun e he => h e.1 e.2 (get?_of_mem_entries he)

theorem filter_true (m : Dict α) : (m.filter fun _ _ => true) = m := by
  apply ext
  exact List.filter_eq_self.2 fun _ _ => rfl

theorem filter_filter (m : Dict α) (p q : String → α → Bool) :
    (m.filter p).filter q = m.filter fun k v => p k v && q k v := by
  apply ext
  simp only [filter, List.filter_filter, Bool.and_comm]

theorem get?_filter_key (m : Dict α) (p : String → Bool) (k : String) :
    (m.filter fun k _ => p k).get? k = if p k then m.get? k else none := by
  rw [get?_filter]
  cases m.get? k with
  | none => cases p k <;> rfl
  | some v => rw [Option.filter_some]

theorem contains_filter (m : Dict α) (p : String → Bool) (k : String) :
    (m.filter fun k _ => p k).contains k = (p k && m.contains k) := by
  rw [contains, contains, get?_filter_key]
  cases p k <;> rfl

/-- A part and the rest have together as many keys as the whole. -/
theorem size_filter_add (m : Dict α) (p : String → α → Bool) :
    (m.filter p).size + (m.filter fun k v => !p k v).size = m.size :=
  (List.length_eq_length_filter_add fun e : String × α => p e.1 e.2).symm

theorem nodup_keys (m : Dict α) : m.keys.Nodup :=
  (List.pairwise_map.2 m.sorted).imp String.ne_of_lt

theorem mem_keys_iff {m : Dict α} {k : String} : k ∈ m.keys ↔ m.contains k = true := by
  rw [keys, List.mem_map, contains, Option.isSome_iff_exists]
  constructor
  · rintro ⟨⟨k', v⟩, hmem, rfl⟩
    exact ⟨v, get?_of_mem_entries hmem⟩
  · rintro ⟨v, hget⟩
    exact ⟨(k, v), mem_entries_of_get? hget, rfl⟩

/-- A key is in a map once or not at all. -/
theorem size_filter_key (m : Dict α) (k : String) :
    (m.filter fun k' _ => k' == k).size = if m.contains k then 1 else 0 := by
  have hcount : (m.filter fun k' _ => k' == k).size = m.keys.count k := by
    rw [keys, List.count, List.countP_map, List.countP_eq_length_filter]
    rfl
  simp only [hcount, m.nodup_keys.count, mem_keys_iff]

theorem contains_eq_true_iff {m : Dict α} {k : String} :
    m.contains k = true ↔ ∃ v, m.get? k = some v := by
  rw [contains, Option.isSome_iff_exists]

theorem contains_eq_false_iff {m : Dict α} {k : String} :
    m.contains k = false ↔ m.get? k = none := by
  rw [contains, Option.isSome_eq_false_iff, Option.isNone_iff_eq_none]

theorem size_filter_le (m : Dict α) (p : String → α → Bool) : (m.filter p).size ≤ m.size :=
  List.length_filter_le _ m.entries

theorem size_erase (m : Dict α) (k : String) :
    (m.erase k).size = m.size - if m.contains k then 1 else 0 := by
  have hsplit := m.size_filter_add fun k' _ => k' == k
  rw [size_filter_key] at hsplit
  exact Nat.eq_sub_of_add_eq' hsplit

theorem size_insert (m : Dict α) (k : String) (v : α) :
    (m.insert k v).size = (m.erase k).size + 1 := by
  have herase : (m.insert k v).erase k = m.erase k := by
    apply ext_get?
    intro k'
    rw [get?_erase, get?_erase, get?_insert]
    split <;> rfl
  have hthere : (m.insert k v).contains k = true :=
    contains_eq_true_iff.2 ⟨v, by rw [get?_insert, if_pos rfl]⟩
  have hsplit := (m.insert k v).size_filter_add fun k' _ => k' == k
  rw [size_filter_key, if_pos hthere] at hsplit
  rw [← herase, ← hsplit, Nat.add_comm]
  rfl

end GatewayCache.Dict
