/-
  GatewayCache.Proofs.Metadata.Recency

  A recency cache displaces what was touched longest ago.

  The history of a run is the list of the keys that it touched. All items in front of
  an item were touched after the last touch of its key (`Ahead`), and each operation
  keeps that up (`Ahead.step`). So the item at the end, the only one that a write can
  displace (`kept_or_displaced`), is the one whose last touch is oldest
  (`Displaces.oldest`); and when it goes, as many other keys as there is room for were
  touched since then (`Displaces.crowded`).
-/

import GatewayCache.Proofs.Metadata.LastWrite
import Mathlib.Data.List.Dedup
import Mathlib.Data.List.DropRight
import Mathlib.Data.List.Perm.Subperm

namespace GatewayCache.RecencyCache

variable {ν : Type} {c : RecencyCache ν} {now : Instant} {key : String}

/-! ## Touches since the last touch -/

/-- The keys that a history has behind the last touch of a key; all of them, if the key
    was never touched. -/
def touchedSince (key : String) (history : List String) : List String :=
  history.rtakeWhile (· != key)

theorem touchedSince_concat_of_ne {k : String} (h : k ≠ key) (history : List String) :
    touchedSince key (history ++ [k]) = touchedSince key history ++ [k] :=
  List.rtakeWhile_concat_pos _ _ _ (bne_iff_ne.2 h)

/-- A touch of another key, or none, takes no key away. -/
theorem touchedSince_subset {touched : Option String} (h : touched ≠ some key)
    (history : List String) :
    touchedSince key history ⊆ touchedSince key (history ++ touched.toList) := by
  cases touched with
  | none => rw [Option.toList_none, List.append_nil]; exact List.Subset.refl _
  | some k =>
      have hne : k ≠ key := fun hk => h (congrArg some hk)
      rw [Option.toList_some, touchedSince_concat_of_ne hne]
      exact List.subset_append_left _ _

theorem length_le_dedup {l l' : List String} (hl : l.Nodup) (h : l ⊆ l') :
    l.length ≤ l'.dedup.length :=
  (List.Nodup.subperm hl fun _ hk => List.mem_dedup.2 (h hk)).length_le

theorem length_dedup_le {l l' : List String} (h : l ⊆ l') : l.dedup.length ≤ l'.dedup.length :=
  length_le_dedup l.nodup_dedup fun _ hk => h (List.mem_dedup.1 hk)

/-! ## Items in the order of their last touch -/

/-- The items in front of the one under the key were touched after its last touch. -/
def Ahead (key : String) (history : List String) (items : List (TimedItem ν)) : Prop :=
  items.Pairwise fun i j => j.key = key → i.key ∈ touchedSince key history

variable {history : List String} {items : List (TimedItem ν)}

theorem ahead_of_front {i : TimedItem ν} (h : ∀ j ∈ items, j.key ≠ i.key)
    (history : List String) : Ahead i.key history (i :: items) :=
  List.pairwise_cons.2 ⟨fun j hj hkey => absurd hkey (h j hj),
    List.pairwise_of_forall_mem_list fun _ _ j hj hkey => absurd hkey (h j hj)⟩

theorem Ahead.mono {history' : List String} {items' : List (TimedItem ν)}
    (h : Ahead key history items) (hsub : items'.Sublist items)
    (hsince : touchedSince key history ⊆ touchedSince key history') : Ahead key history' items' :=
  (h.sublist hsub).imp fun hij hkey => hsince (hij hkey)

/-- The item that is touched comes to the front. -/
theorem Ahead.touch {rest : List (TimedItem ν)} (h : Ahead key history items)
    (hsub : rest.Sublist items) {i : TimedItem ν} (hi : ∀ j ∈ rest, j.key ≠ i.key) :
    Ahead key (history ++ [i.key]) (i :: rest) := by
  by_cases hkey : i.key = key
  · subst hkey
    exact ahead_of_front hi _
  · have hsince := touchedSince_concat_of_ne hkey history
    refine List.pairwise_cons.2 ⟨fun j _ _ => ?_, ?_⟩
    · rw [hsince]
      exact List.mem_append_right _ (List.mem_singleton.2 rfl)
    · apply h.mono hsub
      rw [hsince]
      exact List.subset_append_left _ _

/-- An operation keeps the order up, but for a write under the key that comes too late
    for the calendar: it is a touch that moves nothing. -/
theorem Ahead.step {op : Op ν} {touched : Option String} (h : Ahead key history c.items)
    (moves : Moves now c op touched items)
    (dated : op.ends key = true → (now.after? c.ttl).isSome = true) :
    Ahead key (history ++ touched.toList) items := by
  have hothers : ∀ k, (c.others k).Sublist c.items := fun k => List.filter_sublist
  -- What touches nothing and puts nothing in leaves the order as it is.
  have hkept : ∀ {items : List (TimedItem ν)}, items.Sublist c.items →
      Ahead key (history ++ (none : Option String).toList) items := by
    intro items hsub
    exact h.mono hsub (touchedSince_subset (Option.some_ne_none key).symm history)
  cases moves with
  | missed => exact hkept (List.Sublist.refl _)
  | used => exact h.touch (hothers _) fun j hj => (mem_others.1 hj).2
  | expired => exact hkept (hothers _)
  | @leftOut k value undated =>
      have hne : k ≠ key := by
        rintro rfl
        rw [undated] at dated
        exact absurd (dated (beq_self_eq_true k)) nofun
      have hsince : (some k : Option String) ≠ some key := fun hk => hne (Option.some.inj hk)
      exact h.mono (List.Sublist.refl _) (touchedSince_subset hsince history)
  | @written k value expiresAt =>
      exact Ahead.touch (i := ⟨k, value, expiresAt⟩) h (hothers k) fun j hj => (mem_others.1 hj).2
  | @displaced k value expiresAt _ absent =>
      have hsub : c.items.dropLast.Sublist c.items := List.dropLast_sublist _
      exact Ahead.touch (i := ⟨k, value, expiresAt⟩) h hsub fun j hj =>
        find?_eq_none_iff.1 absent j (hsub.mem hj)
  | purged => exact hkept (hothers _)
  | cleared => exact hkept (List.nil_sublist _)

/-! ## Displaced items -/

/-- A write displaces the item at the end of a full cache that does not hold its key. -/
structure Displaces (now : Instant) (c : RecencyCache ν) (key : String) (value : ν)
    (i : TimedItem ν) (items : List (TimedItem ν)) : Prop where
  dated : (now.after? c.ttl).isSome = true
  absent : c.find? key = none
  full : c.capacity ≤ c.items.length
  last : c.items = c.items.dropLast ++ [i]
  left : ∃ expiresAt, items = ⟨key, value, expiresAt⟩ :: c.items.dropLast

/-- An item that an operation does not end, and does not find expired, is still there
    afterwards, unless the operation is a write that displaces it. -/
theorem kept_or_displaced (tidy : c.Tidy) {op : Op ν} {touched : Option String}
    (moves : Moves now c op touched items) {i : TimedItem ν} (held : i ∈ c.items)
    (stands : op.ends i.key = false) (live : op.Reads i.key → i.isLive now = true) :
    i ∈ items ∨ ∃ key value, op = .set key value ∧ Displaces now c key value i items := by
  have hother : ∀ {k : String}, (k == i.key) = false → i ∈ c.others k := by
    intro k hk
    exact mem_others.2 ⟨held, (beq_eq_false_iff_ne.1 hk).symm⟩
  cases moves with
  | missed => exact .inl held
  | @used _ j reads hj =>
      by_cases hkey : j.key = i.key
      · rw [tidy.eq_of_key_eq hj held hkey]
        exact .inl List.mem_cons_self
      · exact .inl (List.mem_cons_of_mem _ (hother (beq_false_of_ne hkey)))
  | @expired _ j reads hj dead =>
      by_cases hkey : j.key = i.key
      · have hlive := live (hkey ▸ reads)
        rw [← tidy.eq_of_key_eq hj held hkey, dead] at hlive
        cases hlive
      · exact .inl (hother (beq_false_of_ne hkey))
  | leftOut => exact .inl held
  | written => exact .inl (List.mem_cons_of_mem _ (hother stands))
  | @displaced k value expiresAt dated absent full =>
      -- All items stay but the last one.
      have hne : c.items ≠ [] := List.ne_nil_of_mem held
      have hsplit := List.dropLast_append_getLast hne
      have hmem := held
      rw [← hsplit, List.mem_append, List.mem_singleton] at hmem
      rcases hmem with hfront | rfl
      · exact .inl (List.mem_cons_of_mem _ hfront)
      · exact .inr ⟨k, value, rfl, dated ▸ rfl, absent, full, hsplit.symm, expiresAt, rfl⟩
  | purged => exact .inl (hother stands)
  | cleared => cases stands

/-- A write of a key that a full cache does not hold displaces some item. -/
theorem exists_displaces (tidy : c.Tidy) {expiresAt : Instant} (value : ν)
    (dated : now.after? c.ttl = some expiresAt) (absent : c.find? key = none)
    (full : c.capacity ≤ c.items.length) :
    ∃ i, Displaces now c key value i (c.set now key value).2.items := by
  have hlength : 0 < c.items.length := Nat.lt_of_lt_of_le tidy.roomy full
  have hsplit := List.dropLast_append_getLast (List.ne_nil_of_length_pos hlength)
  rcases items_set dated key value with ⟨held | room, -⟩ | ⟨-, -, hitems⟩
  · rw [absent] at held
    cases held
  · exact absurd full (Nat.not_le_of_lt room)
  · rw [hitems]
    exact ⟨_, dated ▸ rfl, absent, full, hsplit.symm, expiresAt, rfl⟩

namespace Displaces

variable {value : ν} {i : TimedItem ν}

theorem held (h : Displaces now c key value i items) : i ∈ c.items :=
  h.last ▸ List.mem_append_right _ (List.mem_singleton.2 rfl)

/-- All other items are in front of the one that is displaced. -/
theorem mem_dropLast (h : Displaces now c key value i items) {j : TimedItem ν}
    (hj : j ∈ c.items) (hne : j ≠ i) : j ∈ c.items.dropLast := by
  rw [h.last, List.mem_append, List.mem_singleton] at hj
  exact hj.resolve_right hne

/-- They stay. -/
theorem alone (h : Displaces now c key value i items) {j : TimedItem ν} (hj : j ∈ c.items)
    (hne : j ≠ i) : j ∈ items := by
  obtain ⟨expiresAt, rfl⟩ := h.left
  exact List.mem_cons_of_mem _ (h.mem_dropLast hj hne)

/-- They were touched after its last touch, so that is the oldest one. -/
theorem oldest (h : Displaces now c key value i items) (ahead : Ahead i.key history c.items) :
    ∀ j ∈ c.items.dropLast, j.key ∈ touchedSince i.key history := by
  rw [Ahead, h.last, List.pairwise_append] at ahead
  exact fun j hj => ahead.2.2 j hj i (List.mem_singleton.2 rfl) rfl

theorem key_ne (h : Displaces now c key value i items) : key ≠ i.key :=
  (find?_eq_none_iff.1 h.absent i h.held).symm

theorem nodup_front (h : Displaces now c key value i items) (tidy : c.Tidy) :
    ((c.items.dropLast.map (·.key)) ++ [i.key]).Nodup := by
  have hdistinct := tidy.distinct
  rwa [h.last, List.map_append] at hdistinct

/-- Nothing is left under the key of the item that is displaced. -/
theorem gone (h : Displaces now c key value i items) (tidy : c.Tidy) :
    ∀ j ∈ items, j.key ≠ i.key := by
  obtain ⟨expiresAt, rfl⟩ := h.left
  intro j hj
  rcases List.mem_cons.1 hj with rfl | hj
  · exact h.key_ne
  · have hmem : j.key ∈ c.items.dropLast.map (·.key) := List.mem_map_of_mem hj
    exact (List.nodup_append.1 (h.nodup_front tidy)).2.2 j.key hmem i.key
      (List.mem_singleton.2 rfl)

/-- The new key is there. -/
theorem introduced {c' : RecencyCache ν} (h : Displaces now c key value i c'.items) :
    (c'.find? key).isSome = true := by
  obtain ⟨expiresAt, hleft⟩ := h.left
  have hmem : ⟨key, value, expiresAt⟩ ∈ c'.items := hleft ▸ List.mem_cons_self
  exact Option.isSome_iff_ne_none.2 fun hnone => find?_eq_none_iff.1 hnone _ hmem rfl

/-- As many other keys as there is room for were touched since the last touch of the
    item that is displaced, the new one included. -/
theorem crowded (h : Displaces now c key value i items) (tidy : c.Tidy)
    (ahead : Ahead i.key history c.items) :
    c.capacity ≤ (touchedSince i.key (history ++ [key])).dedup.length := by
  have hnodup : ((c.items.dropLast.map (·.key)) ++ [key]).Nodup := by
    rw [List.nodup_append]
    refine ⟨(List.nodup_append.1 (h.nodup_front tidy)).1, List.nodup_singleton _, ?_⟩
    intro k hk k' hk'
    obtain ⟨j, hj, rfl⟩ := List.mem_map.1 hk
    rw [List.mem_singleton.1 hk']
    exact find?_eq_none_iff.1 h.absent j (List.dropLast_subset _ hj)
  have hsubset : (c.items.dropLast.map (·.key)) ++ [key] ⊆
      touchedSince i.key (history ++ [key]) := by
    rw [touchedSince_concat_of_ne h.key_ne]
    intro k hk
    rcases List.mem_append.1 hk with hfront | hnew
    · obtain ⟨j, hj, rfl⟩ := List.mem_map.1 hfront
      exact List.mem_append_left _ (h.oldest ahead j hj)
    · exact List.mem_append_right _ hnew
  have hlength : c.items.length = ((c.items.dropLast.map (·.key)) ++ [key]).length := by
    conv_lhs => rw [h.last]
    simp
  calc c.capacity ≤ c.items.length := h.full
    _ = ((c.items.dropLast.map (·.key)) ++ [key]).length := hlength
    _ ≤ (touchedSince i.key (history ++ [key])).dedup.length := length_le_dedup hnodup hsubset

end Displaces

/-! ## Runs -/

theorem ahead_run {ops : List (Instant × Op ν)} (empty : c.items = [])
    (dated : ∀ o ∈ ops, (o.1.after? c.ttl).isSome = true) (key : String) :
    Ahead key (touches ops c) (run ops c).2.items := by
  induction ops using List.reverseRecOn with
  | nil =>
      show Ahead key (touches [] c) c.items
      rw [empty]
      exact List.Pairwise.nil
  | append_singleton ops o ih =>
      obtain ⟨now, op⟩ := o
      have hnow : (now.after? (run ops c).2.ttl).isSome = true := by
        rw [(settings_run ops c).2]
        exact dated (now, op) (by simp)
      rw [run, runSteps_concat, touches_concat]
      exact (ih fun o ho => dated o (by simp [ho])).step (moves_step now op (run ops c).2)
        fun _ => hnow

/-- What is held in a cache that was empty was touched. -/
theorem mem_touches_of_held {ops : List (Instant × Op ν)} (empty : c.items = [])
    {i : TimedItem ν} (hi : i ∈ (run ops c).2.items) : i.key ∈ touches ops c := by
  induction ops using List.reverseRecOn with
  | nil =>
      have hnone : i ∈ c.items := hi
      rw [empty] at hnone
      cases hnone
  | append_singleton ops o ih =>
      obtain ⟨now, op⟩ := o
      rw [run, runSteps_concat] at hi
      rw [touches_concat, List.mem_append]
      rcases written_or_kept (moves_step now op (run ops c).2) hi with ⟨rfl, -⟩ | ⟨held, -⟩
      · exact .inr (List.mem_singleton.2 rfl)
      · exact .inl (ih held)

end GatewayCache.RecencyCache
