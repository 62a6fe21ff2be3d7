/-
  GatewayCache.Proofs.Entry.Replay

  The fields of a stored response against those that came from the server.

  Names with their values are regrouped when a response is stored, but the values
  under one name keep their order (`kept_storedFields`), and each is replayed as it is
  rendered from its text (`values_replay`). Rendering keeps what is readable, so the
  fields that are replayed read as those that came (`readAlike_replay`) and say the same
  about caching (`cacheControl_replay`).
-/

import GatewayCache.CacheControl
import GatewayCache.Entry
import GatewayCache.Proofs.Http.FieldText

namespace GatewayCache

open GatewayCache.Http

namespace Dict

/-- Where only the entry of one key contributes, going through all entries comes
    down to looking that key up. -/
theorem flatMap_entries_of_key {α β : Type} (m : Dict α) {k : String} {g : String → α → List β}
    (h : ∀ p ∈ m.entries, p.1 ≠ k → g p.1 p.2 = []) :
    m.entries.flatMap (fun p => g p.1 p.2) = ((m.get? k).map (g k)).getD [] := by
  obtain ⟨entries, sorted⟩ := m
  simp only [get?] at h ⊢
  induction entries with
  | nil => rfl
  | cons e es ih =>
      rw [List.pairwise_cons] at sorted
      rw [List.flatMap_cons]
      by_cases hk : e.1 = k
      · -- Keys increase, so the key does not come again.
        have hrest : es.flatMap (fun p => g p.1 p.2) = [] := by
          rw [List.flatMap_eq_nil_iff]
          intro p hp
          apply h p (List.mem_cons_of_mem e hp)
          intro hpk
          have hlt := sorted.1 p hp
          rw [hk, hpk] at hlt
          exact String.lt_irrefl k hlt
        rw [hrest, List.append_nil, List.find?_cons_of_pos (by simpa using hk), ← hk]
        rfl
      · rw [h e List.mem_cons_self hk, List.nil_append,
          List.find?_cons_of_neg (by simpa using hk)]
        exact ih sorted.2 fun p hp => h p (List.mem_cons_of_mem e hp)

end Dict

namespace Entry

/-! ## Fields regrouped by name -/

/-- The values kept under a name. -/
def kept (m : Dict (List String)) (name : String) : List String := (m.get? name).getD []

theorem kept_pushField (m : Dict (List String)) (name name' value : String) :
    kept (pushField m name value) name' =
      kept m name' ++ if name = name' then [value] else [] := by
  unfold kept pushField
  rw [Dict.get?_insert]
  by_cases h : name = name'
  · rw [if_pos h.symm, if_pos h, h]
    rfl
  · rw [if_neg (Ne.symm h), if_neg h, List.append_nil]

theorem kept_foldl_pushField (lines : List (FieldName × FieldValue)) (m : Dict (List String))
    (n : FieldName) :
    kept (lines.foldl (fun m l => pushField m l.1.text l.2.stored) m) n.text =
      kept m n.text ++ (Fields.values ⟨lines⟩ n).map FieldValue.stored := by
  induction lines generalizing m with
  | nil => simp [Fields.values]
  | cons l lines ih =>
      rw [List.foldl_cons, ih, kept_pushField, List.append_assoc]
      congr 1
      by_cases h : l.1 = n
      · simp [Fields.values, h]
      · have ht : l.1.text ≠ n.text := fun e => h (FieldName.ext e)
        simp [Fields.values, h, ht]

/-- What holds of every name with a value put behind any others holds of all that is
    kept. -/
theorem forall_entries_foldl_pushField {P : String → List String → Prop}
    (hpush : ∀ (n : FieldName) (values : List String) (v : String), P n.text (values ++ [v]))
    (lines : List (FieldName × FieldValue)) (m : Dict (List String))
    (hm : ∀ p ∈ m.entries, P p.1 p.2) :
    ∀ p ∈ (lines.foldl (fun m l => pushField m l.1.text l.2.stored) m).entries, P p.1 p.2 := by
  induction lines generalizing m with
  | nil => exact hm
  | cons l lines ih =>
      apply ih
      rintro ⟨name, values⟩ hp
      rcases Dict.mem_entries_insert.1 hp with ⟨rfl, rfl⟩ | ⟨-, hp⟩
      · exact hpush l.1 _ _
      · exact hm _ hp

/-- Every key of the kept fields is the text of a name. -/
theorem names_storedFields (f : Fields) :
    ∀ p ∈ (storedFields f).entries, ∃ n : FieldName, n.text = p.1 :=
  forall_entries_foldl_pushField (P := fun name _ => ∃ n : FieldName, n.text = name)
    (fun n _ _ => ⟨n, rfl⟩) _ _ fun _ hp => nomatch hp

/-- No name is kept without a value. -/
theorem ne_nil_storedFields (f : Fields) : ∀ p ∈ (storedFields f).entries, p.2 ≠ [] :=
  forall_entries_foldl_pushField (P := fun _ values => values ≠ [])
    (fun _ _ _ => List.concat_ne_nil _ _) _ _ fun _ hp => nomatch hp

/-- Under a name all values are kept, in order, unless it belongs to a connection. -/
theorem kept_storedFields_text (f : Fields) (n : FieldName) :
    kept (storedFields f) n.text =
      if isConnectionField n.text then [] else (f.values n).map FieldValue.stored := by
  rw [storedFields, kept_foldl_pushField,
    Fields.values_filter f fun m => !isConnectionField m.text]
  cases isConnectionField n.text <;> rfl

/-- Under a name that belongs to no connection all values are kept, in order. -/
theorem kept_storedFields (f : Fields) {n : FieldName} (h : isConnectionField n.text = false) :
    kept (storedFields f) n.text = (f.values n).map FieldValue.stored := by
  rw [kept_storedFields_text, h]
  rfl

/-! ## Replaying -/

theorem values_replayLines (n m : FieldName) (values : List String) :
    Fields.values ⟨replayLines m.text values⟩ n =
      if m = n then values.filterMap FieldValue.ofText? else [] := by
  unfold replayLines Fields.values
  rw [FieldName.ofText?_text]
  by_cases h : m = n
  · simp [h, List.filter_map, Function.comp_def]
  · simp [h, List.filter_map, Function.comp_def]

theorem values_flatMap {α : Type} (xs : List α) (g : α → List (FieldName × FieldValue))
    (n : FieldName) :
    Fields.values ⟨xs.flatMap g⟩ n = xs.flatMap fun x => Fields.values ⟨g x⟩ n := by
  simp [Fields.values, List.filter_flatMap, List.map_flatMap]

/-- Where every key is the text of a name, the values under a name are replayed from
    those that are kept under its text, and from no others. -/
theorem values_replay_eq_kept {e : Entry}
    (hnames : ∀ p ∈ e.fields.entries, ∃ m : FieldName, m.text = p.1) (n : FieldName) :
    e.replay.values n = (kept e.fields n.text).filterMap FieldValue.ofText? := by
  have hother : ∀ p ∈ e.fields.entries, p.1 ≠ n.text →
      Fields.values ⟨replayLines p.1 p.2⟩ n = [] := by
    intro p hp hne
    obtain ⟨m, hm⟩ := hnames p hp
    rw [← hm, values_replayLines, if_neg]
    exact fun e => hne (e ▸ hm.symm)
  calc e.replay.values n
      = e.fields.entries.flatMap fun p => Fields.values ⟨replayLines p.1 p.2⟩ n :=
        values_flatMap _ _ n
    _ = ((e.fields.get? n.text).map fun values =>
          Fields.values ⟨replayLines n.text values⟩ n).getD [] :=
        Dict.flatMap_entries_of_key (g := fun k v => Fields.values ⟨replayLines k v⟩ n) _ hother
    _ = (kept e.fields n.text).filterMap FieldValue.ofText? := by
        unfold kept
        cases e.fields.get? n.text with
        | none => rfl
        | some values => simp [values_replayLines]

/-- Under a name that belongs to no connection the values that came are replayed
    in order, each as the bytes of its text. -/
theorem values_replay (now : Instant) (status : UInt16) (f : Fields) (body : List UInt8)
    (ttl : Span) {n : FieldName} (h : isConnectionField n.text = false) :
    (ofResponse now status f body ttl).replay.values n = (f.values n).map FieldValue.rendered :=
  calc (ofResponse now status f body ttl).replay.values n
      = (kept (storedFields f) n.text).filterMap FieldValue.ofText? :=
        values_replay_eq_kept (names_storedFields f) n
    _ = (f.values n).map FieldValue.rendered := by
        rw [kept_storedFields f h, List.filterMap_map]
        rw [show FieldValue.ofText? ∘ FieldValue.stored = some ∘ FieldValue.rendered from
          funext FieldValue.ofText?_stored, List.filterMap_eq_map]

/-- Under such a name, what is replayed reads as what came. -/
theorem readAlike_replay (now : Instant) (status : UInt16) (f : Fields) (body : List UInt8)
    (ttl : Span) {n : FieldName} (h : isConnectionField n.text = false) :
    (ofResponse now status f body ttl).replay.ReadAlike f n := by
  rw [Fields.ReadAlike, values_replay now status f body ttl h, List.map_map]
  exact List.map_congr_left fun v _ => FieldValue.text?_rendered v

/-- What is replayed carries the directives that came. -/
theorem cacheControl_replay (now : Instant) (status : UInt16) (f : Fields) (body : List UInt8)
    (ttl : Span) :
    CacheControl.ofFields (ofResponse now status f body ttl).replay = CacheControl.ofFields f := by
  have hconnection : isConnectionField FieldName.cacheControl.text = false := by decide +kernel
  have htexts := (readAlike_replay now status f body ttl hconnection).texts_eq
  rw [CacheControl.ofFields, CacheControl.ofFields, htexts]

end Entry

end GatewayCache
