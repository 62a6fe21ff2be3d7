/-
  GatewayCache.Proofs.Store.Isolation

  Stores in different parts of one key-value store do not see each other.

  Two stores share a key-value store. The starts of their keys are apart: neither is a
  prefix of the other (`KeySpace.Apart`). What a store answers and what it leaves in
  its part depends on nothing but its part (`step_own`), and an operation of the other
  store leaves the part as it is (`step_other`). So however the operations of both are
  mixed, one store answers as if the other were not there
  (`unaffected_by_other_store`). Starts may hold any characters: escaped, they mean
  just themselves in the pattern of a sweep.
-/

import GatewayCache.Proofs.Store.Interchange
import GatewayCache.Proofs.Store.Scanning

namespace GatewayCache

open KeyValueStore (Answers Finds)

namespace KeySpace

/-! ## Parts of a key-value store -/

/-- What is held under the keys of a part. -/
def part (space : KeySpace) (m : Dict Holding) : Dict Holding :=
  m.filter fun full _ => space.start.toList.isPrefixOf full.toList

/-- Neither start is a prefix of the other. -/
def Apart (p q : KeySpace) : Prop :=
  ¬ p.start.toList <+: q.start.toList ∧ ¬ q.start.toList <+: p.start.toList

instance (p q : KeySpace) : Decidable (p.Apart q) := inferInstanceAs (Decidable (_ ∧ _))

theorem start_isPrefixOf_key (space : KeySpace) (k : String) :
    space.start.toList.isPrefixOf (space.key k).toList = true := by
  rw [List.isPrefixOf_iff_prefix, key, String.toList_append]
  exact List.prefix_append _ _

/-- What starts with a full key of a part is in the part. -/
theorem start_isPrefixOf_of_key {space : KeySpace} {start full : String}
    (h : (space.key start).toList.isPrefixOf full.toList = true) :
    space.start.toList.isPrefixOf full.toList = true := by
  obtain ⟨k, rfl⟩ := eq_key_of_isPrefixOf h
  exact space.start_isPrefixOf_key k

/-- No key is in two parts that are apart. -/
theorem Apart.not_isPrefixOf {p q : KeySpace} (apart : p.Apart q) {full : String}
    (h : p.start.toList.isPrefixOf full.toList = true) :
    q.start.toList.isPrefixOf full.toList = false := by
  rw [Bool.eq_false_iff]
  intro hq
  rcases List.prefix_or_prefix_of_prefix (List.isPrefixOf_iff_prefix.1 h)
    (List.isPrefixOf_iff_prefix.1 hq) with hpq | hqp
  · exact apart.1 hpq
  · exact apart.2 hqp

variable {space : KeySpace}

theorem get?_part_key (m : Dict Holding) (k : String) :
    (space.part m).get? (space.key k) = m.get? (space.key k) := by
  rw [part, Dict.get?_filter_key, if_pos (space.start_isPrefixOf_key k)]

theorem part_insert_key (m : Dict Holding) (k : String) (h : Holding) :
    space.part (m.insert (space.key k) h) = (space.part m).insert (space.key k) h := by
  apply Dict.ext_get?
  intro full
  rw [part, Dict.get?_filter_key, Dict.get?_insert, Dict.get?_insert, part, Dict.get?_filter_key]
  by_cases hfull : full = space.key k
  · rw [if_pos hfull, if_pos hfull, hfull, if_pos (space.start_isPrefixOf_key k)]
  · rw [if_neg hfull, if_neg hfull]

theorem part_insert_of_not {full : String}
    (h : space.start.toList.isPrefixOf full.toList = false) (m : Dict Holding) (held : Holding) :
    space.part (m.insert full held) = space.part m := by
  apply Dict.ext_get?
  intro other
  rw [part, part, Dict.get?_filter_key, Dict.get?_filter_key, Dict.get?_insert]
  by_cases hother : other = full
  · rw [hother, h, if_neg Bool.false_ne_true, if_neg Bool.false_ne_true]
  · rw [if_neg hother]

theorem part_filter (m : Dict Holding) (p : String → Bool) :
    space.part (m.filter fun full _ => p full) = (space.part m).filter fun full _ => p full := by
  rw [part, part, Dict.filter_filter, Dict.filter_filter]
  simp only [Bool.and_comm]

/-- Cutting out keys outside a part leaves it as it is. -/
theorem part_filter_of_kept {p : String → Bool}
    (h : ∀ full : String, space.start.toList.isPrefixOf full.toList = true → p full = true)
    (m : Dict Holding) : space.part (m.filter fun full _ => p full) = space.part m := by
  rw [part, part, Dict.filter_filter]
  apply Dict.filter_congr
  intro full _ _
  cases hfull : space.start.toList.isPrefixOf full.toList with
  | false => rw [Bool.and_false]
  | true => rw [h full hfull, Bool.and_true]

/-! ## Operations within a part -/

variable {κ : Type} [KeyValueStore κ] {holdings : κ → Dict Holding}

theorem get_within (answers : Answers holdings) (space : KeySpace) (k : String) (kv : κ) :
    (space.get k kv).1 =
        (((space.part (holdings kv)).get? (space.key k)).map (·.value)).bind Entry.read ∧
      space.part (holdings (space.get k kv).2) = space.part (holdings kv) := by
  obtain ⟨hread, hkept⟩ := space.get_eq answers k kv
  exact ⟨by rw [hread, get?_part_key], by rw [hkept]⟩

theorem set_within (answers : Answers holdings) (space : KeySpace) (now : Instant) (k : String)
    (e : Entry) (kv : κ) :
    space.part (holdings (space.set now k e kv)) =
      match e.remaining? now with
      | none => space.part (holdings kv)
      | some left =>
          (space.part (holdings kv)).insert (space.key k) ⟨e.write, left.secondsToHold⟩ := by
  rw [space.holdings_set answers]
  cases e.remaining? now with
  | none => rfl
  | some left => exact part_insert_key _ _ _

theorem purge_within (answers : Answers holdings) (space : KeySpace) (k : String) (kv : κ) :
    (space.purge k kv).1 = (space.part (holdings kv)).contains (space.key k) ∧
      space.part (holdings (space.purge k kv).2) =
        (space.part (holdings kv)).erase (space.key k) := by
  obtain ⟨hany, hkept⟩ := space.purge_eq answers k kv
  constructor
  · rw [hany, Dict.contains, Dict.contains, get?_part_key]
  · rw [hkept]
    exact part_filter _ _

theorem purgePrefix_within (answers : Answers holdings) {space : KeySpace}
    (hcount : 0 < space.scanCount) (start : String)
    (finds : Finds holdings (space.pattern start)) (kv : κ) :
    (space.purgePrefix start kv).1 =
        ((space.part (holdings kv)).filter fun full _ =>
          (space.key start).toList.isPrefixOf full.toList).size ∧
      space.part (holdings (space.purgePrefix start kv).2) =
        (space.part (holdings kv)).filter fun full _ =>
          !(space.key start).toList.isPrefixOf full.toList := by
  have purged := purgePrefix_found answers hcount start finds kv
  have hinside : ((space.part (holdings kv)).filter fun full _ =>
      (space.key start).toList.isPrefixOf full.toList) =
        (holdings kv).filter fun full _ => (space.key start).toList.isPrefixOf full.toList := by
    rw [part, Dict.filter_filter]
    apply Dict.filter_congr
    intro full _ _
    cases hfull : (space.key start).toList.isPrefixOf full.toList with
    | false => rw [Bool.and_false]
    | true => rw [start_isPrefixOf_of_key hfull, Bool.and_true]
  constructor
  · rw [hinside, purged.removed_eq]
  · rw [purged.kept, part_filter]

end KeySpace

namespace NetworkedStore

open ResponseStore

variable {κ : Type} [KeyValueStore κ] {holdings : κ → Dict Holding}

/-- What an operation answers, and what it leaves in the part of its store, depends on
    nothing but the part. -/
theorem step_own (answers : Answers holdings)
    (finds : ∀ text : String,
      Finds holdings (String.ofList (Text.Glob.startingWith text.toList)))
    {space : KeySpace} (hcount : 0 < space.scanCount) {kv kv' : κ}
    (same : space.part (holdings kv) = space.part (holdings kv')) (now : Instant) (op : Op) :
    (step now op (⟨space, kv⟩ : NetworkedStore κ)).1 =
        (step now op (⟨space, kv'⟩ : NetworkedStore κ)).1 ∧
      space.part (holdings (step now op (⟨space, kv⟩ : NetworkedStore κ)).2.kv) =
        space.part (holdings (step now op (⟨space, kv'⟩ : NetworkedStore κ)).2.kv) := by
  cases op with
  | get key =>
      obtain ⟨hread, hkept⟩ := space.get_within answers key kv
      obtain ⟨hread', hkept'⟩ := space.get_within answers key kv'
      rw [same] at hread hkept
      exact ⟨congrArg Reply.entry (hread.trans hread'.symm), hkept.trans hkept'.symm⟩
  | set key e =>
      have hkept := space.set_within answers now key e kv
      have hkept' := space.set_within answers now key e kv'
      rw [same] at hkept
      exact ⟨rfl, hkept.trans hkept'.symm⟩
  | purge key =>
      obtain ⟨hany, hkept⟩ := space.purge_within answers key kv
      obtain ⟨hany', hkept'⟩ := space.purge_within answers key kv'
      rw [same] at hany hkept
      exact ⟨congrArg Reply.removed (hany.trans hany'.symm), hkept.trans hkept'.symm⟩
  | purgePrefix start =>
      obtain ⟨hcounted, hkept⟩ := KeySpace.purgePrefix_within answers hcount start (finds _) kv
      obtain ⟨hcounted', hkept'⟩ := KeySpace.purgePrefix_within answers hcount start (finds _) kv'
      rw [same] at hcounted hkept
      exact ⟨congrArg Reply.count (hcounted.trans hcounted'.symm), hkept.trans hkept'.symm⟩

/-- An operation leaves a part that is apart from the one of its store as it is. -/
theorem step_other (answers : Answers holdings)
    (finds : ∀ text : String,
      Finds holdings (String.ofList (Text.Glob.startingWith text.toList)))
    {p q : KeySpace} (hcount : 0 < p.scanCount) (apart : p.Apart q) (now : Instant) (op : Op)
    (kv : κ) :
    q.part (holdings (step now op (⟨p, kv⟩ : NetworkedStore κ)).2.kv) = q.part (holdings kv) := by
  have houtside : ∀ k, q.start.toList.isPrefixOf (p.key k).toList = false := fun k =>
    apart.not_isPrefixOf (p.start_isPrefixOf_key k)
  cases op with
  | get key => exact congrArg q.part (p.get_eq answers key kv).2
  | set key e =>
      show q.part (holdings (p.set now key e kv)) = _
      rw [p.holdings_set answers]
      cases e.remaining? now with
      | none => rfl
      | some left => exact KeySpace.part_insert_of_not (houtside key) _ _
  | purge key =>
      show q.part (holdings (p.purge key kv).2) = _
      rw [(p.purge_eq answers key kv).2]
      apply KeySpace.part_filter_of_kept
      intro full hfull
      rw [bne_iff_ne]
      rintro rfl
      rw [houtside] at hfull
      cases hfull
  | purgePrefix start =>
      show q.part (holdings (p.purgePrefix start kv).2) = _
      rw [(KeySpace.purgePrefix_found answers hcount start (finds _) kv).kept]
      apply KeySpace.part_filter_of_kept
      intro full hfull
      rw [Bool.not_eq_true', Bool.eq_false_iff]
      intro hkey
      rw [apart.not_isPrefixOf (KeySpace.start_isPrefixOf_of_key hkey)] at hfull
      cases hfull

/-! ## Mixed runs -/

/-- One operation of one of two stores on the same key-value store. -/
def stepShared (p q : KeySpace) (now : Instant) : Op ⊕ Op → κ → (Reply ⊕ Reply) × κ
  | .inl op, kv =>
      let (reply, s) := step now op (⟨p, kv⟩ : NetworkedStore κ)
      (.inl reply, s.kv)
  | .inr op, kv =>
      let (reply, s) := step now op (⟨q, kv⟩ : NetworkedStore κ)
      (.inr reply, s.kv)

/-- Operations of two stores on the same key-value store in any order, with the
    replies in order. -/
abbrev runShared (p q : KeySpace) :
    List (Instant × (Op ⊕ Op)) → κ → List (Reply ⊕ Reply) × κ :=
  runSteps (stepShared p q)

/-- The operations of the second store alone. -/
def ofSecond (ops : List (Instant × (Op ⊕ Op))) : List (Instant × Op) :=
  ops.filterMap fun c => c.2.getRight?.map (c.1, ·)

/-- An operation leaves the part of its store where it is. -/
theorem exists_step_eq (now : Instant) (op : Op) (space : KeySpace) (kv : κ) :
    ∃ reply kv', step now op (⟨space, kv⟩ : NetworkedStore κ) = (reply, ⟨space, kv'⟩) := by
  cases op <;> exact ⟨_, _, rfl⟩

/-- In a mixed run the second store answers, and has its part left, as in the run of
    its own operations. -/
theorem runShared_second (answers : Answers holdings)
    (finds : ∀ text : String,
      Finds holdings (String.ofList (Text.Glob.startingWith text.toList)))
    {p q : KeySpace} (hp : 0 < p.scanCount) (hq : 0 < q.scanCount) (apart : p.Apart q)
    (ops : List (Instant × (Op ⊕ Op))) {kv kv' : κ}
    (same : q.part (holdings kv) = q.part (holdings kv')) :
    (runShared p q ops kv).1.filterMap Sum.getRight? =
        (run (ofSecond ops) (⟨q, kv'⟩ : NetworkedStore κ)).1 ∧
      q.part (holdings (runShared p q ops kv).2) =
        q.part (holdings (run (ofSecond ops) (⟨q, kv'⟩ : NetworkedStore κ)).2.kv) := by
  induction ops generalizing kv kv' with
  | nil => exact ⟨rfl, same⟩
  | cons c ops ih =>
      obtain ⟨now, op | op⟩ := c
      · -- An operation of the first store: the second one's part stays.
        exact ih ((step_other answers finds hp apart now op kv).trans same)
      · obtain ⟨hreply, hpart⟩ := step_own answers finds hq same now op
        obtain ⟨reply, after, hstep⟩ := exists_step_eq now op q kv
        obtain ⟨reply', after', hstep'⟩ := exists_step_eq now op q kv'
        rw [hstep, hstep'] at hreply hpart
        obtain ⟨hreplies, hrest⟩ := ih hpart
        have hmixed : runShared p q ((now, .inr op) :: ops) kv =
            (.inr reply :: (runShared p q ops after).1, (runShared p q ops after).2) := by
          rw [runShared, runSteps, stepShared, hstep]
        have halone : run (ofSecond ((now, .inr op) :: ops)) (⟨q, kv'⟩ : NetworkedStore κ) =
            (reply' :: (run (ofSecond ops) (⟨q, after'⟩ : NetworkedStore κ)).1,
              (run (ofSecond ops) (⟨q, after'⟩ : NetworkedStore κ)).2) := by
          show run ((now, op) :: ofSecond ops) _ = _
          rw [run, runSteps, hstep']
        rw [hmixed, halone]
        exact ⟨congrArg₂ List.cons hreply hreplies, hrest⟩

/-- Two stores on one key-value store, with any numbers of keys to a scan, whose starts
    are apart: in any mixed run the second one answers all its operations, and has all
    records in its part left, as if the operations of the first had been left out. The
    key-value store answers its calls, and each of its scans finds what the pattern
    matches. -/
theorem unaffected_by_other_store (answers : Answers holdings)
    (finds : ∀ text : String,
      Finds holdings (String.ofList (Text.Glob.startingWith text.toList)))
    {p q : KeySpace} (apart : p.Apart q) (n m : Nat) (ops : List (Instant × (Op ⊕ Op))) (kv : κ) :
    (runShared (p.scanning n) (q.scanning m) ops kv).1.filterMap Sum.getRight? =
        (run (ofSecond ops) (⟨q.scanning m, kv⟩ : NetworkedStore κ)).1 ∧
      q.part (holdings (runShared (p.scanning n) (q.scanning m) ops kv).2) =
        q.part (holdings (run (ofSecond ops) (⟨q.scanning m, kv⟩ : NetworkedStore κ)).2.kv) := by
  have hp : 0 < (p.scanning n).scanCount := Nat.le_max_right n 1
  have hq : 0 < (q.scanning m).scanCount := Nat.le_max_right m 1
  have scanning : (p.scanning n).Apart (q.scanning m) := apart
  exact runShared_second answers finds hp hq scanning ops rfl

/-- A store whose start has a star in it removes all that it holds, between the
    operations of one whose keys the star would cover. -/
def mixedVisit : List (Instant × (Op ⊕ Op)) :=
  [(⟨1⟩, .inr (.set "1" ⟨200, .empty, [1], "", some ⟨9⟩⟩)),
    (⟨2⟩, .inl (.set "1" ⟨404, .empty, [2], "", some ⟨9⟩⟩)), (⟨3⟩, .inl (.purgePrefix "")),
    (⟨4⟩, .inr (.get "1")), (⟨5⟩, .inr (.purgePrefix "")), (⟨6⟩, .inl (.get "1"))]

/-- The other store reads what it wrote, and removes it. -/
theorem unaffected_by_other_store_starred :
    Answers Table.view.holdings ∧
      (∀ text : String,
        Finds Table.view.holdings (String.ofList (Text.Glob.startingWith text.toList))) ∧
      KeySpace.Apart { start := "t*" } { start := "ta" } ∧
      (runShared { start := "t*", scanCount := 1 } { start := "ta" } mixedVisit
        Table.empty).1.filterMap Sum.getRight? =
        [.written, .entry (some ⟨200, .empty, [1], "", none⟩), .count 1] := by
  have apart : KeySpace.Apart { start := "t*" } { start := "ta" } := by decide
  have mixed := (unaffected_by_other_store Table.exact.answers Table.exact.finds apart 1
    defaultScanCount mixedVisit Table.empty).1
  -- What the other store answers alone is what one inside the process answers.
  have mirrors : Mirrors Table.view ⟨{ start := "ta" }, Table.empty⟩ MemoryStore.unbounded :=
    ⟨rfl, by decide, .of_vacant fun _ => rfl⟩
  have fresh : NoneExpires (ofSecond mixedVisit) := by decide
  have alone := mirrors.run Table.exact fresh nofun
  refine ⟨Table.exact.answers, Table.exact.finds, apart, mixed.trans (alone.trans ?_)⟩
  decide

end NetworkedStore

end GatewayCache
