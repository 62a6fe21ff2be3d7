/-
  GatewayCache.Proofs.Metadata.Freshness

  What answers about projects rest on, whatever their source answers.

  Both caches of project data are consulted in the same way (`isActive_eq`,
  `credential_eq`), and the notes of a run say what the source was asked, what it was
  told to answer, and which projects were forgotten. Every call keeps the items of both
  caches backed by these notes (`Backed.step`), so after any run the guard lets a
  request pass only on a last answer that its project is active, and only as long as
  that answer is in force (`guard_rests_on_answers_in_force`).
-/

import GatewayCache.Metadata.Directory
import GatewayCache.Proofs.Metadata.ReadThrough

namespace GatewayCache.Projects

open Note

variable {π ν : Type} [ProjectSource π]

/-! ## Both questions are asked alike -/

theorem isActive_eq (now : Instant) (id : String) (p : Projects π) :
    p.isActive now id =
      ((p.activity.consult (fun _ => true) (ProjectSource.active id p.source).1 now id).1,
        { source := if (p.activity.get now id).1.isNone then (ProjectSource.active id p.source).2
            else p.source,
          activity :=
            (p.activity.consult (fun _ => true) (ProjectSource.active id p.source).1 now id).2,
          credentials := p.credentials }) := by
  unfold isActive RecencyCache.consult
  dsimp only
  rcases p.activity.get now id with ⟨found, activity⟩
  rcases ProjectSource.active id p.source with ⟨answer, source⟩
  cases found with
  | some active => rfl
  | none => cases answer <;> rfl

/-- A credential is cached unless it is empty. -/
def isSet (secret : String) : Bool := decide (secret ≠ "")

theorem credential_eq (now : Instant) (id : String) (p : Projects π) :
    p.credential now id =
      ((p.credentials.consult isSet (ProjectSource.credential id p.source).1 now id).1,
        { source :=
            if (p.credentials.get now id).1.isNone then (ProjectSource.credential id p.source).2
            else p.source,
          activity := p.activity,
          credentials :=
            (p.credentials.consult isSet (ProjectSource.credential id p.source).1 now id).2 }) := by
  unfold credential RecencyCache.consult
  dsimp only
  rcases p.credentials.get now id with ⟨found, credentials⟩
  rcases ProjectSource.credential id p.source with ⟨answer, source⟩
  cases found with
  | some secret => rfl
  | none =>
      cases answer with
      | error e => rfl
      | ok secret => by_cases h : secret = "" <;> simp [isSet, h]

/-! ## Notes of calls -/

/-- What a call writes down about activity. -/
def activityNote? (now : Instant) (op : Op) (p : Projects π) : Option (Note Bool) :=
  match op with
  | .isActive id => p.activity.consulted (ProjectSource.active id p.source).1 now id
  | .check id => p.activity.consulted (ProjectSource.active id p.source).1 now id
  | .credential _ => none
  | .invalidate id => some (.forgot id)
  | .event e => some (.forgot e.id)

/-- What a call writes down about credentials. -/
def credentialNote? (now : Instant) (op : Op) (p : Projects π) : Option (Note String) :=
  match op with
  | .isActive _ => none
  | .check _ => none
  | .credential id => p.credentials.consulted (ProjectSource.credential id p.source).1 now id
  | .invalidate id => some (.forgot id)
  | .event e => some (.forgot e.id)

/-- The source after a call: it was asked what the notes of the call say, and nothing
    else. -/
def sourceAfter (p : Projects π) : Option (Note Bool) → Option (Note String) → π
  | some (.told id _), _ => (ProjectSource.active id p.source).2
  | _, some (.told id _) => (ProjectSource.credential id p.source).2
  | _, _ => p.source

theorem source_step (now : Instant) (op : Op) (p : Projects π) :
    (p.step now op).2.source =
      p.sourceAfter (p.activityNote? now op) (p.credentialNote? now op) := by
  have hactive : ∀ id, (p.isActive now id).2.source =
      p.sourceAfter (p.activity.consulted (ProjectSource.active id p.source).1 now id) none := by
    intro id
    rw [isActive_eq, RecencyCache.consulted]
    cases (p.activity.get now id).1 <;> rfl
  cases op with
  | isActive id => exact hactive id
  | check id => exact hactive id
  | credential id =>
      show (p.credential now id).2.source =
        p.sourceAfter none (p.credentials.consulted (ProjectSource.credential id p.source).1 now id)
      rw [credential_eq, RecencyCache.consulted]
      cases (p.credentials.get now id).1 <;> rfl
  | invalidate id => rfl
  | event e => rfl

/-- The notes that the calls of a run make, in order. -/
def notes (note? : Instant → Op → Projects π → Option (Note ν)) :
    List (Instant × Op) → Projects π → List (Instant × Note ν)
  | [], _ => []
  | (now, op) :: ops, p => stamped now (note? now op p) ++ notes note? ops (p.step now op).2

/-! ## Caches backed by notes -/

/-- The items of both caches stem from the last answers in the notes. -/
structure Backed (told : List (Instant × Note Bool)) (secrets : List (Instant × Note String))
    (p : Projects π) : Prop where
  activity : p.activity.Backed told
  credentials : p.credentials.Backed secrets

variable {p : Projects π} {told : List (Instant × Note Bool)}
  {secrets : List (Instant × Note String)}

theorem Backed.isActive (h : p.Backed told secrets) (now : Instant) (id : String) :
    (p.isActive now id).2.Backed
      (told ++ stamped now (p.activity.consulted (ProjectSource.active id p.source).1 now id))
      (secrets ++ stamped now none) := by
  rw [isActive_eq]
  exact ⟨h.activity.consult _ _ now id, h.credentials.idle now⟩

/-- Every call keeps the caches backed. -/
theorem Backed.step (h : p.Backed told secrets) (now : Instant) (op : Op) :
    (p.step now op).2.Backed (told ++ stamped now (p.activityNote? now op))
      (secrets ++ stamped now (p.credentialNote? now op)) := by
  cases op with
  | isActive id => exact h.isActive now id
  | check id => exact h.isActive now id
  | credential id =>
      show (p.credential now id).2.Backed _ _
      rw [credential_eq]
      exact ⟨h.activity.idle now, h.credentials.consult _ _ now id⟩
  | invalidate id => exact ⟨h.activity.purge now id, h.credentials.purge now id⟩
  | event e => exact ⟨h.activity.purge now e.id, h.credentials.purge now e.id⟩

theorem Backed.run (h : p.Backed told secrets) (ops : List (Instant × Op)) :
    (run ops p).2.Backed (told ++ notes activityNote? ops p)
      (secrets ++ notes credentialNote? ops p) := by
  induction ops generalizing p told secrets with
  | nil =>
      rw [notes, notes, List.append_nil, List.append_nil]
      exact h
  | cons c ops ih =>
      rw [notes, notes, ← List.append_assoc, ← List.append_assoc]
      exact ih (h.step c.1 c.2)

/-- What both questions and forgetting keep, every run keeps. -/
theorem run_keeps {P : Projects π → Prop}
    (isActive : ∀ now id p, P p → P (p.isActive now id).2)
    (credential : ∀ now id p, P p → P (p.credential now id).2)
    (invalidate : ∀ id p, P p → P (p.invalidate id)) (h : P p) (ops : List (Instant × Op)) :
    P (run ops p).2 := by
  refine runSteps_induction (fun now op p h => ?_) ops h
  cases op with
  | isActive id => exact isActive now id p h
  | check id => exact isActive now id p h
  | credential id => exact credential now id p h
  | invalidate id => exact invalidate id p h
  | event e => exact invalidate e.id p h

/-- No call changes how long values live. -/
theorem ttl_run (ops : List (Instant × Op)) (p : Projects π) :
    (run ops p).2.activity.ttl = p.activity.ttl ∧
      (run ops p).2.credentials.ttl = p.credentials.ttl := by
  refine run_keeps (P := fun q => q.activity.ttl = p.activity.ttl ∧
    q.credentials.ttl = p.credentials.ttl) ?_ ?_ ?_ ⟨rfl, rfl⟩ ops
  · intro now id q h
    rw [isActive_eq]
    exact ⟨(RecencyCache.ttl_consult _ _ now id q.activity).trans h.1, h.2⟩
  · intro now id q h
    rw [credential_eq]
    exact ⟨h.1, (RecencyCache.ttl_consult _ _ now id q.credentials).trans h.2⟩
  · intro id q h
    exact h

/-! ## Answers -/

theorem check_eq (now : Instant) (id : String) (p : Projects π) :
    (p.check now id).1 = decision (p.isActive now id).1 := rfl

theorem decision_eq_allow_iff {answer : Except Fault Bool} :
    decision answer = .allow ↔ answer = .ok true := by
  cases answer with
  | error e => simp [decision]
  | ok active => cases active <;> simp [decision]

theorem decision_eq_inactive_iff {answer : Except Fault Bool} :
    decision answer = .deny .projectInactive ↔ answer = .ok false := by
  cases answer with
  | error e => simp [decision]
  | ok active => cases active <;> simp [decision]

theorem decision_eq_unavailable_iff {answer : Except Fault Bool} :
    decision answer = .deny .serviceUnavailable ↔ ∃ e, answer = .error e := by
  cases answer with
  | error e => simp [decision]
  | ok active => cases active <;> simp [decision]

/-- The lifetime of values in a cache of project data: as configured, one year at most. -/
def lifetime (c : MetadataConfig) : Nat :=
  min (Span.ofSeconds c.ttlSeconds).nanos RecencyCache.longestTtl.nanos

/-- An answer that a backed cache of a configured lifetime gave or asked for is in force. -/
theorem inForce_of_answer {c : RecencyCache ν} {notes : List (Instant × Note ν)}
    {config : MetadataConfig} {worth : ν → Bool} {told : Except Fault ν} {now : Instant}
    {id : String} {value : ν} (backed : c.Backed notes)
    (httl : c.ttl = (RecencyCache.ofConfig config : RecencyCache ν).ttl)
    (h : (c.consult worth told now id).1 = .ok value) :
    InForce notes (c.consulted told now id) (lifetime config) now id value := by
  have hforce := RecencyCache.inForce_of_consult backed h
  rwa [httl] at hforce

/-- Whatever the source answers, whatever the settings and after any calls: the guard
    lets a request pass only if the last answer about its project is that it is active,
    and calls it inactive only if the last answer is that it is not. That answer was
    given in this very call, or less than its lifetime ago, and neither an event nor
    anything else made the project forgotten since. The guard reports the source as
    unavailable only if it failed in this very call. Credentials are given under the
    same conditions. The notes leave nothing out: the source was asked just what they
    say. -/
theorem guard_rests_on_answers_in_force (source : π) (config : ProjectConfig)
    (ops : List (Instant × Op)) (now : Instant) (id : String) :
    let p := (run ops (create source config)).2
    let told := notes activityNote? ops (create source config)
    let secrets := notes credentialNote? ops (create source config)
    ((p.check now id).1 = .allow →
      InForce told (p.activityNote? now (.check id)) (lifetime config.active) now id true) ∧
    ((p.check now id).1 = .deny .projectInactive →
      InForce told (p.activityNote? now (.check id)) (lifetime config.active) now id false) ∧
    ((p.check now id).1 = .deny .serviceUnavailable →
      ∃ e, p.activityNote? now (.check id) = some (.told id (.error e))) ∧
    (∀ secret, (p.credential now id).1 = .ok secret →
      InForce secrets (p.credentialNote? now (.credential id)) (lifetime config.credential) now id
        secret) ∧
    (∀ e, (p.credential now id).1 = .error e →
      p.credentialNote? now (.credential id) = some (.told id (.error e))) ∧
    ∀ op, (p.step now op).2.source =
      p.sourceAfter (p.activityNote? now op) (p.credentialNote? now op) := by
  intro p told secrets
  have hfresh : (create source config).Backed [] [] :=
    ⟨RecencyCache.backed_create _ _, RecencyCache.backed_create _ _⟩
  have backed : p.Backed told secrets := hfresh.run ops
  obtain ⟨hactive, hcredential⟩ := ttl_run ops (create source config)
  refine ⟨?_, ?_, ?_, ?_, ?_, fun op => source_step now op p⟩
  · intro h
    rw [check_eq, decision_eq_allow_iff, isActive_eq] at h
    exact inForce_of_answer backed.activity hactive h
  · intro h
    rw [check_eq, decision_eq_inactive_iff, isActive_eq] at h
    exact inForce_of_answer backed.activity hactive h
  · intro h
    rw [check_eq, decision_eq_unavailable_iff, isActive_eq] at h
    obtain ⟨e, he⟩ := h
    exact ⟨e, RecencyCache.consulted_of_error he⟩
  · intro secret h
    rw [credential_eq] at h
    exact inForce_of_answer backed.credentials hcredential h
  · intro e h
    rw [credential_eq] at h
    exact RecencyCache.consulted_of_error h

/-- A source that lists one active project. -/
def listing : Directory := { listed := Dict.empty.insert "p" ⟨true, "secret"⟩ }

/-- Data of two projects may be cached for one second, a credential of one. -/
def oneSecond : ProjectConfig := ⟨⟨1, 2⟩, ⟨1, 0⟩⟩

/-- The listed project is asked for between events and questions about another one. -/
def visits : List (Instant × Op) :=
  [(⟨0⟩, .event (.created "p")), (⟨1⟩, .check "p"), (⟨2⟩, .check "q"), (⟨3⟩, .credential "p"),
    (⟨4⟩, .event (.deleted "q")), (⟨5⟩, .credential "q")]

/-- In its last nanosecond the activity is given from the cache; the credential has just
    expired and is asked for anew. -/
theorem guard_rests_on_answers_in_force_visits :
    ((run visits (create listing oneSecond)).2.check ⟨1000000000⟩ "p").1 = .allow ∧
      InForce (notes activityNote? visits (create listing oneSecond)) none 1000000000 ⟨1000000000⟩
        "p" true ∧
      ((run visits (create listing oneSecond)).2.credential ⟨1000000003⟩ "p").1 = .ok "secret" ∧
      InForce (notes credentialNote? visits (create listing oneSecond))
        (some (.told "p" (.ok "secret"))) 1000000000 ⟨1000000003⟩ "p" "secret" := by
  have hallow : ((run visits (create listing oneSecond)).2.check ⟨1000000000⟩ "p").1 = .allow := by
    decide +kernel
  have hsecret :
      ((run visits (create listing oneSecond)).2.credential ⟨1000000003⟩ "p").1 = .ok "secret" := by
    rfl
  refine ⟨hallow, ?_, hsecret, ?_⟩
  · exact (guard_rests_on_answers_in_force listing oneSecond visits ⟨1000000000⟩ "p").1 hallow
  · exact (guard_rests_on_answers_in_force listing oneSecond visits ⟨1000000003⟩ "p").2.2.2.1 _
      hsecret

end GatewayCache.Projects
