/-
  GatewayCache.Proofs.Metadata.Traceless

  Questions about projects that bring nothing to hold.

  A cache that is consulted holds values that are worth it and no others
  (`Sound.consult`), so an answer that is not worth holding, or a fault, can only come
  from the source. By then the cache has been read once in vain: an expired item under
  the key is gone and a miss is counted (`get_of_miss`), and that is all that the
  question leaves behind (`consult_of_fruitless`). After any run this is so for the
  faults of both questions and for empty credentials
  (`fruitless_questions_leave_no_trace`).
-/

import GatewayCache.Proofs.Metadata.Freshness

namespace GatewayCache

namespace RecencyCache

variable {ν : Type} {c : RecencyCache ν} {now : Instant} {key : String}
  {worth : ν → Bool} {told : Except Fault ν}

/-! ## Values that are worth holding -/

/-- The cache is tidy, and all its values are worth holding. -/
structure Sound (worth : ν → Bool) (c : RecencyCache ν) : Prop where
  tidy : c.Tidy
  worthy : ∀ i ∈ c.items, worth i.value = true

theorem sound_create (worth : ν → Bool) (ttl : Span) (capacity : Nat) :
    (create ttl capacity).Sound worth :=
  ⟨tidy_create ttl capacity, nofun⟩

theorem Sound.get (h : c.Sound worth) (now : Instant) (key : String) :
    (c.get now key).2.Sound worth :=
  ⟨h.tidy.step now (.get key), fun i hi => h.worthy i (mem_get hi).1⟩

theorem Sound.set (h : c.Sound worth) {value : ν} (hworth : worth value = true) (now : Instant)
    (key : String) : (c.set now key value).2.Sound worth := by
  refine ⟨h.tidy.step now (.set key value), fun i hi => ?_⟩
  -- What is displaced was worthy too, so only the written value has to be looked at.
  rcases written_or_kept (moves_set now key value c) hi with ⟨hset, -⟩ | ⟨held, -⟩
  · obtain ⟨-, hvalue⟩ := Op.set.inj hset
    exact hvalue ▸ hworth
  · exact h.worthy i held

theorem Sound.purge (h : c.Sound worth) (key : String) : (c.purge key).2.Sound worth :=
  ⟨h.tidy.step ⟨0⟩ (.purge key), fun i hi => h.worthy i (mem_others.1 hi).1⟩

theorem Sound.consult (h : c.Sound worth) (told : Except Fault ν) (now : Instant) (key : String) :
    (c.consult worth told now key).2.Sound worth := by
  unfold RecencyCache.consult
  split
  · exact h.get now key
  · exact h.get now key
  next value _ =>
    split
    next hworth => exact (h.get now key).set hworth now key
    next => exact h.get now key

/-! ## Questions in vain -/

/-- The cache after it was read in vain: without the item under the key, if there was one
    and it had expired, and with one more miss. -/
def afterMiss (now : Instant) (key : String) (c : RecencyCache ν) : RecencyCache ν :=
  { c with items := c.items.filter fun i => i.key != key || i.isLive now,
           misses := c.misses + 1 }

theorem get_of_miss (tidy : c.Tidy) (hmiss : (c.get now key).1 = none) :
    (c.get now key).2 = c.afterMiss now key := by
  unfold get at hmiss ⊢
  cases hfind : c.find? key with
  | none =>
      have hall : (c.items.filter fun i => i.key != key || i.isLive now) = c.items :=
        List.filter_eq_self.2 fun i hi => by simp [find?_eq_none_iff.1 hfind i hi]
      rw [afterMiss, hall]
  | some i =>
      obtain ⟨held, hkey⟩ := mem_of_find? hfind
      cases hlive : i.isLive now with
      | true =>
          rw [hfind] at hmiss
          simp [hlive] at hmiss
      | false =>
          -- Keys are distinct, so the expired item is the only one under the key.
          have hothers : c.others key =
              c.items.filter fun i => i.key != key || i.isLive now := by
            apply List.filter_congr
            intro j hj
            by_cases hjkey : j.key = key
            · rw [tidy.eq_of_key_eq hj held (hjkey.trans hkey.symm), hlive, Bool.or_false]
            · simp [hjkey]
          simp only [hlive, Bool.false_eq_true, if_false]
          rw [afterMiss, hothers]

/-- An answer brings nothing to hold if it is a fault, or a value that is not worth it. -/
def Fruitless (worth : ν → Bool) : Except Fault ν → Prop
  | .error _ => True
  | .ok value => worth value = false

/-- An answer with nothing to hold is the source's own, which was asked because no live
    value was held, and it leaves the cache as it was after that. -/
theorem consult_of_fruitless (h : c.Sound worth)
    (hanswer : Fruitless worth (c.consult worth told now key).1) :
    (c.get now key).1 = none ∧ (c.consult worth told now key).1 = told ∧
      (c.consult worth told now key).2 = c.afterMiss now key := by
  unfold RecencyCache.consult at hanswer ⊢
  cases hget : (c.get now key).1 with
  | some value =>
      rw [hget] at hanswer
      -- A value that was held is worth it.
      obtain ⟨i, hi, -, rfl, -⟩ := exists_item_of_get hget
      have hworth : worth i.value = false := hanswer
      rw [h.worthy i hi] at hworth
      cases hworth
  | none =>
      rw [hget] at hanswer
      have hmiss := get_of_miss h.tidy hget
      cases told with
      | error e => exact ⟨rfl, rfl, hmiss⟩
      | ok value =>
          have hworth : worth value = false := hanswer
          simp only [hworth, Bool.false_eq_true, if_false]
          exact ⟨trivial, trivial, hmiss⟩

end RecencyCache

namespace Projects

open RecencyCache (Fruitless)

variable {π : Type} {p : Projects π}

/-! ## Calls and runs -/

/-- Both caches are tidy, and no empty credential is cached. -/
structure Sound (p : Projects π) : Prop where
  activity : p.activity.Sound fun _ => true
  credentials : p.credentials.Sound isSet

theorem sound_create (source : π) (config : ProjectConfig) : (create source config).Sound :=
  ⟨RecencyCache.sound_create _ _ _, RecencyCache.sound_create _ _ _⟩

theorem Sound.invalidate (h : p.Sound) (id : String) : (p.invalidate id).Sound :=
  ⟨h.activity.purge id, h.credentials.purge id⟩

variable [ProjectSource π]

theorem Sound.isActive (h : p.Sound) (now : Instant) (id : String) :
    (p.isActive now id).2.Sound := by
  rw [isActive_eq]
  exact ⟨h.activity.consult _ now id, h.credentials⟩

theorem Sound.credential (h : p.Sound) (now : Instant) (id : String) :
    (p.credential now id).2.Sound := by
  rw [credential_eq]
  exact ⟨h.activity, h.credentials.consult _ now id⟩

/-- Every run keeps the caches sound, also where items are displaced or renewed. -/
theorem Sound.run (h : p.Sound) (ops : List (Instant × Op)) : (run ops p).2.Sound :=
  run_keeps (fun now id _ h => h.isActive now id) (fun now id _ h => h.credential now id)
    (fun id _ h => h.invalidate id) h ops

/-! ## No trace -/

theorem credentials_isActive (now : Instant) (id : String) (p : Projects π) :
    (p.isActive now id).2.credentials = p.credentials := by
  rw [isActive_eq]

theorem activity_credential (now : Instant) (id : String) (p : Projects π) :
    (p.credential now id).2.activity = p.activity := by
  rw [credential_eq]

theorem isActive_of_error (h : p.Sound) {now : Instant} {id : String} {e : Fault}
    (herror : (p.isActive now id).1 = .error e) :
    (ProjectSource.active id p.source).1 = .error e ∧
      (p.isActive now id).2.activity = p.activity.afterMiss now id := by
  rw [isActive_eq] at herror ⊢
  have hfruitless : Fruitless (fun _ => true)
      (p.activity.consult (fun _ => true) (ProjectSource.active id p.source).1 now id).1 := by
    rw [herror]
    trivial
  obtain ⟨-, htold, hcache⟩ := RecencyCache.consult_of_fruitless h.activity hfruitless
  exact ⟨htold.symm.trans herror, hcache⟩

/-- A credential that is empty, or that could not be given, is the source's answer and
    is forgotten at once. -/
theorem credential_of_fruitless (h : p.Sound) {now : Instant} {id : String}
    (hanswer : Fruitless isSet (p.credential now id).1) :
    (p.credential now id).1 = (ProjectSource.credential id p.source).1 ∧
      (p.credential now id).2.credentials = p.credentials.afterMiss now id := by
  rw [credential_eq] at hanswer ⊢
  obtain ⟨-, htold, hcache⟩ := RecencyCache.consult_of_fruitless h.credentials hanswer
  exact ⟨htold, hcache⟩

/-- Whatever the source answers, whatever the settings and after any calls: a question
    that fails gives exactly the fault of the source. Such a question, and one that is
    answered by the empty credential, leaves the items of its cache as they were, in
    their order and with their expiries, but for an expired one of the same project,
    and counts one miss and nothing else. The other cache is not touched by any
    question. No empty credential is ever cached. -/
theorem fruitless_questions_leave_no_trace (source : π) (config : ProjectConfig)
    (ops : List (Instant × Op)) (now : Instant) (id : String) :
    let p := (run ops (create source config)).2
    (∀ e, (p.isActive now id).1 = .error e →
      (ProjectSource.active id p.source).1 = .error e ∧
        (p.isActive now id).2.activity = p.activity.afterMiss now id) ∧
    (∀ e, (p.credential now id).1 = .error e →
      (ProjectSource.credential id p.source).1 = .error e ∧
        (p.credential now id).2.credentials = p.credentials.afterMiss now id) ∧
    ((p.credential now id).1 = .ok "" →
      (p.credential now id).2.credentials = p.credentials.afterMiss now id) ∧
    (p.isActive now id).2.credentials = p.credentials ∧
    (p.credential now id).2.activity = p.activity ∧
    ∀ i ∈ p.credentials.items, i.value ≠ "" := by
  intro p
  have hsound : p.Sound := (sound_create source config).run ops
  refine ⟨?_, ?_, ?_, credentials_isActive now id p, activity_credential now id p, ?_⟩
  · intro e herror
    exact isActive_of_error hsound herror
  · intro e herror
    have hfruitless : Fruitless isSet (p.credential now id).1 := by
      rw [herror]
      trivial
    obtain ⟨htold, hcache⟩ := credential_of_fruitless hsound hfruitless
    exact ⟨htold.symm.trans herror, hcache⟩
  · intro hempty
    have hfruitless : Fruitless isSet (p.credential now id).1 := by
      rw [hempty]
      exact decide_eq_false (not_not_intro rfl)
    exact (credential_of_fruitless hsound hfruitless).2
  · intro i hi
    exact of_decide_eq_true (hsound.credentials.worthy i hi)

/-- A source that fails once it has said a few times that a project is active. Only the
    project "p" has a credential. -/
structure Waning where
  strength : Nat

/-- The fault of a source that answered too often. -/
def exhausted : Fault := .provider "exhausted" {}

instance : ProjectSource Waning where
  active _ s := match s.strength with
    | 0 => (.error exhausted, s)
    | n + 1 => (.ok true, ⟨n⟩)
  credential id s := match s.strength with
    | 0 => (.error exhausted, s)
    | _ + 1 => (.ok (if id = "p" then "secret" else ""), s)

/-- What is asked as long as the source answers. -/
def earlyQuestions : List (Instant × Op) :=
  [(⟨0⟩, .credential "p"), (⟨0⟩, .check "p"), (⟨1⟩, .check "q")]

/-- A source with the strength for two answers, behind caches for one second. -/
def waningProjects : Projects Waning := create ⟨2⟩ ⟨⟨1, 2⟩, ⟨1, 2⟩⟩

/-- After one second the activity of "p" has expired and the source fails; that of "q" is
    still held, and so is the credential of "p". Before, "q" has an empty credential. -/
theorem fruitless_questions_leave_no_trace_waning :
    let p := (run earlyQuestions waningProjects).2
    (p.isActive ⟨1000000000⟩ "p").1 = .error exhausted ∧
      p.activity.items.map (·.key) = ["q", "p"] ∧
      (p.activity.afterMiss ⟨1000000000⟩ "p").items.map (·.key) = ["q"] ∧
      (p.isActive ⟨1000000000⟩ "p").2.activity = p.activity.afterMiss ⟨1000000000⟩ "p" ∧
      (p.credential ⟨1000000000⟩ "q").1 = .error exhausted ∧
      (p.credential ⟨1000000000⟩ "q").2.credentials =
        p.credentials.afterMiss ⟨1000000000⟩ "q" ∧
      ⟨"p", "secret", ⟨1000000000⟩⟩ ∈ p.credentials.items ∧ "secret" ≠ "" ∧
      (waningProjects.credential ⟨0⟩ "q").1 = .ok "" ∧
      (waningProjects.credential ⟨0⟩ "q").2.credentials =
        waningProjects.credentials.afterMiss ⟨0⟩ "q" := by
  intro p
  have hactive : (p.isActive ⟨1000000000⟩ "p").1 = .error exhausted := by rfl
  have hsecret : (p.credential ⟨1000000000⟩ "q").1 = .error exhausted := by rfl
  have hempty : (waningProjects.credential ⟨0⟩ "q").1 = .ok "" := by rfl
  have hheld : ⟨"p", "secret", ⟨1000000000⟩⟩ ∈ p.credentials.items := by decide +kernel
  have hbefore : p.activity.items.map (·.key) = ["q", "p"] := by decide +kernel
  have hafter : (p.activity.afterMiss ⟨1000000000⟩ "p").items.map (·.key) = ["q"] := by
    decide +kernel
  obtain ⟨hfault, -, -, -, -, hset⟩ := fruitless_questions_leave_no_trace (⟨2⟩ : Waning)
    ⟨⟨1, 2⟩, ⟨1, 2⟩⟩ earlyQuestions ⟨1000000000⟩ "p"
  obtain ⟨-, hrefused, -⟩ := fruitless_questions_leave_no_trace (⟨2⟩ : Waning)
    ⟨⟨1, 2⟩, ⟨1, 2⟩⟩ earlyQuestions ⟨1000000000⟩ "q"
  obtain ⟨-, -, hnothing, -⟩ := fruitless_questions_leave_no_trace (⟨2⟩ : Waning)
    ⟨⟨1, 2⟩, ⟨1, 2⟩⟩ [] ⟨0⟩ "q"
  exact ⟨hactive, hbefore, hafter, (hfault _ hactive).2, hsecret, (hrefused _ hsecret).2, hheld,
    hset _ hheld, hempty, hnothing hempty⟩

end Projects

end GatewayCache
