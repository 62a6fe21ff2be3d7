/-
  GatewayCache.Proofs.Config.Overriding

  What environment variables make of settings.

  `Overridden` says how settings lie to the ones they were made from: each value is what
  its variable spells, or what it was if the variable is not set, and the place for
  stored responses keeps its settings unless its kind changes. Applying variables gives
  these settings and no others (`applyVariables_eq_ok_iff`), and fails if they have a
  problem. They are overridden from themselves too (`Overridden.self`), so applying the
  variables once more changes nothing (`overrides_as_spelled`).
-/

import GatewayCache.Config.Environment

namespace GatewayCache

theorem Except.bind_eq_ok_iff {ε α β : Type} {x : Except ε α} {f : α → Except ε β} {b : β} :
    (x >>= f) = .ok b ↔ ∃ a, x = .ok a ∧ f a = .ok b := by
  cases x <;> simp [bind, Except.bind]

namespace Config

variable {vars : Variables} {c c' : Config} {text : String}

/-! ## Spelled values -/

/-- A truth value is spelled in small letters, blanks around it left out. -/
def SpellsBoolean (text : String) (b : Bool) : Prop :=
  Text.trim text.toList = (if b then "true" else "false").toList

/-- A number of at most 64 bits is spelled by decimal digits, maybe behind a plus sign,
    blanks around it left out. -/
def SpellsNumber (text : String) (n : Nat) : Prop :=
  ∃ digits : List Char,
    (Text.trim text.toList = digits ∨ Text.trim text.toList = '+' :: digits) ∧ digits ≠ [] ∧
    (∀ d ∈ digits, d.isDigit = true) ∧ Text.Decimal.value digits = n ∧ n ≤ Text.Decimal.word64

theorem readBoolean_eq_some_iff {b : Bool} :
    readBoolean (Text.trim text.toList) = some b ↔ SpellsBoolean text b := by
  unfold readBoolean SpellsBoolean
  split
  next htrue => cases b <;> simp [htrue]
  next htrue => cases b <;> simp_all

theorem readDigits_eq_some_iff {largest n : Nat} {digits : List Char} :
    Text.Decimal.readDigits largest digits = some n ↔
      digits ≠ [] ∧ (∀ d ∈ digits, d.isDigit = true) ∧ Text.Decimal.value digits = n ∧
        n ≤ largest := by
  unfold Text.Decimal.readDigits
  constructor
  · intro h
    split at h
    next hread =>
      obtain rfl := Option.some.inj h
      simp only [Bool.and_eq_true, Bool.not_eq_true', List.isEmpty_eq_false_iff, List.all_eq_true,
        decide_eq_true_eq] at hread
      exact ⟨hread.1.1, hread.1.2, rfl, hread.2⟩
    next => cases h
  · rintro ⟨hne, hdigits, rfl, hle⟩
    rw [if_pos]
    simp [hne, hle, List.all_eq_true.2 hdigits]

theorem readNumber_eq_some_iff {n : Nat} :
    readNumber (Text.trim text.toList) = some n ↔ SpellsNumber text n := by
  unfold readNumber SpellsNumber
  constructor
  · intro h
    unfold Text.Decimal.read at h
    split at h
    next digits hsigned => exact ⟨digits, .inr hsigned, readDigits_eq_some_iff.1 h⟩
    next => exact ⟨_, .inl rfl, readDigits_eq_some_iff.1 h⟩
  · rintro ⟨digits, hspelled | hspelled, hrest⟩
    · rw [hspelled, Text.Decimal.read]
      · exact readDigits_eq_some_iff.2 hrest
      · -- A plus sign is no digit, so the digits are not taken for signed ones.
        rintro others rfl
        exact absurd (hrest.2.1 '+' List.mem_cons_self) (by decide)
    · rw [hspelled]
      exact readDigits_eq_some_iff.2 hrest

/-! ## Single values -/

/-- A value is what its variable spells, or what it was if the variable is not set. -/
structure Takes {α : Type} (Spells : String → α → Prop) (vars : Variables) (name : String)
    (old new : α) : Prop where
  unset : vars name = none → new = old
  set : ∀ text, vars name = some text → Spells text new

section

variable {α : Type} {Spells : String → α → Prop} {name : String} {old new : α}

theorem takes_of_unset (unset : vars name = none) :
    Takes Spells vars name old new ↔ new = old :=
  ⟨fun h => h.unset unset, fun h => ⟨fun _ => h, fun _ set => nomatch unset.symm.trans set⟩⟩

theorem takes_of_set (set : vars name = some text) :
    Takes Spells vars name old new ↔ Spells text new where
  mp h := h.set text set
  mpr h := {
    unset := fun unset => nomatch unset.symm.trans set
    set := fun _ set' => Option.some.inj (set.symm.trans set') ▸ h }

theorem Takes.self (h : Takes Spells vars name old new) : Takes Spells vars name new new :=
  ⟨fun _ => rfl, h.set⟩

theorem override_eq_ok_iff {read : List Char → Option α}
    (hread : ∀ {text a}, read (Text.trim text.toList) = some a ↔ Spells text a) :
    override read vars name old = .ok new ↔ Takes Spells vars name old new := by
  unfold override
  cases hset : vars name with
  | none =>
      rw [takes_of_unset hset]
      exact ⟨fun h => (Except.ok.inj h).symm, fun h => congrArg _ h.symm⟩
  | some text =>
      rw [takes_of_set hset, ← hread]
      dsimp only
      cases read (Text.trim text.toList) <;> simp

end

/-! ## The place for stored responses -/

end Config

/-- A place of the same kind with defaults for all its settings. -/
def Backend.defaults : Backend → Backend
  | .memory _ => Backend.default
  | .redis _ _ _ => Backend.redisAt ""

namespace Config

/-- The settings of a place, taken from another one of its kind, but for what the
    variables say. They say it as it stands, blanks included. -/
def SettingsFrom (vars : Variables) : Backend → Backend → Prop
  | .memory maxEntries, new => new = .memory maxEntries
  | .redis url keyPrefix scanCount, new => ∃ url' keyPrefix',
      new = .redis url' keyPrefix' scanCount ∧
        Takes Eq vars urlVariable url url' ∧ Takes Eq vars keyPrefixVariable keyPrefix keyPrefix'

/-- A place is of the kind that its variable names, or of the kind that it was. It keeps
    the settings it had if its kind stays, and else starts from defaults. -/
structure PlaceOverridden (vars : Variables) (old new : Backend) : Prop where
  kind : Takes (fun text kind => Text.trimmed text = kind) vars backendVariable old.kind new.kind
  settings : SettingsFrom vars (if new.kind = old.kind then old else new.defaults) new

theorem takes_eq_iff {name old new : String} :
    Takes Eq vars name old new ↔ new = (vars name).getD old := by
  cases hset : vars name with
  | none => exact takes_of_unset hset
  | some text => exact (takes_of_set hset).trans eq_comm

theorem settingsFrom_iff {base new : Backend} :
    SettingsFrom vars base new ↔ new = overrideServer vars base := by
  cases base with
  | memory maxEntries => exact Iff.rfl
  | redis url keyPrefix scanCount =>
      simp only [SettingsFrom, takes_eq_iff, overrideServer]
      constructor
      · rintro ⟨_, _, rfl, rfl, rfl⟩
        rfl
      · rintro rfl
        exact ⟨_, _, rfl, rfl, rfl⟩

theorem kind_overrideServer (vars : Variables) (base : Backend) :
    (overrideServer vars base).kind = base.kind := by
  cases base <;> rfl

theorem defaults_overrideServer (vars : Variables) (base : Backend) :
    (overrideServer vars base).defaults = base.defaults := by
  cases base <;> rfl

/-- Naming the kind of a place gives the current one, if it is of this kind. -/
theorem ofKind_kind (base old : Backend) :
    ofKind base.kind old = .ok (if base.kind = old.kind then old else base.defaults) := by
  cases base <;> cases old <;> rfl

theorem kind_of_ofKind {kind : String} {old base : Backend} (h : ofKind kind old = .ok base) :
    base.kind = kind := by
  unfold ofKind at h
  split at h
  next hmemory =>
    cases old <;> cases h <;> exact hmemory.symm
  next =>
    split at h
    next hredis => cases old <;> cases h <;> exact hredis.symm
    next => cases h

theorem ofKind_eq_ok_iff {kind : String} {old base : Backend} :
    ofKind kind old = .ok base ↔
      base.kind = kind ∧ base = if base.kind = old.kind then old else base.defaults := by
  constructor
  · intro h
    obtain rfl := kind_of_ofKind h
    exact ⟨rfl, Except.ok.inj (h.symm.trans (ofKind_kind base old))⟩
  · rintro ⟨rfl, hbase⟩
    rw [ofKind_kind, ← hbase]

theorem overrideBackend_eq_ok_iff {old new : Backend} :
    overrideBackend vars old = .ok new ↔ PlaceOverridden vars old new := by
  unfold overrideBackend
  cases hset : vars backendVariable with
  | none =>
      have hkind := kind_overrideServer vars old
      constructor
      · intro h
        cases h
        exact ⟨(takes_of_unset hset).2 hkind, by rw [if_pos hkind, settingsFrom_iff]⟩
      · rintro ⟨kind, settings⟩
        rw [if_pos ((takes_of_unset hset).1 kind), settingsFrom_iff] at settings
        exact congrArg Except.ok settings.symm
  | some text =>
      dsimp only
      rw [Except.bind_eq_ok_iff]
      constructor
      · rintro ⟨base, hbase, hnew⟩
        cases hnew
        obtain ⟨hkind, hfrom⟩ := ofKind_eq_ok_iff.1 hbase
        refine ⟨(takes_of_set hset).2 ?_, ?_⟩
        · rw [kind_overrideServer, hkind]
        · rw [kind_overrideServer, defaults_overrideServer, ← hfrom, settingsFrom_iff]
      · rintro ⟨kind, settings⟩
        rw [takes_of_set hset] at kind
        rw [settingsFrom_iff] at settings
        generalize hfrom : (if new.kind = old.kind then old else new.defaults) = base at settings
        -- Before its address and prefix are set, the new place has its kind already.
        have hkind : base.kind = new.kind := by rw [settings, kind_overrideServer]
        have hdefaults : base.defaults = new.defaults := by rw [settings, defaults_overrideServer]
        refine ⟨base, ofKind_eq_ok_iff.2 ⟨hkind.trans kind.symm, ?_⟩, congrArg _ settings.symm⟩
        rw [hkind, hdefaults, hfrom]

/-! ## All settings -/

/-- Settings with all variables applied to others. -/
structure Overridden (vars : Variables) (c c' : Config) : Prop where
  enabled : Takes SpellsBoolean vars enabledVariable c.response.enabled c'.response.enabled
  defaultTtl : Takes SpellsNumber vars ttlVariable
    c.response.defaultTtlSeconds c'.response.defaultTtlSeconds
  maxObjectSize : Takes SpellsNumber vars objectSizeVariable
    c.response.maxObjectSize c'.response.maxObjectSize
  backend : PlaceOverridden vars c.response.backend c'.response.backend
  activeTtl : Takes SpellsNumber vars activeTtlVariable
    c.project.active.ttlSeconds c'.project.active.ttlSeconds
  credentialTtl : Takes SpellsNumber vars credentialTtlVariable
    c.project.credential.ttlSeconds c'.project.credential.ttlSeconds
  activeEntries : Takes SpellsNumber vars activeEntriesVariable
    c.project.active.maxEntries c'.project.active.maxEntries
  credentialEntries : Takes SpellsNumber vars credentialEntriesVariable
    c.project.credential.maxEntries c'.project.credential.maxEntries

/-- Applying variables gives the overridden settings and no others. -/
theorem applyVariables_eq_ok_iff : c.applyVariables vars = .ok c' ↔ Overridden vars c c' := by
  simp only [applyVariables, Except.bind_eq_ok_iff, override_eq_ok_iff readBoolean_eq_some_iff,
    override_eq_ok_iff readNumber_eq_some_iff, overrideBackend_eq_ok_iff]
  constructor
  · rintro ⟨enabled, henabled, ttl, httl, size, hsize, backend, hbackend, activeTtl, hactiveTtl,
      credentialTtl, hcredentialTtl, activeEntries, hactiveEntries, credentialEntries,
      hcredentialEntries, hc⟩
    cases hc
    exact ⟨henabled, httl, hsize, hbackend, hactiveTtl, hcredentialTtl, hactiveEntries,
      hcredentialEntries⟩
  · intro h
    exact ⟨_, h.enabled, _, h.defaultTtl, _, h.maxObjectSize, _, h.backend, _, h.activeTtl, _,
      h.credentialTtl, _, h.activeEntries, _, h.credentialEntries, rfl⟩

theorem applyEnvironment_eq_ok_iff :
    c.applyEnvironment vars = .ok c' ↔ Overridden vars c c' ∧ c'.check = .ok () := by
  simp only [applyEnvironment, checked, Except.bind_eq_ok_iff, applyVariables_eq_ok_iff]
  constructor
  · rintro ⟨c'', overridden, ⟨⟩, hcheck, hc⟩
    cases hc
    exact ⟨overridden, hcheck⟩
  · rintro ⟨overridden, hcheck⟩
    exact ⟨c', overridden, (), hcheck, rfl⟩

/-! ## Applying variables again -/

theorem SettingsFrom.self {base new : Backend} (h : SettingsFrom vars base new) :
    SettingsFrom vars new new := by
  cases base with
  | memory maxEntries =>
      cases h
      exact rfl
  | redis url keyPrefix scanCount =>
      obtain ⟨url', keyPrefix', rfl, hurl, hprefix⟩ := h
      exact ⟨url', keyPrefix', rfl, hurl.self, hprefix.self⟩

theorem PlaceOverridden.self {old new : Backend} (h : PlaceOverridden vars old new) :
    PlaceOverridden vars new new :=
  ⟨h.kind.self, by rw [if_pos rfl]; exact h.settings.self⟩

/-- Overridden settings are overridden from themselves. -/
theorem Overridden.self (h : Overridden vars c c') : Overridden vars c' c' where
  enabled := h.enabled.self
  defaultTtl := h.defaultTtl.self
  maxObjectSize := h.maxObjectSize.self
  backend := h.backend.self
  activeTtl := h.activeTtl.self
  credentialTtl := h.credentialTtl.self
  activeEntries := h.activeEntries.self
  credentialEntries := h.credentialEntries.self

/-! ## Variables that do not matter -/

/-- Two environments that differ in the address and the key prefix of a server at most. -/
def AlikeButServer (vars vars' : Variables) : Prop :=
  ∀ name, name ≠ urlVariable → name ≠ keyPrefixVariable → vars' name = vars name

theorem Takes.congr {α : Type} {Spells : String → α → Prop} {name : String} {old new : α}
    {vars' : Variables} (h : Takes Spells vars name old new) (hname : vars' name = vars name) :
    Takes Spells vars' name old new :=
  ⟨fun unset => h.unset (hname ▸ unset), fun text set => h.set text (hname ▸ set)⟩

/-- A place inside the process has no address and no key prefix to be overridden. -/
theorem PlaceOverridden.ignoresServer {old new : Backend} {vars' : Variables}
    (h : PlaceOverridden vars old new) (alike : AlikeButServer vars vars')
    (hmemory : new.kind = "memory") : PlaceOverridden vars' old new where
  kind := h.kind.congr (alike _ (by decide) (by decide))
  settings := by
    have hsettings := h.settings
    generalize (if new.kind = old.kind then old else new.defaults) = base at hsettings ⊢
    cases base with
    | memory maxEntries => exact hsettings
    | redis url keyPrefix scanCount =>
        obtain ⟨url', keyPrefix', rfl, -⟩ := hsettings
        exact absurd hmemory (show "redis" ≠ "memory" by decide)

theorem Overridden.ignoresServer {vars' : Variables} (h : Overridden vars c c')
    (alike : AlikeButServer vars vars') (hmemory : c'.response.backend.kind = "memory") :
    Overridden vars' c c' where
  enabled := h.enabled.congr (alike _ (by decide) (by decide))
  defaultTtl := h.defaultTtl.congr (alike _ (by decide) (by decide))
  maxObjectSize := h.maxObjectSize.congr (alike _ (by decide) (by decide))
  backend := h.backend.ignoresServer alike hmemory
  activeTtl := h.activeTtl.congr (alike _ (by decide) (by decide))
  credentialTtl := h.credentialTtl.congr (alike _ (by decide) (by decide))
  activeEntries := h.activeEntries.congr (alike _ (by decide) (by decide))
  credentialEntries := h.credentialEntries.congr (alike _ (by decide) (by decide))

/-- For all settings and all variables: applying the variables gives the settings that
    they override these to, provided that there is no problem with the result, and no
    others. Applying them to the result gives it again. If it keeps responses inside the
    process, the address and the key prefix of a server make no difference. -/
theorem overrides_as_spelled (c c' : Config) (vars : Variables) :
    (c.applyEnvironment vars = .ok c' ↔ Overridden vars c c' ∧ c'.check = .ok ()) ∧
    (c.applyEnvironment vars = .ok c' → c'.applyEnvironment vars = .ok c') ∧
    (c.applyEnvironment vars = .ok c' → c'.response.backend.kind = "memory" →
      ∀ vars', AlikeButServer vars vars' → c.applyEnvironment vars' = .ok c') := by
  refine ⟨applyEnvironment_eq_ok_iff, ?_, ?_⟩
  · intro h
    obtain ⟨overridden, hcheck⟩ := applyEnvironment_eq_ok_iff.1 h
    exact applyEnvironment_eq_ok_iff.2 ⟨overridden.self, hcheck⟩
  · intro h hmemory vars' alike
    obtain ⟨overridden, hcheck⟩ := applyEnvironment_eq_ok_iff.1 h
    exact applyEnvironment_eq_ok_iff.2 ⟨overridden.ignoresServer alike hmemory, hcheck⟩

/-- Settings with room for 64 entries inside the process. -/
def roomy : Config := { response := { backend := .memory (some 64) } }

/-- The kind of place is named again, and an address is given for which there is no use. -/
def memoryNamed : Variables := fun name =>
  if name = backendVariable then some " memory "
  else if name = urlVariable then some "redis://cache:6379"
  else if name = ttlVariable then some "+120 "
  else none

/-- The room stays as it was, and the lifetime is the one spelled. -/
theorem overrides_as_spelled_roomy :
    let c' : Config := { response := { defaultTtlSeconds := 120, backend := .memory (some 64) } }
    roomy.applyEnvironment memoryNamed = .ok c' ∧ Overridden memoryNamed roomy c' ∧
      c'.check = .ok () ∧ c'.applyEnvironment memoryNamed = .ok c' ∧
      roomy.applyEnvironment (fun name => if name = urlVariable then none else memoryNamed name) =
        .ok c' := by
  intro c'
  have hok : roomy.applyEnvironment memoryNamed = .ok c' := by rfl
  obtain ⟨exact, again, unmoved⟩ := overrides_as_spelled roomy c' memoryNamed
  obtain ⟨overridden, hcheck⟩ := exact.1 hok
  refine ⟨hok, overridden, hcheck, again hok, unmoved hok (by decide) _ ?_⟩
  intro name hurl _
  exact if_neg hurl

end Config

end GatewayCache
