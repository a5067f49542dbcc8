/-
`ServiceConfiguration`: the runtime configuration, loaded for the first caller.

The first call of `getConfigValue` makes a promise whose executor asks the file system for the
profile, `runtime-config.json`. The callback of that question loads the profile into the
configuration, validates it and resolves the promise, which is what all callers wait for. It runs
after the executor has returned, so what it throws rejects nothing: the promise stays as it is.

Callers, the callback and the continuations of the callers come in any order (`runs`). What every
run keeps (`Phase`, `Sound`) gives what becomes of the callers: all are given the configuration or
its error exactly where the callback has not run yet or has thrown nothing
(`getConfigValue_settled_iff`), and otherwise none of them is given anything, however long
it goes on (`callers_wait`).
-/
import WebInsights.Effect.Machine
import WebInsights.Js.Value

set_option autoImplicit false

namespace WebInsights.Common

open Effect Js

inductive RuntimeConfigKey where
  | logConfig
  | queueConfig
  | restApiConfig
  | availabilityTestConfig
  deriving DecidableEq

def RuntimeConfigKey.name : RuntimeConfigKey → String
  | logConfig => "logConfig"
  | queueConfig => "queueConfig"
  | restApiConfig => "restApiConfig"
  | availabilityTestConfig => "availabilityTestConfig"

inductive SchemaFormat where
  | boolean
  | int
  | string
  deriving DecidableEq

structure SchemaProperty where
  name : String
  format : SchemaFormat
  default : Val

abbrev RuntimeConfigSchema := List (RuntimeConfigKey × List SchemaProperty)

def getRuntimeConfigSchema : RuntimeConfigSchema :=
  [(.logConfig, [⟨"logInConsole", .boolean, .bool true⟩]),
    (.queueConfig,
      [⟨"maxQueueSize", .int, .num 10⟩,
        ⟨"messageVisibilityTimeoutInSeconds", .int, .num (30 * 1.5 * 60)⟩]),
    (.restApiConfig,
      [⟨"minScanPriorityValue", .int, .num (-1000)⟩,
        ⟨"maxScanPriorityValue", .int, .num 1000⟩,
        ⟨"defaultA11yScanFrequency", .string, .str "0 0 17 ? * 1#1"⟩]),
    (.availabilityTestConfig,
      [⟨"environmentDefinition", .string, .str "canary"⟩,
        ⟨"logQueryTimeRange", .string, .str "P1D"⟩])]

/-- The `convict` package. A `Profile` is what a file holds. -/
structure Convict (Config Profile Error Value : Type) where
  convictModule : RuntimeConfigSchema → Except Error Config
  loadFile : Config → Profile → Except Error Config
  /-- With `{ allowed: 'strict' }`. -/
  validate : Config → Except Error Unit
  /-- All of the configuration, if there is no key. -/
  get : Config → Option RuntimeConfigKey → Value

/-- What the loading of the configuration asks of others. -/
inductive LoadStep where
  | convictModule
  | exists
  | loadFile
  | validate
  deriving DecidableEq

inductive LoadConfigPromise (Config Error : Type) where
  | pending
  | settled (result : Except Error Config)

structure ServiceConfiguration (Config Error : Type) where
  loadConfigPromise : Option (LoadConfigPromise Config Error)
  /-- The callbacks of `exists` that were not invoked yet, each with its `config`. -/
  existsCallbacks : List Config
  performed : List LoadStep
  /-- What callbacks threw. -/
  uncaught : List Error

/-- A call of `getConfigValue`, and how its promise was settled. -/
structure ConfigCaller (Error Value : Type) where
  key : Option RuntimeConfigKey
  outcome : Option (Except Error Value)

structure ConfigProcess (Config Error Value : Type) where
  service : ServiceConfiguration Config Error
  callers : List (ConfigCaller Error Value)

inductive ConfigEvent where
  | getConfigValue (key : Option RuntimeConfigKey)
  /-- The file system invokes a callback of `exists`. -/
  | existsCallback
  /-- The promise that a caller waits for is settled, and the caller goes on. -/
  | resume (i : ℕ)
  deriving DecidableEq

namespace ServiceConfiguration

variable {Config Profile Error Value : Type} (convict : Convict Config Profile Error Value)
  (profile : Option Profile)

def start : ServiceConfiguration Config Error := ⟨none, [], [], []⟩

/-- `getConvictConfig`, with the executor of its promise. -/
def getConvictConfig (s : ServiceConfiguration Config Error) : ServiceConfiguration Config Error :=
  match s.loadConfigPromise with
  | some _ => s
  | none =>
    match convict.convictModule getRuntimeConfigSchema with
    | .ok config => { s with
        loadConfigPromise := some .pending
        existsCallbacks := s.existsCallbacks ++ [config]
        performed := s.performed ++ [.convictModule, .exists] }
    | .error e => { s with
        -- what the executor throws rejects its promise
        loadConfigPromise := some (.settled (.error e))
        performed := s.performed ++ [.convictModule] }

/-- What the callback does with the configuration. -/
def load (config : Config) : List LoadStep × Except Error Config :=
  match profile with
  | some content =>
    match convict.loadFile config content with
    | .error e => ([.loadFile], .error e)
    | .ok config => ([.loadFile, .validate], (convict.validate config).map fun _ => config)
  | none => ([], .ok config)

/-- The callback that `getConvictConfig` gives `exists`, when it is invoked. -/
def existsCallback (s : ServiceConfiguration Config Error) :
    Option (ServiceConfiguration Config Error) :=
  match s.existsCallbacks with
  | [] => none
  | config :: existsCallbacks =>
    match load convict profile config with
    | (performed, .ok config) => some { s with
        loadConfigPromise := some (.settled (.ok config))
        existsCallbacks := existsCallbacks
        performed := s.performed ++ performed }
    | (performed, .error e) => some { s with
        -- the executor has returned: nothing catches this
        existsCallbacks := existsCallbacks
        performed := s.performed ++ performed
        uncaught := s.uncaught ++ [e] }

/-- `getConfigValue`, until it awaits. -/
def getConfigValue (key : Option RuntimeConfigKey) (s : ConfigProcess Config Error Value) :
    ConfigProcess Config Error Value where
  service := s.service.getConvictConfig convict
  callers := s.callers ++ [⟨key, none⟩]

/-- `getConfigValue`, after the `await`. -/
def resume (i : ℕ) (s : ConfigProcess Config Error Value) :
    Option (ConfigProcess Config Error Value) :=
  match s.callers[i]?, s.service.loadConfigPromise with
  | some ⟨key, none⟩, some (.settled result) => some { s with
      callers := s.callers.set i ⟨key, some (result.map fun config => convict.get config key)⟩ }
  | _, _ => none

def step (s : ConfigProcess Config Error Value) :
    ConfigEvent → Option (ConfigProcess Config Error Value)
  | .getConfigValue key => some (getConfigValue convict key s)
  | .existsCallback =>
    (s.service.existsCallback convict profile).map fun service => { s with service := service }
  | .resume i => resume convict i s

def runs (events : List ConfigEvent) : Option (ConfigProcess Config Error Value) :=
  Machine.runs (step convict profile) ⟨start, []⟩ events

/-! ## What the callers were promised -/

/-- The configuration, or what prevents it. -/
def loadedConfig : Except Error Config :=
  convict.convictModule getRuntimeConfigSchema >>= fun config => (load convict profile config).2

def promisedOutcome (key : Option RuntimeConfigKey) : Except Error Value :=
  (loadedConfig convict profile).map fun config => convict.get config key

structure Promised (events : List ConfigEvent) (s : ConfigProcess Config Error Value) : Prop where
  /-- Nothing is asked for twice. -/
  once : s.service.performed.Nodup
  /-- Once the callback has run, the promise of each caller is settled, or it is when the caller
  goes on, which it can. -/
  settled : .existsCallback ∈ events → ∀ i caller, s.callers[i]? = some caller →
    caller.outcome = some (promisedOutcome convict profile caller.key) ∨
    ∃ s', step convict profile s (.resume i) = some s' ∧
      s'.callers[i]? = some ⟨caller.key, some (promisedOutcome convict profile caller.key)⟩

/-- A profile that is loaded and passes the validation. -/
def Valid (content : Profile) : Prop :=
  ∀ config, convict.convictModule getRuntimeConfigSchema = .ok config →
    ∃ loaded, convict.loadFile config content = .ok loaded ∧ convict.validate loaded = .ok ()

/-! ## What holds after every run -/

/-- Where the loading of the configuration is, and whether the callback has run. -/
inductive Phase : Prop → ServiceConfiguration Config Error → Prop
  | idle : Phase False start
  | refused {e : Error} (hcreate : convict.convictModule getRuntimeConfigSchema = .error e) :
      Phase False ⟨some (.settled (.error e)), [], [.convictModule], []⟩
  | requested {config : Config}
      (hcreate : convict.convictModule getRuntimeConfigSchema = .ok config) :
      Phase False ⟨some .pending, [config], [.convictModule, .exists], []⟩
  | loaded {config config' : Config} {performed : List LoadStep}
      (hcreate : convict.convictModule getRuntimeConfigSchema = .ok config)
      (hload : load convict profile config = (performed, .ok config')) :
      Phase True ⟨some (.settled (.ok config')), [], [.convictModule, .exists] ++ performed, []⟩
  | thrown {config : Config} {performed : List LoadStep} {e : Error}
      (hcreate : convict.convictModule getRuntimeConfigSchema = .ok config)
      (hload : load convict profile config = (performed, .error e)) :
      Phase True ⟨some .pending, [], [.convictModule, .exists] ++ performed, [e]⟩

structure Sound (events : List ConfigEvent) (s : ConfigProcess Config Error Value) : Prop where
  phase : Phase convict profile (.existsCallback ∈ events) s.service
  /-- There is a promise once there is a caller. -/
  called : s.callers ≠ [] ↔ s.service.loadConfigPromise ≠ none
  /-- Callers are given what the promise was settled with. -/
  callers : ∀ caller ∈ s.callers, ∀ outcome, caller.outcome = some outcome →
    ∃ result, s.service.loadConfigPromise = some (.settled result) ∧
      outcome = result.map fun config => convict.get config caller.key

section Sound

variable {convict profile} {events : List ConfigEvent} {s s' : ConfigProcess Config Error Value}
  {called : Prop} {service service' : ServiceConfiguration Config Error} {i : ℕ}

theorem performed_load {config : Config} : (load convict profile config).1 = [] ∨
    (load convict profile config).1 = [.loadFile] ∨
      (load convict profile config).1 = [.loadFile, .validate] := by
  unfold load
  split
  · split
    · exact Or.inr (Or.inl rfl)
    · exact Or.inr (Or.inr rfl)
  · exact Or.inl rfl

theorem Phase.nodup (h : Phase convict profile called service) : service.performed.Nodup := by
  have hload : ∀ config,
      ([LoadStep.convictModule, .exists] ++ (load convict profile config).1).Nodup := by
    intro config
    rcases @performed_load _ _ _ _ convict profile config with h | h | h
    · rw [h]
      decide
    · rw [h]
      decide
    · rw [h]
      decide
  cases h with
  | idle => exact List.nodup_nil
  | refused hcreate => exact List.nodup_singleton _
  | requested hcreate =>
    show [LoadStep.convictModule, .exists].Nodup
    decide
  | @loaded config config' performed hcreate hresult =>
    have hnodup := hload config
    rwa [hresult] at hnodup
  | @thrown config performed e hcreate hresult =>
    have hnodup := hload config
    rwa [hresult] at hnodup

/-- The first call asks for the profile, and no other call does. -/
theorem Phase.getConvictConfig (h : Phase convict profile called service) :
    Phase convict profile called (service.getConvictConfig convict) ∧
      (service.getConvictConfig convict).loadConfigPromise ≠ none ∧
      ∀ promise, service.loadConfigPromise = some promise →
        (service.getConvictConfig convict).loadConfigPromise = some promise := by
  cases h with
  | idle =>
    unfold ServiceConfiguration.getConvictConfig
    rcases hcreate : convict.convictModule getRuntimeConfigSchema with e | config
    · exact ⟨.refused hcreate, nofun, nofun⟩
    · exact ⟨.requested hcreate, nofun, nofun⟩
  | refused hcreate => exact ⟨.refused hcreate, nofun, fun _ => id⟩
  | requested hcreate => exact ⟨.requested hcreate, nofun, fun _ => id⟩
  | loaded hcreate hload => exact ⟨.loaded hcreate hload, nofun, fun _ => id⟩
  | thrown hcreate hload => exact ⟨.thrown hcreate hload, nofun, fun _ => id⟩

/-- The callback runs once, while the promise is pending. -/
theorem Phase.existsCallback (h : Phase convict profile called service)
    (hcallback : service.existsCallback convict profile = some service') :
    Phase convict profile True service' ∧ service.loadConfigPromise = some .pending ∧
      service'.loadConfigPromise ≠ none := by
  cases h with
  | requested hcreate =>
    unfold ServiceConfiguration.existsCallback at hcallback
    dsimp only at hcallback
    split at hcallback
    · obtain rfl := Option.some.inj hcallback
      exact ⟨.loaded hcreate ‹_›, rfl, nofun⟩
    · obtain rfl := Option.some.inj hcallback
      exact ⟨.thrown hcreate ‹_›, rfl, nofun⟩
  | idle => cases hcallback
  | refused hcreate => cases hcallback
  | loaded hcreate hload => cases hcallback
  | thrown hcreate hload => cases hcallback

theorem resume_eq_some : resume convict i s = some s' ↔
    ∃ caller result, s.callers[i]? = some caller ∧ caller.outcome = none ∧
      s.service.loadConfigPromise = some (.settled result) ∧ { s with
        callers := s.callers.set i
          ⟨caller.key, some (result.map fun config => convict.get config caller.key)⟩ } = s' := by
  unfold resume
  constructor
  · intro h
    split at h
    · exact ⟨_, _, ‹_›, rfl, ‹_›, Option.some.inj h⟩
    · cases h
  · rintro ⟨⟨key, outcome⟩, result, hget, rfl, hpromise, rfl⟩
    rw [hget, hpromise]

theorem Sound.step {event : ConfigEvent} (h : Sound convict profile events s)
    (hstep : step convict profile s event = some s') :
    Sound convict profile (events ++ [event]) s' := by
  cases event with
  | getConfigValue key =>
    obtain rfl := Option.some.inj hstep
    obtain ⟨hphase, hsome, hkept⟩ := h.phase.getConvictConfig
    refine ⟨?_, ⟨fun _ => hsome, fun _ => List.append_ne_nil_of_right_ne_nil _ nofun⟩, ?_⟩
    · change Phase _ _ _ (s.service.getConvictConfig convict)
      simpa using hphase
    · intro caller hmem outcome houtcome
      rcases List.mem_append.mp hmem with hold | hnew
      · obtain ⟨result, hresult, heq⟩ := h.callers caller hold outcome houtcome
        exact ⟨result, hkept _ hresult, heq⟩
      · rw [List.mem_singleton.mp hnew] at houtcome
        cases houtcome
  | existsCallback =>
    obtain ⟨service, hcallback, rfl⟩ := Option.map_eq_some_iff.mp hstep
    obtain ⟨hphase, hpending, hsome⟩ := h.phase.existsCallback hcallback
    refine ⟨?_, ⟨fun _ => hsome, fun _ => ?_⟩, ?_⟩
    · simpa using hphase
    · refine h.called.mpr ?_
      rw [hpending]
      nofun
    · -- nobody was given anything before
      intro caller hmem outcome houtcome
      obtain ⟨result, hresult, -⟩ := h.callers caller hmem outcome houtcome
      rw [hpending] at hresult
      cases hresult
  | resume i =>
    obtain ⟨caller, result, hget, hnone, hpromise, rfl⟩ := resume_eq_some.mp hstep
    refine ⟨?_, ?_, ?_⟩
    · simpa using h.phase
    · rw [← h.called, ne_eq, List.set_eq_nil_iff]
    · intro caller' hmem outcome houtcome
      rcases List.mem_or_eq_of_mem_set hmem with hold | rfl
      · exact h.callers caller' hold outcome houtcome
      · exact ⟨result, hpromise, (Option.some.inj houtcome).symm⟩

theorem runs_sound (hruns : runs convict profile events = some s) :
    Sound convict profile events s :=
  Machine.runs_invariant (I := Sound convict profile)
    ⟨by simpa using Phase.idle, ⟨fun h => absurd rfl h, fun h => absurd rfl h⟩,
      List.forall_mem_nil _⟩
    (fun _ _ _ _ h hstep => h.step hstep) hruns

end Sound

/-! ## What becomes of the callers -/

section Callers

variable {convict : Convict Config Profile Error Value} {profile : Option Profile}
  {events later : List ConfigEvent} {s s' : ConfigProcess Config Error Value}
  {called : Prop} {service : ServiceConfiguration Config Error} {config config' : Config}

theorem load_ok_iff : (∃ loaded, (load convict profile config).2 = .ok loaded) ↔
    ∀ content, profile = some content → ∃ loaded,
      convict.loadFile config content = .ok loaded ∧ convict.validate loaded = .ok () := by
  unfold load
  rcases profile with _ | content
  · simp
  · rcases hfile : convict.loadFile config content with e | loaded
    · simp [hfile]
    · rcases hvalidate : convict.validate loaded with e | ⟨⟩
      · simp [hfile, hvalidate, Except.map]
      · simp [hfile, hvalidate, Except.map]

/-- The callback throws nothing exactly if the profile is absent or valid. -/
theorem loaded_or_thrown (h : Phase convict profile called service) (hcalled : called) :
    (∃ config, service.loadConfigPromise = some (.settled (.ok config)) ∧
      loadedConfig convict profile = .ok config ∧
      ∀ content, profile = some content → Valid convict content) ∨
    (service.loadConfigPromise = some .pending ∧ ∃ e, loadedConfig convict profile = .error e ∧
      service.uncaught = [e] ∧ ¬ ∀ content, profile = some content → Valid convict content) := by
  -- there is one configuration that `convict` can be created with
  have hvalid : ∀ config, convict.convictModule getRuntimeConfigSchema = .ok config →
      ((∀ content, profile = some content → Valid convict content) ↔
        ∃ loaded, (load convict profile config).2 = .ok loaded) := by
    intro config hcreate
    rw [load_ok_iff]
    refine forall₂_congr fun content _ => ⟨fun h => h config hcreate, fun h config' hcreate' => ?_⟩
    obtain rfl := Except.ok.inj (hcreate.symm.trans hcreate')
    exact h
  cases h with
  | idle => exact hcalled.elim
  | refused hcreate => exact hcalled.elim
  | requested hcreate => exact hcalled.elim
  | @loaded config config' performed hcreate hload =>
    have hresult : (load convict profile config).2 = .ok config' := by rw [hload]
    refine Or.inl ⟨config', rfl, ?_, (hvalid config hcreate).mpr ⟨config', hresult⟩⟩
    rw [loadedConfig, hcreate]
    exact hresult
  | @thrown config performed e hcreate hload =>
    have hresult : (load convict profile config).2 = .error e := by rw [hload]
    refine Or.inr ⟨rfl, e, ?_, rfl, ?_⟩
    · rw [loadedConfig, hcreate]
      exact hresult
    · rw [hvalid config hcreate, hresult]
      rintro ⟨loaded, h⟩
      cases h

/-- **After a callback that threw, no caller is given anything**, nor is any that comes later. -/
theorem callers_wait (hruns : runs convict profile events = some s)
    (hcalled : .existsCallback ∈ events)
    (hinvalid : ¬ ∀ content, profile = some content → Valid convict content) :
    s.callers ≠ [] ∧ ∀ i caller, s.callers[i]? = some caller →
      caller.outcome = none ∧ step convict profile s (.resume i) = none := by
  have h := runs_sound hruns
  -- a caller is given a value, or goes on, only after the promise has settled
  rcases loaded_or_thrown h.phase hcalled with ⟨_, -, -, hvalid⟩ | ⟨hpending, -⟩
  · exact absurd hvalid hinvalid
  · refine ⟨h.called.mpr (by rw [hpending]; nofun), fun i caller hget => ⟨?_, ?_⟩⟩
    · rcases houtcome : caller.outcome with _ | outcome
      · rfl
      · obtain ⟨result, hresult, -⟩ :=
          h.callers caller (List.mem_of_getElem? hget) outcome houtcome
        rw [hpending] at hresult
        cases hresult
    · rw [Option.eq_none_iff_forall_ne_some]
      intro s' hstep
      obtain ⟨_, result, -, -, hsettled, -⟩ := resume_eq_some.mp hstep
      rw [hpending] at hsettled
      cases hsettled

/-- **Every caller is told how the configuration was loaded**, as promised, exactly if the callback
has not run or the profile is absent or valid. -/
theorem getConfigValue_settled_iff (hruns : runs convict profile events = some s) :
    Promised convict profile events s ↔
      (.existsCallback ∈ events → ∀ content, profile = some content → Valid convict content) := by
  have h := runs_sound hruns
  constructor
  · intro hpromised hcalled
    by_contra hinvalid
    -- the promise stays pending, and with it the first caller
    obtain ⟨hcallers, hwait⟩ := callers_wait hruns hcalled hinvalid
    obtain ⟨caller, callers, hcons⟩ := List.exists_cons_of_ne_nil hcallers
    have hget : s.callers[0]? = some caller := by rw [hcons, List.getElem?_cons_zero]
    obtain ⟨hnone, hstuck⟩ := hwait 0 caller hget
    rcases hpromised.settled hcalled 0 caller hget with houtcome | ⟨s', hstep, -⟩
    · rw [hnone] at houtcome
      cases houtcome
    · rw [hstuck] at hstep
      cases hstep
  · intro hvalid
    refine ⟨h.phase.nodup, fun hcalled i caller hget => ?_⟩
    rcases loaded_or_thrown h.phase hcalled with ⟨config, hsettled, hloaded, -⟩ |
      ⟨-, -, -, -, hinvalid⟩
    · have hpromised : promisedOutcome convict profile caller.key =
          .ok (convict.get config caller.key) := by
        rw [promisedOutcome, hloaded]
        rfl
      rw [hpromised]
      rcases houtcome : caller.outcome with _ | outcome
      · obtain ⟨hlt, -⟩ := List.getElem?_eq_some_iff.mp hget
        refine Or.inr ⟨_, resume_eq_some.mpr ⟨caller, _, hget, houtcome, hsettled, rfl⟩, ?_⟩
        exact List.getElem?_set_self hlt
      · obtain ⟨result, hresult, heq⟩ :=
          h.callers caller (List.mem_of_getElem? hget) outcome houtcome
        rw [hsettled] at hresult
        cases hresult
        exact Or.inl (congrArg some heq)
    · exact absurd (hvalid hcalled) hinvalid

end Callers

/-! Two callers, one before and one after the callback. -/

/-- The profiles with the texts of an object without properties and of one that does not end. -/
inductive SampleProfile where
  | empty
  | unfinished

/-- What `convict` makes of these. -/
def sampleConvict : Convict Fields SampleProfile String Val where
  convictModule schema := .ok (schema.map fun group =>
    (group.1.name, .obj (group.2.map fun property => (property.name, property.default))))
  loadFile config
    | .empty => .ok config
    | .unfinished => .error "SyntaxError"
  validate _ := .ok ()
  get config
    | none => .obj config
    | some key => Fields.get config key.name

def sampleEvents : List ConfigEvent :=
  [.getConfigValue (some .queueConfig), .existsCallback, .getConfigValue none, .resume 1, .resume 0]

theorem getConfigValue_settled_iff_empty :
    ∃ s, runs sampleConvict (some .empty) sampleEvents = some s ∧
      s.callers.all (fun caller => caller.outcome.isSome) ∧
      Promised sampleConvict (some .empty) sampleEvents s := by
  refine ⟨_, rfl, rfl, (getConfigValue_settled_iff rfl).mpr fun _ content hcontent => ?_⟩
  obtain rfl := Option.some.inj hcontent
  exact fun config _ => ⟨config, rfl, rfl⟩

/-- A profile that is no JSON: the error reaches neither of the callers. -/
theorem getConfigValue_unfinished :
    ∃ s, runs sampleConvict (some .unfinished) (sampleEvents.take 3) = some s ∧
      s.callers.map ConfigCaller.outcome = [none, none] ∧ s.service.uncaught = ["SyntaxError"] ∧
      promisedOutcome sampleConvict (some .unfinished) none = .error "SyntaxError" ∧
      step sampleConvict (some .unfinished) s (.resume 0) = none ∧
      step sampleConvict (some .unfinished) s (.resume 1) = none ∧
      ¬ Promised sampleConvict (some .unfinished) (sampleEvents.take 3) s := by
  refine ⟨_, rfl, rfl, rfl, rfl, rfl, rfl, fun h => ?_⟩
  rcases h.settled (by decide) 0 _ rfl with houtcome | ⟨s', hstep, -⟩
  · cases houtcome
  · cases hstep

end ServiceConfiguration

end WebInsights.Common
