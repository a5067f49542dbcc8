/-
The clients of the global logger and of the logger of a request, and the properties they add
to an event.

Each logger has a client for Application Insights and one for the console. What `setup` and
`setCommonProperties` do to the properties of the two is the same (`Agrees`), and what they
add to an event differs in the order of the two loggers: over the properties of the global
logger Application Insights has those of the request, and the console has them under these
(`loggers_agree_iff`).
-/
import WebInsights.Logging.StartUp

set_option autoImplicit false

namespace WebInsights.Logging

open Effect Js

/-! ## The clients -/

/-- A client for Application Insights: new, or with a telemetry client that has these
`commonProperties`. -/
inductive AppInsightsClient where
  | new
  | withTelemetryClient (initialized : Bool) (commonProperties : LoggerProperties)

/-- A client for the console, with the number of reads of its configuration it awaits. -/
structure ConsoleClient where
  initialized : Bool
  isConsoleLogEnabled : Bool
  baseProperties : Option LoggerProperties
  reading : ℕ

namespace AppInsightsClient

def initialized : AppInsightsClient → Bool
  | new => false
  | withTelemetryClient initialized _ => initialized

/-- `this.telemetryClient?.commonProperties` -/
def commonProperties : AppInsightsClient → Option LoggerProperties
  | new => none
  | withTelemetryClient _ commonProperties => some commonProperties

/-- Without a telemetry client it throws. -/
def setCommonProperties (properties : LoggerProperties) : AppInsightsClient → AppInsightsClient
  | new => new
  | withTelemetryClient initialized commonProperties =>
    withTelemetryClient initialized (commonProperties.spread properties)

/-- `getCommonProperties` of the base class, without a value where it throws. -/
def getCommonProperties (client : AppInsightsClient) : Option LoggerProperties :=
  client.commonProperties.map fun common => LoggerProperties.empty.spread common

end AppInsightsClient

/-- `AppInsightsLoggerClient.getDefaultProperties` -/
def getDefaultProperties (processVar : Option String) : LoggerProperties :=
  match processVar with
  | some value => .single "prop" value
  | none => .empty

/-- `AppInsightsLoggerClient.setup` -/
def AppInsightsLoggerClient.setup (processVar : Option String)
    (baseProperties : Option LoggerProperties) : AppInsightsClient :=
  .withTelemetryClient true ((getDefaultProperties processVar).spread (baseProperties.getD .empty))

namespace ConsoleClient

def new : ConsoleClient := ⟨false, false, none, 0⟩

/-- `setup`, until it awaits the configuration. -/
def setup (baseProperties : Option LoggerProperties) (client : ConsoleClient) : ConsoleClient :=
  { client with baseProperties := baseProperties, reading := client.reading + 1 }

/-- The configuration is there. -/
def configRead (logInConsole : Bool) (client : ConsoleClient) : Option ConsoleClient :=
  if 0 < client.reading then
    some { client with
      isConsoleLogEnabled := logInConsole, initialized := true, reading := client.reading - 1 }
  else none

def setCommonProperties (properties : LoggerProperties) (client : ConsoleClient) : ConsoleClient :=
  { client with baseProperties := some ((client.baseProperties.getD .empty).spread properties) }

def getCommonProperties (client : ConsoleClient) : LoggerProperties :=
  client.baseProperties.getD .empty

/-- `allProperties` of `getPrintablePropertiesString`, where anything is printed. -/
def printed (propertiesToAddToEvent : LoggerProperties) (properties : Option LoggerProperties)
    (client : ConsoleClient) : Option LoggerProperties :=
  if client.isConsoleLogEnabled then
    some (((client.baseProperties.getD .empty).spread propertiesToAddToEvent).spread
      (properties.getD .empty))
  else none

/-- Reading the configuration leaves the properties alone. -/
theorem configRead_eq_some {logInConsole : Bool} {client after : ConsoleClient}
    (h : client.configRead logInConsole = some after) :
    after.initialized = true ∧ after.baseProperties = client.baseProperties := by
  unfold configRead at h
  split at h
  · rw [← Option.some.inj h]
    exact ⟨rfl, rfl⟩
  · cases h

end ConsoleClient

/-! ## The clients of both loggers -/

inductive Scope where
  | globalLogger
  | contextAwareLogger
  deriving DecidableEq

inductive ClientKind where
  | appInsights
  | console
  deriving DecidableEq

/-- The four clients, and how often the one of a request awaits the global one. -/
structure ClientsWorld where
  appInsights : AppInsightsClient
  console : ConsoleClient
  contextAwareAppInsights : AppInsightsClient
  contextAwareConsole : ConsoleClient
  awaitingGlobal : ℕ

namespace ClientsWorld

variable (processVar : Option String)

def new : ClientsWorld := ⟨.new, .new, .new, .new, 0⟩

def appInsightsOf (world : ClientsWorld) : Scope → AppInsightsClient
  | .globalLogger => world.appInsights
  | .contextAwareLogger => world.contextAwareAppInsights

def consoleOf (world : ClientsWorld) : Scope → ConsoleClient
  | .globalLogger => world.console
  | .contextAwareLogger => world.contextAwareConsole

def initialized (scope : Scope) (world : ClientsWorld) : ClientKind → Bool
  | .appInsights => (world.appInsightsOf scope).initialized
  | .console => (world.consoleOf scope).initialized

/-- `ContextAwareAppInsightsLoggerClient.setup`, until it awaits the global client. -/
def setupContextAware (world : ClientsWorld) (baseProperties : Option LoggerProperties) :
    ClientsWorld :=
  let commonProperties := LoggerProperties.empty.spread (baseProperties.getD .empty)
  if world.appInsights.initialized then
    { world with contextAwareAppInsights := .withTelemetryClient true commonProperties }
  else
    { world with
      contextAwareAppInsights := .withTelemetryClient
        world.contextAwareAppInsights.initialized commonProperties
      appInsights := AppInsightsLoggerClient.setup processVar none
      awaitingGlobal := world.awaitingGlobal + 1 }

/-- The global client was awaited. -/
def globalAwaited (world : ClientsWorld) : Option ClientsWorld :=
  match world.contextAwareAppInsights, world.awaitingGlobal with
  | .withTelemetryClient _ commonProperties, awaiting + 1 => some { world with
      contextAwareAppInsights := .withTelemetryClient true commonProperties
      awaitingGlobal := awaiting }
  | _, _ => none

def setup (scope : Scope) (world : ClientsWorld) (baseProperties : Option LoggerProperties) :
    ClientKind → ClientsWorld
  | .appInsights =>
    match scope with
    | .globalLogger =>
      { world with appInsights := AppInsightsLoggerClient.setup processVar baseProperties }
    | .contextAwareLogger => world.setupContextAware processVar baseProperties
  | .console =>
    match scope with
    | .globalLogger => { world with console := world.console.setup baseProperties }
    | .contextAwareLogger =>
      { world with contextAwareConsole := world.contextAwareConsole.setup baseProperties }

def configRead (scope : Scope) (logInConsole : Bool) (world : ClientsWorld) :
    Option ClientsWorld :=
  match scope with
  | .globalLogger => (world.console.configRead logInConsole).map fun client =>
      { world with console := client }
  | .contextAwareLogger => (world.contextAwareConsole.configRead logInConsole).map fun client =>
      { world with contextAwareConsole := client }

/-- `setCommonProperties`; what other calls do is no matter of properties. -/
def invoke (scope : Scope) (world : ClientsWorld) (call : ClientCall) : ClientKind → ClientsWorld
  | .appInsights =>
    match scope, call with
    | .globalLogger, .setCommonProperties properties =>
      { world with appInsights := world.appInsights.setCommonProperties properties }
    | .contextAwareLogger, .setCommonProperties properties =>
      { world with
        contextAwareAppInsights := world.contextAwareAppInsights.setCommonProperties properties }
    | _, _ => world
  | .console =>
    match scope, call with
    | .globalLogger, .setCommonProperties properties =>
      { world with console := world.console.setCommonProperties properties }
    | .contextAwareLogger, .setCommonProperties properties =>
      { world with
        contextAwareConsole := world.contextAwareConsole.setCommonProperties properties }
    | _, _ => world

/-- `ContextAwareAppInsightsLoggerClient.getCommonProperties` -/
def contextAwareCommonProperties (world : ClientsWorld) : Option LoggerProperties :=
  world.appInsights.getCommonProperties.map fun common =>
    common.merge (world.contextAwareAppInsights.commonProperties.getD .empty)

/-- The properties that the client for Application Insights sends with an event or a trace. -/
def sentProperties (world : ClientsWorld) (properties : Option LoggerProperties) :
    Option LoggerProperties :=
  world.contextAwareCommonProperties.map fun common => common.merge (properties.getD .empty)

/-- The properties that the client for the console prints with an event or a trace. -/
def printedProperties (world : ClientsWorld) (properties : Option LoggerProperties) :
    Option LoggerProperties :=
  world.contextAwareConsole.printed
    (LoggerProperties.empty.spread world.console.getCommonProperties) properties

end ClientsWorld

/-! ## The two loggers -/

/-- What happens to the clients of a logger otherwise: a wait of theirs is over, or a client of
the other logger is called. -/
inductive Otherwise where
  | configRead (scope : Scope) (logInConsole : Bool)
  | globalAwaited
  | setup (baseProperties : Option LoggerProperties) (kind : ClientKind)
  | invoke (call : ClientCall) (kind : ClientKind)

def Scope.other : Scope → Scope
  | globalLogger => contextAwareLogger
  | contextAwareLogger => globalLogger

def constructorName : Scope → ClientKind → String
  | .globalLogger, .appInsights => "AppInsightsLoggerClient"
  | .globalLogger, .console => "ConsoleLoggerClient"
  | .contextAwareLogger, .appInsights => "ContextAwareAppInsightsLoggerClient"
  | .contextAwareLogger, .console => "ContextAwareConsoleLoggerClient"

section Initialized

variable {processVar : Option String} {scope scope' : Scope} {world after : ClientsWorld}
  {kind kind' : ClientKind}

theorem initialized_setup {baseProperties : Option LoggerProperties}
    (h : world.initialized scope kind = true) :
    (world.setup processVar scope' baseProperties kind').initialized scope kind = true := by
  cases kind' with
  | appInsights =>
    cases scope' with
    | globalLogger =>
      cases scope with
      | globalLogger => cases kind with
        | appInsights => rfl
        | console => exact h
      | contextAwareLogger => cases kind <;> exact h
    | contextAwareLogger =>
      -- where the global client is not initialized, it is set up too, and awaited
      rw [ClientsWorld.setup, ClientsWorld.setupContextAware]
      split
      · cases scope with
        | globalLogger => cases kind <;> exact h
        | contextAwareLogger => cases kind with
          | appInsights => rfl
          | console => exact h
      · cases scope with
        | globalLogger => cases kind with
          | appInsights => rfl
          | console => exact h
        | contextAwareLogger => cases kind <;> exact h
  | console => cases scope' <;> cases scope <;> cases kind <;> exact h

theorem initialized_setCommonProperties {client : AppInsightsClient}
    {properties : LoggerProperties} :
    (client.setCommonProperties properties).initialized = client.initialized := by
  cases client <;> rfl

theorem initialized_invoke {call : ClientCall} :
    (world.invoke scope' call kind').initialized scope kind = world.initialized scope kind := by
  cases call <;> cases kind' <;> cases scope' <;> cases scope <;> cases kind <;>
    first | rfl | exact initialized_setCommonProperties

theorem initialized_configRead {logInConsole : Bool}
    (hread : world.configRead scope' logInConsole = some after)
    (h : world.initialized scope kind = true) : after.initialized scope kind = true := by
  cases scope' with
  | globalLogger =>
    obtain ⟨client, hafter, rfl⟩ := Option.map_eq_some_iff.mp hread
    cases scope with
    | globalLogger => cases kind with
      | appInsights => exact h
      | console => exact (ConsoleClient.configRead_eq_some hafter).1
    | contextAwareLogger => cases kind <;> exact h
  | contextAwareLogger =>
    obtain ⟨client, hafter, rfl⟩ := Option.map_eq_some_iff.mp hread
    cases scope with
    | globalLogger => cases kind <;> exact h
    | contextAwareLogger => cases kind with
      | appInsights => exact h
      | console => exact (ConsoleClient.configRead_eq_some hafter).1

theorem initialized_globalAwaited (hawaited : world.globalAwaited = some after)
    (h : world.initialized scope kind = true) : after.initialized scope kind = true := by
  unfold ClientsWorld.globalAwaited at hawaited
  split at hawaited
  · rw [← Option.some.inj hawaited]
    cases scope with
    | globalLogger => cases kind <;> exact h
    | contextAwareLogger => cases kind with
      | appInsights => rfl
      | console => exact h
  · cases hawaited

end Initialized

def ClientsWorld.change (processVar : Option String) (scope : Scope) (world : ClientsWorld) :
    Otherwise → Option ClientsWorld
  | .configRead scope logInConsole => world.configRead scope logInConsole
  | .globalAwaited => world.globalAwaited
  | .setup baseProperties kind => some (world.setup processVar scope.other baseProperties kind)
  | .invoke call kind => some (world.invoke scope.other call kind)

/-- The clients that a logger is registered with. -/
def clientsOf (processVar : Option String) (scope : Scope) :
    LoggerClients ClientKind ClientsWorld Otherwise where
  loggerClients := [.appInsights, .console]
  constructorName := constructorName scope
  initialized := ClientsWorld.initialized scope
  setup := ClientsWorld.setup processVar scope
  invoke := ClientsWorld.invoke scope
  change := ClientsWorld.change processVar scope
  initialized_setup := initialized_setup
  initialized_invoke := initialized_invoke.trans
  initialized_change := fun {world happened after client} hchange h => by
    cases happened with
    | configRead scope logInConsole => exact initialized_configRead hchange h
    | globalAwaited => exact initialized_globalAwaited hchange h
    | setup baseProperties kind =>
      rw [← Option.some.inj hchange]
      exact initialized_setup h
    | invoke call kind =>
      rw [← Option.some.inj hchange]
      exact initialized_invoke.trans h

/-! ## Common properties of the clients -/

/-- The common properties of a client of a logger. -/
def ClientsWorld.propertiesOf (scope : Scope) (world : ClientsWorld) :
    ClientKind → LoggerProperties
  | .appInsights => (world.appInsightsOf scope).commonProperties.getD .empty
  | .console => (world.consoleOf scope).baseProperties.getD .empty

section CommonProperties

variable {processVar : Option String} {scope scope' : Scope} {world after : ClientsWorld}
  {kind kind' : ClientKind} {key : String}

/-- A client that is initialized has a telemetry client. -/
theorem AppInsightsClient.setCommonProperties_of_initialized {client : AppInsightsClient}
    (h : client.initialized = true) (properties : LoggerProperties) :
    (client.setCommonProperties properties).commonProperties.getD .empty =
      (client.commonProperties.getD .empty).spread properties := by
  cases client with
  | new => cases h
  | withTelemetryClient initialized commonProperties => rfl

theorem propertiesOf_invoke_self {call : ClientCall} (h : world.initialized scope kind = true) :
    (world.invoke scope call kind).propertiesOf scope kind =
      call.commonProperties (world.propertiesOf scope kind) := by
  cases call with
  | setCommonProperties properties =>
    cases scope with
    | globalLogger => cases kind with
      | appInsights => exact AppInsightsClient.setCommonProperties_of_initialized h properties
      | console => rfl
    | contextAwareLogger => cases kind with
      | appInsights => exact AppInsightsClient.setCommonProperties_of_initialized h properties
      | console => rfl
  | _ => cases scope <;> cases kind <;> rfl

theorem propertiesOf_invoke_other {call : ClientCall} (h : scope ≠ scope' ∨ kind ≠ kind') :
    (world.invoke scope' call kind').propertiesOf scope kind = world.propertiesOf scope kind := by
  cases call <;> cases scope <;> cases scope' <;> cases kind <;> cases kind' <;>
    first | rfl | simp at h

theorem propertiesOf_configRead {logInConsole : Bool}
    (hread : world.configRead scope' logInConsole = some after) :
    after.propertiesOf scope kind = world.propertiesOf scope kind := by
  cases scope' with
  | globalLogger =>
    obtain ⟨client, hafter, rfl⟩ := Option.map_eq_some_iff.mp hread
    cases scope with
    | globalLogger => cases kind with
      | appInsights => rfl
      | console =>
        exact congrArg (·.getD .empty) (ConsoleClient.configRead_eq_some hafter).2
    | contextAwareLogger => cases kind <;> rfl
  | contextAwareLogger =>
    obtain ⟨client, hafter, rfl⟩ := Option.map_eq_some_iff.mp hread
    cases scope with
    | globalLogger => cases kind <;> rfl
    | contextAwareLogger => cases kind with
      | appInsights => rfl
      | console =>
        exact congrArg (·.getD .empty) (ConsoleClient.configRead_eq_some hafter).2

theorem propertiesOf_globalAwaited (hawaited : world.globalAwaited = some after) :
    after.propertiesOf scope kind = world.propertiesOf scope kind := by
  unfold ClientsWorld.globalAwaited at hawaited
  split at hawaited
  · rename_i hclient hawaiting
    rw [← Option.some.inj hawaited]
    cases scope with
    | globalLogger => cases kind <;> rfl
    | contextAwareLogger => cases kind with
      | appInsights =>
        rw [ClientsWorld.propertiesOf, ClientsWorld.propertiesOf, ClientsWorld.appInsightsOf,
          ClientsWorld.appInsightsOf, hclient]
        rfl
      | console => rfl
  · cases hawaited

/-- A client of one logger that is set up leaves those of the other alone, but for a global client
that is not initialized. -/
theorem propertiesOf_setup_other {baseProperties : Option LoggerProperties}
    (hscope : scope ≠ scope')
    (h : kind = .appInsights → scope = .globalLogger → world.appInsights.initialized = true) :
    (world.setup processVar scope' baseProperties kind').propertiesOf scope kind =
      world.propertiesOf scope kind := by
  cases scope' with
  | globalLogger =>
    cases scope with
    | globalLogger => exact absurd rfl hscope
    | contextAwareLogger => cases kind' <;> cases kind <;> rfl
  | contextAwareLogger =>
    cases scope with
    | contextAwareLogger => exact absurd rfl hscope
    | globalLogger =>
      cases kind' with
      | console => cases kind <;> rfl
      | appInsights =>
        rw [ClientsWorld.setup, ClientsWorld.setupContextAware]
        split
        · cases kind <;> rfl
        · rename_i hnot
          cases kind with
          | appInsights => exact absurd (h rfl rfl) hnot
          | console => rfl

theorem Scope.ne_other : scope ≠ scope.other := by
  cases scope <;> exact nofun

/-- The clients of both loggers keep their common properties. -/
theorem keepCommonProperties_clientsOf :
    KeepCommonProperties (clientsOf processVar scope) (ClientsWorld.propertiesOf scope) where
  distinct := by
    show [ClientKind.appInsights, ClientKind.console].Nodup
    decide
  invoke_self := fun world call kind h => propertiesOf_invoke_self h
  invoke_other := fun world call kind kind' hne => propertiesOf_invoke_other (Or.inr hne)
  change := by
    intro world happened after kind hchange h
    cases happened with
    | configRead scope logInConsole => exact propertiesOf_configRead hchange
    | globalAwaited => exact propertiesOf_globalAwaited hchange
    | setup baseProperties kind' =>
      rw [← Option.some.inj hchange]
      refine propertiesOf_setup_other Scope.ne_other fun hkind hscope => ?_
      rw [hkind, hscope] at h
      exact h
    | invoke call kind' =>
      rw [← Option.some.inj hchange]
      exact propertiesOf_invoke_other (Or.inl Scope.ne_other)

end CommonProperties

/-! ## Both loggers together -/

structure Loggers where
  now : ℕ
  world : ClientsWorld
  globalLogger : LoggerState
  contextAwareLogger : LoggerState

inductive LoggersEvent where
  | elapse (milliseconds : ℕ)
  | configRead (scope : Scope) (logInConsole : Bool)
  | globalAwaited
  | logger (scope : Scope) (event : Logger.Event)

namespace Loggers

variable (processVar : Option String) (options : Scope → LoggerOptions)

def loggerOf (s : Loggers) : Scope → LoggerState
  | .globalLogger => s.globalLogger
  | .contextAwareLogger => s.contextAwareLogger

/-- The clients and one of the loggers after something. -/
def withLogger (s : Loggers) (after : ClientsWorld × LoggerState) : Scope → Loggers
  | .globalLogger => { s with world := after.1, globalLogger := after.2 }
  | .contextAwareLogger => { s with world := after.1, contextAwareLogger := after.2 }

def step (s : Loggers) : LoggersEvent → Option Loggers
  | .elapse milliseconds => some { s with now := s.now + milliseconds }
  | .configRead scope logInConsole => (s.world.configRead scope logInConsole).map fun world =>
      { s with world := world }
  | .globalAwaited => s.world.globalAwaited.map fun world => { s with world := world }
  | .logger scope event =>
    (Logger.step (clientsOf processVar scope) (options scope) s.now s.world (s.loggerOf scope)
      event).map fun after => s.withLogger after scope

/-- What has become of two loggers that are new. -/
def runs (now : ℕ) (events : List LoggersEvent) : Option Loggers :=
  Machine.runs (step processVar options) ⟨now, .new, .start, .start⟩ events

end Loggers

/-- What a client of a logger has after it was given this. -/
def Handed.commonProperties (common : LoggerProperties) : Handed → LoggerProperties
  | .setup baseProperties => baseProperties.getD .empty
  | .call clientCall => clientCall.commonProperties common

/-- The properties a logger was given, by the last call of `setup` of its clients and the calls of
`setCommonProperties` after that. -/
def givenProperties (handed : List Handed) : LoggerProperties :=
  handed.foldl Handed.commonProperties .empty

/-- The properties that an event or a trace should have. -/
def Loggers.effective (s : Loggers) (properties : Option LoggerProperties) (key : String) : Val :=
  LoggerProperties.orElse ((properties.getD .empty).get key)
    (LoggerProperties.orElse ((givenProperties s.contextAwareLogger.handed).get key)
      ((givenProperties s.globalLogger.handed).get key))

/-- What both clients of a request attach to an event or a trace is that. -/
structure Loggers.Agree (s : Loggers) (properties : Option LoggerProperties) : Prop where
  sent : ∃ sent, s.world.sentProperties properties = some sent ∧
    ∀ key, sent.get key = s.effective properties key
  printed : ∀ printed, s.world.printedProperties properties = some printed →
    ∀ key, printed.get key = s.effective properties key

/-! ## Both clients of a logger have what it was given -/

/-- What holds after everything that happens to the two loggers. -/
structure Tracks (options : Scope → LoggerOptions) (s : Loggers) : Prop where
  sound : ∀ scope, Sound (clientsOf none scope) (options scope) ⟨s.now, s.world, s.loggerOf scope⟩
  properties : ∀ scope kind key, (s.world.propertiesOf scope kind).get key =
    (givenProperties (s.loggerOf scope).handed).get key
  /-- The global client that nothing was handed to may be set up by that of a request. -/
  unused : s.world.appInsights.initialized = false → s.globalLogger.handed = []
  telemetry : s.world.contextAwareAppInsights ≠ .new → s.world.appInsights.initialized = true

section Tracks

variable {options : Scope → LoggerOptions} {s s' : Loggers} {scope scope' : Scope}
  {world after : ClientsWorld} {kind : ClientKind} {key : String}

theorem get_commonProperties_congr {call : ClientCall} {common common' : LoggerProperties}
    (h : common.get key = common'.get key) :
    (call.commonProperties common).get key = (call.commonProperties common').get key := by
  cases call with
  | setCommonProperties properties =>
    rw [ClientCall.commonProperties, ClientCall.commonProperties, LoggerProperties.get_spread,
      LoggerProperties.get_spread, h]
  | _ => exact h

theorem givenProperties_append (handed : List Handed) (h : Handed) :
    givenProperties (handed ++ [h]) = h.commonProperties (givenProperties handed) := by
  rw [givenProperties, List.foldl_append]
  rfl

theorem tracks_start (now : ℕ) : Tracks options ⟨now, .new, .start, .start⟩ where
  sound := fun scope => by cases scope <;> exact sound_start now ClientsWorld.new
  properties := fun scope kind key => by cases scope <;> cases kind <;> rfl
  unused := fun _ => rfl
  telemetry := fun h => absurd rfl h

/-- The two clients of a logger are set up. -/
theorem get_propertiesOf_setupAll {baseProperties : Option LoggerProperties} :
    (((clientsOf none scope).setupAll world baseProperties).propertiesOf scope kind).get key =
      (baseProperties.getD .empty).get key := by
  have hempty : ∀ properties : LoggerProperties,
      (LoggerProperties.empty.spread properties).get key = properties.get key := by
    intro properties
    rw [LoggerProperties.get_spread, LoggerProperties.get_empty, LoggerProperties.orElse_undefined]
  cases scope with
  | globalLogger => cases kind with
    | appInsights => exact hempty _
    | console => rfl
  | contextAwareLogger => cases kind with
    | console => rfl
    | appInsights =>
      refine Eq.trans ?_ (hempty _)
      show ((ClientsWorld.setupContextAware none world baseProperties).propertiesOf
        .contextAwareLogger .appInsights).get key = _
      rw [ClientsWorld.setupContextAware]
      split
      · rfl
      · rfl

theorem setupAll_clientsOf (world : ClientsWorld) (baseProperties : Option LoggerProperties) :
    (clientsOf none scope).setupAll world baseProperties =
      (world.setup none scope baseProperties .appInsights).setup none scope baseProperties
        .console :=
  rfl

theorem invokeAll_clientsOf (world : ClientsWorld) (call : ClientCall) :
    (clientsOf none scope).invokeAll world call =
      (world.invoke scope call .appInsights).invoke scope call .console :=
  rfl

/-- Those of the other logger are left alone, but for a global client that is not initialized. -/
theorem propertiesOf_setupAll_other {baseProperties : Option LoggerProperties}
    (hscope : scope' ≠ scope)
    (h : kind = .appInsights → scope' = .globalLogger → world.appInsights.initialized = true) :
    ((clientsOf none scope).setupAll world baseProperties).propertiesOf scope' kind =
      world.propertiesOf scope' kind := by
  rw [setupAll_clientsOf, propertiesOf_setup_other hscope, propertiesOf_setup_other hscope h]
  exact fun hkind hglobal =>
    @initialized_setup none .globalLogger scope world .appInsights .appInsights _ (h hkind hglobal)

@[simp] theorem world_withLogger {after : ClientsWorld × LoggerState} :
    (s.withLogger after scope).world = after.1 := by
  cases scope <;> rfl

@[simp] theorem now_withLogger {after : ClientsWorld × LoggerState} :
    (s.withLogger after scope).now = s.now := by
  cases scope <;> rfl

@[simp] theorem loggerOf_withLogger {after : ClientsWorld × LoggerState} :
    (s.withLogger after scope).loggerOf scope = after.2 := by
  cases scope <;> rfl

theorem loggerOf_withLogger_ne {after : ClientsWorld × LoggerState} (h : scope' ≠ scope) :
    (s.withLogger after scope).loggerOf scope' = s.loggerOf scope' := by
  cases scope <;> cases scope' <;> first | rfl | exact absurd rfl h

/-- After clients were set up the global client is. -/
theorem initialized_setupAll_appInsights {baseProperties : Option LoggerProperties} :
    ((clientsOf none scope).setupAll world baseProperties).appInsights.initialized = true := by
  cases scope with
  | globalLogger => rfl
  | contextAwareLogger =>
    show (ClientsWorld.setupContextAware none world baseProperties).appInsights.initialized = true
    rw [ClientsWorld.setupContextAware]
    split
    · rename_i h
      exact h
    · rfl

theorem initialized_clientsOf_setupAll {baseProperties : Option LoggerProperties}
    (h : world.initialized scope' kind = true) :
    ((clientsOf none scope).setupAll world baseProperties).initialized scope' kind = true :=
  (setupAll_clientsOf world baseProperties) ▸ initialized_setup (initialized_setup h)

theorem initialized_clientsOf_invokeAll {call : ClientCall} :
    ((clientsOf none scope).invokeAll world call).initialized scope' kind =
      world.initialized scope' kind := by
  rw [invokeAll_clientsOf, initialized_invoke, initialized_invoke]

theorem contextAwareAppInsights_invokeAll {call : ClientCall}
    (h : world.contextAwareAppInsights = .new) :
    ((clientsOf none scope).invokeAll world call).contextAwareAppInsights = .new := by
  have hset : ∀ properties, AppInsightsClient.setCommonProperties properties
      world.contextAwareAppInsights = .new := fun properties => by rw [h]; rfl
  cases call with
  | setCommonProperties properties => cases scope with
    | globalLogger => exact h
    | contextAwareLogger => exact hset properties
  | _ => cases scope <;> exact h

theorem Tracks.kept (h : Tracks options s)
    (hinit : ∀ scope kind, s.world.initialized scope kind = true →
      world.initialized scope kind = true)
    (hproperties : ∀ scope kind, world.propertiesOf scope kind = s.world.propertiesOf scope kind)
    (happInsights : world.appInsights = s.world.appInsights)
    (hnew : s.world.contextAwareAppInsights = .new → world.contextAwareAppInsights = .new) :
    Tracks options { s with world := world } where
  sound := fun scope => by
    have hkept := (h.sound scope).kept (hinit scope)
    cases scope <;> exact hkept
  properties := fun scope kind key => by
    have hkept := h.properties scope kind key
    rw [← hproperties] at hkept
    cases scope <;> exact hkept
  unused := fun hnot => h.unused (happInsights ▸ hnot)
  telemetry := fun hne => by
    show world.appInsights.initialized = true
    rw [happInsights]
    exact h.telemetry (mt hnew hne)

/-- The global client that is not initialized has no properties, and has none when the client of a
request sets it up. -/
theorem Tracks.setup_unused (h : Tracks options s) (hscope : scope ≠ .globalLogger)
    (hnot : ¬ s.world.appInsights.initialized = true)
    {baseProperties : Option LoggerProperties} :
    (((clientsOf none scope).setupAll s.world baseProperties).propertiesOf .globalLogger
      .appInsights).get key = (s.world.propertiesOf .globalLogger .appInsights).get key := by
  have hhanded : (s.loggerOf .globalLogger).handed = [] := h.unused (Bool.not_eq_true _ ▸ hnot)
  rw [h.properties .globalLogger .appInsights key, hhanded]
  cases scope with
  | globalLogger => exact absurd rfl hscope
  | contextAwareLogger =>
    show ((ClientsWorld.setupContextAware none s.world baseProperties).propertiesOf .globalLogger
      .appInsights).get key = _
    rw [ClientsWorld.setupContextAware, if_neg hnot]
    rfl

/-- The other logger does not notice a step of one. -/
theorem Tracks.logger_sound (h : Tracks options s) {event : Logger.Event}
    {after : ClientsWorld × LoggerState}
    (hstep : Logger.step (clientsOf none scope) (options scope) s.now s.world (s.loggerOf scope)
      event = some after) :
    Sound (clientsOf none scope') (options scope')
      ⟨s.now, after.1, (s.withLogger after scope).loggerOf scope'⟩ := by
  by_cases hscope : scope' = scope
  · rw [hscope, loggerOf_withLogger]
    exact (h.sound scope).step (@step_logger _ _ _ (clientsOf none scope) (options scope)
      ⟨s.now, s.world, s.loggerOf scope⟩ event after hstep)
  · rw [loggerOf_withLogger_ne hscope]
    refine (h.sound scope').kept fun kind hkind => ?_
    rcases step_cases hstep with ⟨hworld, -⟩ | ⟨_, -, hworld, -⟩ | ⟨call, -, hworld, -⟩
    · rw [hworld]
      exact hkind
    · rw [hworld]
      exact initialized_clientsOf_setupAll hkind
    · rw [hworld]
      exact initialized_clientsOf_invokeAll.trans hkind

/-- What one logger does to its clients and to those of the other. -/
theorem Tracks.logger_properties (h : Tracks options s) {event : Logger.Event}
    {after : ClientsWorld × LoggerState}
    (hstep : Logger.step (clientsOf none scope) (options scope) s.now s.world (s.loggerOf scope)
      event = some after) :
    (after.1.propertiesOf scope' kind).get key =
      (givenProperties ((s.withLogger after scope).loggerOf scope').handed).get key := by
  by_cases hscope : scope' = scope
  · rw [hscope, loggerOf_withLogger]
    rcases step_cases hstep with ⟨hworld, hhanded⟩ | ⟨baseProperties, -, hworld, hhanded⟩ |
      ⟨call, hinit, hworld, hhanded⟩
    · rw [hworld, hhanded]
      exact h.properties scope kind key
    · rw [hworld, hhanded, givenProperties_append]
      exact get_propertiesOf_setupAll
    · have hclient := someUninitialized_eq_false.mp ((h.sound scope).clients (Or.inl hinit)) kind
        (by cases kind <;> simp [clientsOf])
      have hmem : kind ∈ (clientsOf none scope).loggerClients := by
        cases kind <;> simp [clientsOf]
      rw [hworld, hhanded, givenProperties_append,
        (keepCommonProperties_clientsOf).invokeAll hmem hclient]
      exact get_commonProperties_congr (h.properties scope kind key)
  · rw [loggerOf_withLogger_ne hscope, ← h.properties scope' kind key]
    rcases step_cases hstep with ⟨hworld, -⟩ | ⟨baseProperties, -, hworld, -⟩ | ⟨call, -, hworld, -⟩
    · rw [hworld]
    · rw [hworld]
      by_cases hglobal : kind = .appInsights → scope' = .globalLogger →
          s.world.appInsights.initialized = true
      · rw [propertiesOf_setupAll_other hscope hglobal]
      · -- a context aware client sets the global one up that nobody has used
        obtain ⟨rfl, rfl, hnot⟩ : kind = .appInsights ∧ scope' = .globalLogger ∧
            ¬ s.world.appInsights.initialized = true := by simpa using hglobal
        exact h.setup_unused (Ne.symm hscope) hnot
    · rw [hworld, invokeAll_clientsOf, propertiesOf_invoke_other (Or.inl hscope),
        propertiesOf_invoke_other (Or.inl hscope)]

/-- An application insights client that is not initialized was not set up by this step either. -/
theorem Tracks.logger_unused (h : Tracks options s) {event : Logger.Event}
    {after : ClientsWorld × LoggerState}
    (hstep : Logger.step (clientsOf none scope) (options scope) s.now s.world (s.loggerOf scope)
      event = some after) (hnot : after.1.appInsights.initialized = false) :
    ((s.withLogger after scope).loggerOf .globalLogger).handed = [] := by
  rcases step_cases hstep with ⟨hworld, hhanded⟩ | ⟨baseProperties, -, hworld, -⟩ |
    ⟨call, hinit, hworld, -⟩
  · rw [hworld] at hnot
    by_cases hscope : Scope.globalLogger = scope
    · rw [← hscope, loggerOf_withLogger]
      rw [← hscope] at hhanded
      exact hhanded.trans (h.unused hnot)
    · rw [loggerOf_withLogger_ne hscope]
      exact h.unused hnot
  · rw [hworld, initialized_setupAll_appInsights] at hnot
    cases hnot
  · have hsame := @initialized_clientsOf_invokeAll scope .globalLogger s.world .appInsights call
    rw [hworld] at hnot
    have hnotBefore : s.world.appInsights.initialized = false := hsame.symm.trans hnot
    by_cases hscope : Scope.globalLogger = scope
    · -- a logger that hands on calls is initialized, and so are its clients
      rw [← hscope] at hinit
      have hclient := someUninitialized_eq_false.mp
        ((h.sound .globalLogger).clients (Or.inl hinit)) .appInsights List.mem_cons_self
      exact absurd (hclient.symm.trans hnotBefore) nofun
    · rw [loggerOf_withLogger_ne hscope]
      exact h.unused hnotBefore

theorem Tracks.logger_telemetry (h : Tracks options s) {event : Logger.Event}
    {after : ClientsWorld × LoggerState}
    (hstep : Logger.step (clientsOf none scope) (options scope) s.now s.world (s.loggerOf scope)
      event = some after) (hne : after.1.contextAwareAppInsights ≠ .new) :
    after.1.appInsights.initialized = true := by
  rcases step_cases hstep with ⟨hworld, -⟩ | ⟨baseProperties, -, hworld, -⟩ | ⟨call, -, hworld, -⟩
  · rw [hworld] at hne ⊢
    exact h.telemetry hne
  · rw [hworld]
    exact initialized_setupAll_appInsights
  · rw [hworld] at hne ⊢
    have hsame := @initialized_clientsOf_invokeAll scope .globalLogger s.world .appInsights call
    exact hsame.trans (h.telemetry (mt contextAwareAppInsights_invokeAll hne))

theorem Tracks.logger (h : Tracks options s) {event : Logger.Event}
    {after : ClientsWorld × LoggerState}
    (hstep : Logger.step (clientsOf none scope) (options scope) s.now s.world (s.loggerOf scope)
      event = some after) : Tracks options (s.withLogger after scope) where
  sound := fun scope' => by
    rw [now_withLogger, world_withLogger]
    exact h.logger_sound hstep
  properties := fun scope' kind key => by
    rw [world_withLogger]
    exact h.logger_properties hstep
  unused := by
    rw [world_withLogger]
    exact h.logger_unused hstep
  telemetry := by
    rw [world_withLogger]
    exact h.logger_telemetry hstep

theorem Tracks.step (h : Tracks options s) {event : LoggersEvent}
    (hstep : Loggers.step none options s event = some s') : Tracks options s' := by
  cases event with
  | elapse milliseconds =>
    obtain rfl := Option.some.inj hstep
    refine ⟨fun scope => ?_, h.properties, h.unused, h.telemetry⟩
    exact (h.sound scope).elapse milliseconds
  | configRead scope logInConsole =>
    obtain ⟨world, hread, rfl⟩ := Option.map_eq_some_iff.mp hstep
    -- only a console client reads the configuration
    have hsame : world.appInsights = s.world.appInsights ∧
        world.contextAwareAppInsights = s.world.contextAwareAppInsights := by
      cases scope with
      | globalLogger =>
        obtain ⟨client, -, rfl⟩ := Option.map_eq_some_iff.mp hread
        exact ⟨rfl, rfl⟩
      | contextAwareLogger =>
        obtain ⟨client, -, rfl⟩ := Option.map_eq_some_iff.mp hread
        exact ⟨rfl, rfl⟩
    exact h.kept (fun _ _ => initialized_configRead hread)
      (fun _ _ => propertiesOf_configRead hread) hsame.1 fun hnew => hsame.2.trans hnew
  | globalAwaited =>
    obtain ⟨world, hawaited, rfl⟩ := Option.map_eq_some_iff.mp hstep
    refine h.kept (fun _ _ => initialized_globalAwaited hawaited)
      (fun _ _ => propertiesOf_globalAwaited hawaited) ?_ fun hnew => ?_
    · unfold ClientsWorld.globalAwaited at hawaited
      split at hawaited
      · rw [← Option.some.inj hawaited]
      · cases hawaited
    · rw [ClientsWorld.globalAwaited, hnew] at hawaited
      cases hawaited
  | logger scope event =>
    obtain ⟨after, hafter, rfl⟩ := Option.map_eq_some_iff.mp hstep
    exact h.logger hafter

/-- **Both clients of a logger have what the logger was given**, after everything that happens. -/
theorem runs_tracks {now : ℕ} {events : List LoggersEvent}
    (hruns : Loggers.runs none options now events = some s) : Tracks options s :=
  Machine.runs_invariant (I := fun _ s => Tracks options s) (tracks_start now)
    (fun _ _ _ _ h hstep => h.step hstep) hruns

/-! ## What the clients of a request attach -/

/-- Once the logger of a request is initialized, its client for Application Insights sends the
properties of the event over those of the request over the global ones. -/
theorem Tracks.sentProperties (h : Tracks options s)
    (hinit : s.contextAwareLogger.initialized = true) (properties : Option LoggerProperties) :
    ∃ sent, s.world.sentProperties properties = some sent ∧
      ∀ key, sent.get key = s.effective properties key := by
  have hclient : s.world.contextAwareAppInsights.initialized = true :=
    someUninitialized_eq_false.mp ((h.sound .contextAwareLogger).clients (Or.inl hinit))
      .appInsights List.mem_cons_self
  -- its client is set up after the global one
  have hglobal := h.telemetry (by
    intro hnew
    rw [hnew] at hclient
    cases hclient)
  obtain ⟨common, hcommon⟩ : ∃ common, s.world.appInsights.commonProperties = some common := by
    rcases hcase : s.world.appInsights with _ | ⟨_, common⟩
    · rw [hcase] at hglobal
      cases hglobal
    · exact ⟨common, rfl⟩
  refine ⟨((LoggerProperties.empty.spread common).merge
    (s.world.contextAwareAppInsights.commonProperties.getD .empty)).merge
      (properties.getD .empty), ?_, fun key => ?_⟩
  · rw [ClientsWorld.sentProperties, ClientsWorld.contextAwareCommonProperties,
      AppInsightsClient.getCommonProperties, hcommon]
    rfl
  · have hcontextAware : (s.world.contextAwareAppInsights.commonProperties.getD .empty).get key =
        (givenProperties s.contextAwareLogger.handed).get key :=
      h.properties .contextAwareLogger .appInsights key
    have hglobalKey : (s.world.appInsights.commonProperties.getD .empty).get key =
        (givenProperties s.globalLogger.handed).get key :=
      h.properties .globalLogger .appInsights key
    rw [hcommon] at hglobalKey
    rw [LoggerProperties.get_merge, LoggerProperties.get_merge, LoggerProperties.get_spread,
      LoggerProperties.get_empty, LoggerProperties.orElse_undefined, hcontextAware]
    exact congrArg _ (congrArg _ hglobalKey)

/-- Its client for the console prints them with the global ones over those of the request. -/
theorem Tracks.get_printed (h : Tracks options s) {properties : Option LoggerProperties}
    {printed : LoggerProperties} (hprinted : s.world.printedProperties properties = some printed)
    (key : String) : printed.get key =
      LoggerProperties.orElse ((properties.getD .empty).get key)
        (LoggerProperties.orElse ((givenProperties s.globalLogger.handed).get key)
          ((givenProperties s.contextAwareLogger.handed).get key)) := by
  have hcontextAware := h.properties .contextAwareLogger .console key
  have hglobal := h.properties .globalLogger .console key
  unfold ClientsWorld.printedProperties ConsoleClient.printed at hprinted
  split at hprinted
  · rw [← Option.some.inj hprinted, LoggerProperties.get_spread, LoggerProperties.get_spread,
      LoggerProperties.get_spread, LoggerProperties.get_empty, LoggerProperties.orElse_undefined]
    exact congrArg _ (congrArg₂ _ hglobal hcontextAware)
  · cases hprinted

/-- **The two clients of a request attach the same properties**, and those of the event over those
of the request over the global ones, exactly if nothing is printed, or a property that the event
does not set has no two values, one in the global logger and one in that of the request. -/
theorem loggers_agree_iff {now : ℕ} {events : List LoggersEvent}
    (hruns : Loggers.runs none options now events = some s)
    (hinit : s.contextAwareLogger.initialized = true) (properties : Option LoggerProperties) :
    s.Agree properties ↔ (s.world.contextAwareConsole.isConsoleLogEnabled = true → ∀ key,
      (properties.getD .empty).get key = .undefined →
        (givenProperties s.contextAwareLogger.handed).get key = .undefined ∨
        (givenProperties s.globalLogger.handed).get key = .undefined ∨
        (givenProperties s.contextAwareLogger.handed).get key =
          (givenProperties s.globalLogger.handed).get key) := by
  have htracks := runs_tracks hruns
  constructor
  · -- where the call has no such property, the two orders of spreading are compared
    intro hagree henabled key hkey
    obtain ⟨printed, hprinted⟩ :
        ∃ printed, s.world.printedProperties properties = some printed := by
      rw [ClientsWorld.printedProperties, ConsoleClient.printed, henabled]
      exact ⟨_, rfl⟩
    have hget := (htracks.get_printed hprinted key).symm.trans (hagree.printed printed hprinted key)
    rw [Loggers.effective, hkey, LoggerProperties.undefined_orElse,
      LoggerProperties.undefined_orElse] at hget
    exact LoggerProperties.orElse_comm_iff.mp hget.symm
  · intro hcondition
    refine ⟨htracks.sentProperties hinit properties, fun printed hprinted key => ?_⟩
    have henabled : s.world.contextAwareConsole.isConsoleLogEnabled = true := by
      by_contra hnot
      rw [ClientsWorld.printedProperties, ConsoleClient.printed, if_neg hnot] at hprinted
      cases hprinted
    rw [htracks.get_printed hprinted key, Loggers.effective]
    by_cases hkey : (properties.getD .empty).get key = .undefined
    · rw [LoggerProperties.orElse_comm_iff.mpr (hcondition henabled key hkey)]
    · rw [LoggerProperties.orElse, if_neg hkey, LoggerProperties.orElse, if_neg hkey]

end Tracks

/-! A request to the service, whose controller sets these common properties. -/

def requestEvents (properties : LoggerProperties) : List LoggersEvent :=
  [.logger .globalLogger (.setup (some (.single "source" "azure-function"))),
    .configRead .globalLogger true, .elapse 100, .logger .globalLogger (.wake 0),
    .logger .globalLogger (.finish 0), .logger .contextAwareLogger (.setup none),
    .configRead .contextAwareLogger true, .elapse 100, .logger .contextAwareLogger (.wake 0),
    .logger .contextAwareLogger (.finish 0),
    .logger .contextAwareLogger (.invoke (.setCommonProperties properties))]

/-- Properties with no values of the global logger. -/
theorem loggers_agree_iff_websiteId :
    ∃ s, Loggers.runs none (fun _ => ⟨[], 5000⟩) 0
        (requestEvents (.single "websiteId" "website-1")) = some s ∧
      s.Agree (some (.single "source" "event")) := by
  obtain ⟨s, hruns⟩ : ∃ s, Loggers.runs none (fun _ => ⟨[], 5000⟩) 0
      (requestEvents (.single "websiteId" "website-1")) = some s := ⟨_, rfl⟩
  have hstate : (Loggers.runs none (fun _ => ⟨[], 5000⟩) 0
      (requestEvents (.single "websiteId" "website-1"))).map (fun s =>
        (s.contextAwareLogger.initialized, (givenProperties s.contextAwareLogger.handed).fields)) =
      some (true, [("websiteId", .str "website-1")]) := by rfl
  have hglobal : (Loggers.runs none (fun _ => ⟨[], 5000⟩) 0
      (requestEvents (.single "websiteId" "website-1"))).map (fun s =>
        (givenProperties s.globalLogger.handed).fields) =
      some [("source", .str "azure-function")] := by rfl
  rw [hruns, Option.map_some] at hstate hglobal
  obtain ⟨hinit, hrequest⟩ := Prod.mk.inj (Option.some.inj hstate)
  refine ⟨s, hruns, (loggers_agree_iff hruns hinit _).mpr fun _ key _ => ?_⟩
  rw [LoggerProperties.get, LoggerProperties.get, hrequest, Option.some.inj hglobal]
  by_cases hkey : "websiteId" = key
  · right
    left
    rw [← hkey]
    rfl
  · left
    rw [Fields.get_cons_ne hkey, Fields.get_nil]

/-- The source of a request: sent with the events of the request, and not printed with them. -/
theorem loggers_disagree_source :
    ∃ s, Loggers.runs none (fun _ => ⟨[], 5000⟩) 0
        (requestEvents (.single "source" "getWebsiteRESTApi")) = some s ∧
      (s.world.sentProperties none).map (fun sent => sent.get "source") =
        some (.str "getWebsiteRESTApi") ∧
      (s.world.printedProperties none).map (fun printed => printed.get "source") =
        some (.str "azure-function") ∧
      ¬ s.Agree none := by
  obtain ⟨s, hruns⟩ : ∃ s, Loggers.runs none (fun _ => ⟨[], 5000⟩) 0
      (requestEvents (.single "source" "getWebsiteRESTApi")) = some s := ⟨_, rfl⟩
  have hsent : (Loggers.runs none (fun _ => ⟨[], 5000⟩) 0
      (requestEvents (.single "source" "getWebsiteRESTApi"))).map (fun s =>
        (s.world.sentProperties none).map (fun sent => sent.get "source")) =
      some (some (.str "getWebsiteRESTApi")) := by rfl
  have hprinted : (Loggers.runs none (fun _ => ⟨[], 5000⟩) 0
      (requestEvents (.single "source" "getWebsiteRESTApi"))).map (fun s =>
        (s.world.printedProperties none).map (fun printed => printed.get "source")) =
      some (some (.str "azure-function")) := by rfl
  rw [hruns] at hsent hprinted
  refine ⟨s, hruns, Option.some.inj hsent, Option.some.inj hprinted, fun hagree => ?_⟩
  obtain ⟨sent, hsentSome, heffective⟩ := hagree.sent
  obtain ⟨sent', hsentSome', hsentValue⟩ := Option.map_eq_some_iff.mp (Option.some.inj hsent)
  obtain rfl := Option.some.inj (hsentSome.symm.trans hsentSome')
  obtain ⟨printed, hprintedSome, hprintedValue⟩ :=
    Option.map_eq_some_iff.mp (Option.some.inj hprinted)
  have hequal : Val.str "getWebsiteRESTApi" = .str "azure-function" := by
    rw [← hsentValue, ← hprintedValue, hagree.printed printed hprintedSome, ← heffective]
  simp at hequal

end WebInsights.Logging
