/-
`Logger`: it starts its clients, and hands them what is logged.

`setup` polls. While some client is not initialized and its time is not over it calls `setup`
of every client, awaits none of them, and looks again after 100 milliseconds. Any number of
calls of `setup` may run at a time, and the clients are initialized when they like or never.
What is known of the clients is that none goes back to being not initialized.
-/
import Mathlib.Data.Rat.Defs
import WebInsights.Effect.Machine
import WebInsights.Logging.LoggerProperties

set_option autoImplicit false

namespace WebInsights.Logging

open Effect Js

/-! ## What is logged -/

inductive LogLevel where
  | info
  | warn
  | verbose
  | error
  deriving DecidableEq

/-- What `trackException` gets. -/
inductive LoggedError where
  | error (e : Val)
  /-- `new Error(System.serializeError(data))` -/
  | serialized (data : Val)
  | verror (cause : LoggedError) (message : String)

/-- A call of a client by the logger. -/
inductive ClientCall where
  | setCommonProperties (properties : LoggerProperties)
  | trackMetric (name : String) (value : ℚ)
  | trackEvent (name : String) (properties : Option LoggerProperties) (measurements : Option Fields)
  | trackAvailability (name : String) (telemetry : Val)
  | trackException (error : LoggedError)
  | log (message : String) (logLevel : LogLevel) (properties : Option LoggerProperties)
  | flush

/-- A call of the logger. -/
inductive LoggerCall where
  | setCommonProperties (properties : LoggerProperties)
  | trackMetric (name : String) (value : Option ℚ)
  | trackEvent (name : String) (properties : Option LoggerProperties) (measurements : Option Fields)
  | trackAvailability (name : String) (telemetry : Val)
  | trackException (error : LoggedError)
  | log (message : String) (logLevel : LogLevel) (properties : Option LoggerProperties)
  | logInfo (message : String) (properties : Option LoggerProperties)
  | logVerbose (message : String) (properties : Option LoggerProperties)
  | logWarn (message : String) (properties : Option LoggerProperties)
  | logError (message : String) (properties : Option LoggerProperties)
  | trackExceptionAny (underlyingErrorData : LoggedError ⊕ Val) (message : String)
  | flush

/-- `underlyingErrorData instanceof Error ? underlyingErrorData : new Error(..)` -/
def parsedErrorObject : LoggedError ⊕ Val → LoggedError
  | .inl error => error
  | .inr data => .serialized data

/-- What the clients are called with. -/
def LoggerCall.clientCall (isDebugEnabled : Bool) : LoggerCall → Option ClientCall
  | setCommonProperties properties => some (.setCommonProperties properties)
  | trackMetric name value => some (.trackMetric name (value.getD 1))
  | trackEvent name properties measurements => some (.trackEvent name properties measurements)
  | trackAvailability name telemetry => some (.trackAvailability name telemetry)
  | trackException error => some (.trackException error)
  | log message logLevel properties => some (.log message logLevel properties)
  | logInfo message properties => some (.log message .info properties)
  | logVerbose message properties =>
    if isDebugEnabled then some (.log message .verbose properties) else none
  | logWarn message properties => some (.log message .warn properties)
  | logError message properties => some (.log message .error properties)
  | trackExceptionAny data message =>
    some (.trackException (.verror (parsedErrorObject data) message))
  | flush => some .flush

/-- The common properties of a client after a call. -/
def ClientCall.commonProperties : ClientCall → LoggerProperties → LoggerProperties
  | setCommonProperties properties, common => common.spread properties
  | _, common => common

/-! ## Clients -/

/-- The clients of a logger, in a world where they are and where other things happen to them.
None goes back to being not initialized. -/
structure LoggerClients (Client World Change : Type) where
  loggerClients : List Client
  constructorName : Client → String
  initialized : World → Client → Bool
  /-- A call of `setup`, as far as it goes before it awaits anything. -/
  setup : World → Option LoggerProperties → Client → World
  invoke : World → ClientCall → Client → World
  change : World → Change → Option World
  initialized_setup : ∀ {world base client d}, initialized world client = true →
    initialized (setup world base d) client = true
  initialized_invoke : ∀ {world call client d}, initialized world client = true →
    initialized (invoke world call d) client = true
  initialized_change : ∀ {world happened after client}, change world happened = some after →
    initialized world client = true → initialized after client = true

section Clients

variable {Client World Change : Type} (clients : LoggerClients Client World Change)

namespace LoggerClients

def setupAll (world : World) (baseProperties : Option LoggerProperties) : World :=
  clients.loggerClients.foldl (fun world client => clients.setup world baseProperties client) world

def invokeAll (world : World) (call : ClientCall) : World :=
  clients.loggerClients.foldl (fun world client => clients.invoke world call client) world

/-- `this.loggerClients.some((client) => !client.initialized)` -/
def someUninitialized (world : World) : Bool :=
  clients.loggerClients.any fun client => !clients.initialized world client

def failedMessage (world : World) : String :=
  "Failed to initialize logger clients: " ++ ", ".intercalate
    ((clients.loggerClients.filter fun client => !clients.initialized world client).map
      clients.constructorName)

end LoggerClients

/-! ## The logger -/

inductive SetupPhase where
  /-- It waits until this time. -/
  | waiting (due : ℕ)
  /-- `initializeClients` has returned. -/
  | ready
  | resolved
  | rejected (message : String)
  deriving DecidableEq

/-- A call of `setup`, the time it began, and how often it has called `setup` of the clients. -/
structure SetupCall where
  baseProperties : Option LoggerProperties
  began : ℕ
  turns : ℕ
  phase : SetupPhase

/-- What all clients were called with. -/
inductive Handed where
  | setup (baseProperties : Option LoggerProperties)
  | call (call : ClientCall)

structure LoggerState where
  initialized : Bool
  isDebugEnabled : Bool
  setups : List SetupCall
  handed : List Handed

def LoggerState.start : LoggerState := ⟨false, false, [], []⟩

/-- The error of `ensureInitialized`, before the stack. -/
def notInitialized : String :=
  "The logger instance is not initialized. Ensure the setup() method is invoked by derived " ++
    "class implementation. "

/-- The test for `--debug` or `--inspect`, in upper or lower case, in the joined arguments. -/
def debugArguments (execArgv : List String) : Bool :=
  let text := (" ".intercalate execArgv).toList.map Char.toLower
  "--debug".toList <:+: text || "--inspect".toList <:+: text

structure LoggerOptions where
  execArgv : List String
  initializationTimeout : ℕ

namespace Logger

variable (options : LoggerOptions)

/-- The loop of `initializeClients` looks at the clients: the world, what was handed to them, and
the call of `setup` after that. -/
def initializeClients (now : ℕ) (world : World) (call : SetupCall) :
    World × List Handed × SetupCall :=
  if clients.someUninitialized world ∧ now ≤ call.began + options.initializationTimeout then
    (clients.setupAll world call.baseProperties, [.setup call.baseProperties],
      { call with turns := call.turns + 1, phase := .waiting (now + 100) })
  else if clients.someUninitialized world then
    (world, [], { call with phase := .rejected (clients.failedMessage world) })
  else (world, [], { call with phase := .ready })

/-- A call of `setup`, until it awaits. -/
def setup (now : ℕ) (baseProperties : Option LoggerProperties) (world : World) (s : LoggerState) :
    World × LoggerState :=
  if s.initialized then
    (world, { s with setups := s.setups ++ [⟨baseProperties, now, 0, .resolved⟩] })
  else
    let (world, handed, call) :=
      initializeClients clients options now world ⟨baseProperties, now, 0, .waiting now⟩
    (world, { s with setups := s.setups ++ [call], handed := s.handed ++ handed })

/-- The wait of a call of `setup` is over. -/
def wake (now i : ℕ) (world : World) (s : LoggerState) : Option (World × LoggerState) := do
  let call ← s.setups[i]?
  match call.phase with
  | .waiting due =>
    if due ≤ now then
      let (world, handed, call) := initializeClients clients options now world call
      some (world, { s with setups := s.setups.set i call, handed := s.handed ++ handed })
    else none
  | _ => none

/-- A call of `setup` goes on after `initializeClients`. -/
def finish (i : ℕ) (s : LoggerState) : Option LoggerState := do
  let call ← s.setups[i]?
  match call.phase with
  | .ready => some { s with
      setups := s.setups.set i { call with phase := .resolved }
      isDebugEnabled := debugArguments options.execArgv
      initialized := true }
  | _ => none

/-- Any other call: what it throws, or, of `flush`, rejects with. -/
def invoke (call : LoggerCall) (world : World) (s : LoggerState) :
    Except String Unit × World × LoggerState :=
  match call.clientCall s.isDebugEnabled with
  | none => (.ok (), world, s)
  | some clientCall =>
    if s.initialized then
      (.ok (), clients.invokeAll world clientCall,
        { s with handed := s.handed ++ [.call clientCall] })
    else (.error notInitialized, world, s)

/-- What happens at the logger. -/
inductive Event where
  | setup (baseProperties : Option LoggerProperties)
  | wake (i : ℕ)
  | finish (i : ℕ)
  | invoke (call : LoggerCall)

def step (now : ℕ) (world : World) (s : LoggerState) : Event → Option (World × LoggerState)
  | .setup baseProperties => some (setup clients options now baseProperties world s)
  | .wake i => wake clients options now i world s
  | .finish i => (finish options i s).map fun s => (world, s)
  | .invoke call => some (invoke clients call world s).2

end Logger

/-! ## A logger among other things -/

structure Process (World : Type) where
  now : ℕ
  world : World
  logger : LoggerState

inductive ProcessEvent (Change : Type) where
  | elapse (milliseconds : ℕ)
  | change (happened : Change)
  | logger (event : Logger.Event)

namespace Process

variable (options : LoggerOptions)

def step (s : Process World) : ProcessEvent Change → Option (Process World)
  | .elapse milliseconds => some { s with now := s.now + milliseconds }
  | .change happened => (clients.change s.world happened).map fun world => { s with world := world }
  | .logger event => (Logger.step clients options s.now s.world s.logger event).map
      fun after => { s with world := after.1, logger := after.2 }

/-- What has become of a logger that is new. -/
def runs (now : ℕ) (world : World) (events : List (ProcessEvent Change)) :
    Option (Process World) :=
  Machine.runs (step clients options) ⟨now, world, .start⟩ events

end Process

end Clients

end WebInsights.Logging
