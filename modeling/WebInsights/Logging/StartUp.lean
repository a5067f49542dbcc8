/-
The start of a logger, whatever its clients do and however many calls of `setup` overlap.

Every look of a `setup` call at the clients is one of three (`initializeClients_cases`), and a
step of the logger is a look, the end of a `setup` call, or a call that is handed on or
refused. What holds after every step of every run (`Sound`) then gives the protocol
(`setup_protocol`): nothing is handed on before a `setup` call has resolved, and no client is
set up again after one has.
-/
import WebInsights.Logging.Logger

set_option autoImplicit false

namespace WebInsights.Logging

open Effect

variable {Client World Change : Type} {clients : LoggerClients Client World Change}
  {options : LoggerOptions}

/-! ## What the logger does to the clients -/

section Clients

variable {world : World} {client : Client}

theorem someUninitialized_eq_false : clients.someUninitialized world = false ↔
    ∀ client ∈ clients.loggerClients, clients.initialized world client = true := by
  simp [LoggerClients.someUninitialized]

/-- A client that is initialized stays so while all are set up. -/
theorem initialized_setupAll {baseProperties : Option LoggerProperties}
    (h : clients.initialized world client = true) :
    clients.initialized (clients.setupAll world baseProperties) client = true := by
  refine List.foldlRecOn (motive := fun world => clients.initialized world client = true) _ _ h ?_
  exact fun _ hworld _ _ => clients.initialized_setup hworld

theorem initialized_invokeAll {call : ClientCall} (h : clients.initialized world client = true) :
    clients.initialized (clients.invokeAll world call) client = true := by
  refine List.foldlRecOn (motive := fun world => clients.initialized world client = true) _ _ h ?_
  exact fun _ hworld _ _ => clients.initialized_invoke hworld

end Clients

/-! ## One look at the clients -/

section Turn

variable {now : ℕ} {world : World} {call : SetupCall}

/-- It goes on, gives up, or ends. -/
theorem initializeClients_cases :
    (clients.someUninitialized world = true ∧ now ≤ call.began + options.initializationTimeout ∧
      Logger.initializeClients clients options now world call =
        (clients.setupAll world call.baseProperties, [.setup call.baseProperties],
          { call with turns := call.turns + 1, phase := .waiting (now + 100) })) ∨
    (clients.someUninitialized world = true ∧ call.began + options.initializationTimeout < now ∧
      Logger.initializeClients clients options now world call =
        (world, [], { call with phase := .rejected (clients.failedMessage world) })) ∨
    (clients.someUninitialized world = false ∧
      Logger.initializeClients clients options now world call =
        (world, [], { call with phase := .ready })) := by
  unfold Logger.initializeClients
  by_cases hsome : clients.someUninitialized world = true
  · by_cases hnow : now ≤ call.began + options.initializationTimeout
    · exact Or.inl ⟨hsome, hnow, if_pos ⟨hsome, hnow⟩⟩
    · refine Or.inr (Or.inl ⟨hsome, by omega, ?_⟩)
      rw [if_neg fun h => hnow h.2, if_pos hsome]
  · refine Or.inr (Or.inr ⟨Bool.eq_false_iff.mpr hsome, ?_⟩)
    rw [if_neg fun h => hsome h.1, if_neg hsome]

end Turn

/-- What is known of a call of `setup`. -/
structure SetupCall.Sound (options : LoggerOptions) (now : ℕ) (call : SetupCall) : Prop where
  began : call.began ≤ now
  turns : 100 * call.turns ≤ options.initializationTimeout + 100
  waiting : ∀ due, call.phase = .waiting due → call.began + 100 * call.turns ≤ due
  rejected : ∀ message, call.phase = .rejected message →
    call.began + options.initializationTimeout < now

/-- What a look at the clients leaves. -/
structure Looked (clients : LoggerClients Client World Change) (options : LoggerOptions) (now : ℕ)
    (world : World) (after : World × List Handed × SetupCall) : Prop where
  sound : after.2.2.Sound options now
  not_resolved : after.2.2.phase ≠ .resolved
  ready : after.2.2.phase = .ready → clients.someUninitialized after.1 = false
  handed : ∀ h ∈ after.2.1, ∃ baseProperties, h = .setup baseProperties
  kept : ∀ client, clients.initialized world client = true →
    clients.initialized after.1 client = true
  /-- Nothing is done if all are initialized. -/
  idle : clients.someUninitialized world = false → after.1 = world ∧ after.2.1 = []

theorem looked_initializeClients {now : ℕ} {world : World} {call : SetupCall}
    (h : call.Sound options now) (hwaiting : call.began + 100 * call.turns ≤ now) :
    Looked clients options now world (Logger.initializeClients clients options now world call) := by
  rcases @initializeClients_cases _ _ _ clients options now world call with
    ⟨hsome, hnow, heq⟩ | ⟨hsome, hnow, heq⟩ | ⟨hsome, heq⟩
  · rw [heq]
    refine ⟨⟨h.began, ?_, ?_, nofun⟩, nofun, nofun, ?_, fun _ => initialized_setupAll, ?_⟩
    · dsimp only
      omega
    · rintro due hdue
      obtain rfl := SetupPhase.waiting.inj hdue
      dsimp only
      omega
    · exact List.forall_mem_singleton.mpr ⟨_, rfl⟩
    · intro hnone
      rw [hsome] at hnone
      cases hnone
  · rw [heq]
    exact ⟨⟨h.began, h.turns, nofun, fun _ _ => hnow⟩, nofun, nofun, nofun, fun _ => id,
      fun _ => ⟨rfl, rfl⟩⟩
  · rw [heq]
    exact ⟨⟨h.began, h.turns, nofun, nofun⟩, nofun, fun _ => hsome, nofun, fun _ => id,
      fun _ => ⟨rfl, rfl⟩⟩

/-! ## What holds after every step -/

section Sound

variable {s s' : Process World} {call call' : SetupCall} {i : ℕ}

structure Sound (clients : LoggerClients Client World Change) (options : LoggerOptions)
    (s : Process World) : Prop where
  initialized : s.logger.initialized = true ↔ ∃ call ∈ s.logger.setups, call.phase = .resolved
  clients : (s.logger.initialized = true ∨ ∃ call ∈ s.logger.setups, call.phase = .ready) →
    clients.someUninitialized s.world = false
  before : s.logger.initialized = false → s.logger.isDebugEnabled = false ∧
    ∀ h ∈ s.logger.handed, ∃ baseProperties, h = .setup baseProperties
  calls : ∀ call ∈ s.logger.setups, call.Sound options s.now

theorem sound_start (now : ℕ) (world : World) : Sound clients options ⟨now, world, .start⟩ where
  initialized := ⟨nofun, nofun⟩
  clients := by
    rintro (h | ⟨_, hmem, -⟩)
    · cases h
    · cases hmem
  before := fun _ => ⟨rfl, nofun⟩
  calls := nofun

/-- Clients that are all initialized stay so. -/
theorem someUninitialized_kept {world after : World}
    (hkept : ∀ client, clients.initialized world client = true →
      clients.initialized after client = true)
    (h : clients.someUninitialized world = false) : clients.someUninitialized after = false :=
  someUninitialized_eq_false.mpr fun client hmem =>
    hkept client (someUninitialized_eq_false.mp h client hmem)

/-- In a list where one element became another, neither with the property. -/
theorem exists_mem_set_iff {calls : List SetupCall} {P : SetupCall → Prop}
    (hget : calls[i]? = some call) (hold : ¬ P call) (hnew : ¬ P call') :
    (∃ c ∈ calls.set i call', P c) ↔ ∃ c ∈ calls, P c := by
  constructor
  · rintro ⟨c, hmem, hc⟩
    rcases List.mem_or_eq_of_mem_set hmem with hmem | rfl
    · exact ⟨c, hmem, hc⟩
    · exact absurd hc hnew
  · rintro ⟨c, hmem, hc⟩
    obtain ⟨j, hj⟩ := List.mem_iff_getElem?.mp hmem
    refine ⟨c, List.mem_iff_getElem?.mpr ⟨j, ?_⟩, hc⟩
    rw [List.getElem?_set_ne, hj]
    rintro rfl
    rw [hget] at hj
    exact hold (Option.some.inj hj ▸ hc)

/-- A look at the clients, by a call that was there or is new. -/
theorem Sound.looked (h : Sound clients options s) {setups : List SetupCall}
    {after : World × List Handed × SetupCall}
    (hlooked : Looked clients options s.now s.world after)
    (hmem : ∀ call ∈ setups, call ∈ s.logger.setups ∨ call = after.2.2)
    (hresolved : (∃ call ∈ setups, call.phase = .resolved) ↔
      ∃ call ∈ s.logger.setups, call.phase = .resolved) :
    Sound clients options { s with
      world := after.1
      logger := { s.logger with setups := setups, handed := s.logger.handed ++ after.2.1 } } where
  initialized := h.initialized.trans hresolved.symm
  clients := by
    rintro (hinit | ⟨call, hcall, hready⟩)
    · exact someUninitialized_kept hlooked.kept (h.clients (Or.inl hinit))
    · rcases hmem call hcall with hold | rfl
      · exact someUninitialized_kept hlooked.kept (h.clients (Or.inr ⟨call, hold, hready⟩))
      · exact hlooked.ready hready
  before := fun hinit => ⟨(h.before hinit).1,
    List.forall_mem_append.mpr ⟨(h.before hinit).2, hlooked.handed⟩⟩
  calls := fun call hcall => by
    rcases hmem call hcall with hold | rfl
    · exact h.calls call hold
    · exact hlooked.sound

theorem Sound.elapse (h : Sound clients options s) (milliseconds : ℕ) :
    Sound clients options { s with now := s.now + milliseconds } where
  initialized := h.initialized
  clients := h.clients
  before := h.before
  calls := fun call hcall => by
    obtain ⟨hbegan, hturns, hwaiting, hrejected⟩ := h.calls call hcall
    refine ⟨?_, hturns, hwaiting, fun message hmessage => ?_⟩
    · exact Nat.le_add_right_of_le hbegan
    · exact Nat.lt_add_right milliseconds (hrejected message hmessage)

theorem Sound.kept (h : Sound clients options s) {world : World}
    (hkept : ∀ client, clients.initialized s.world client = true →
      clients.initialized world client = true) :
    Sound clients options { s with world := world } where
  initialized := h.initialized
  clients := fun hor => someUninitialized_kept hkept (h.clients hor)
  before := h.before
  calls := h.calls

theorem setup_of_not_initialized {now : ℕ} {world : World} {logger : LoggerState}
    {baseProperties : Option LoggerProperties} (hinit : logger.initialized = false) :
    Logger.setup clients options now baseProperties world logger =
      let after := Logger.initializeClients clients options now world
        ⟨baseProperties, now, 0, .waiting now⟩
      (after.1, { logger with
        setups := logger.setups ++ [after.2.2], handed := logger.handed ++ after.2.1 }) := by
  rw [Logger.setup, hinit]
  rfl

/-- A call of `setup` begins. -/
theorem Sound.setup (h : Sound clients options s) (baseProperties : Option LoggerProperties) :
    Sound clients options { s with
      world := (Logger.setup clients options s.now baseProperties s.world s.logger).1
      logger := (Logger.setup clients options s.now baseProperties s.world s.logger).2 } := by
  rcases hinit : s.logger.initialized with _ | _
  · have hlooked : Looked clients options s.now s.world (Logger.initializeClients clients options
        s.now s.world ⟨baseProperties, s.now, 0, .waiting s.now⟩) := by
      refine looked_initializeClients ⟨le_refl _, ?_, ?_, nofun⟩ (le_refl _)
      · exact Nat.zero_le _
      · rintro due hdue
        exact le_of_eq (SetupPhase.waiting.inj hdue)
    rw [setup_of_not_initialized hinit]
    refine h.looked hlooked (fun call hcall => ?_) ?_
    · exact (List.mem_append.mp hcall).imp_right List.mem_singleton.mp
    · simp [hlooked.not_resolved]
  · rw [Logger.setup, if_pos hinit]
    refine ⟨?_, ?_, h.before, ?_⟩
    · simp [hinit]
    · exact fun _ => h.clients (Or.inl hinit)
    · exact List.forall_mem_append.mpr ⟨h.calls, List.forall_mem_singleton.mpr
        ⟨le_refl _, Nat.zero_le _, nofun, nofun⟩⟩

theorem wake_eq_some {now : ℕ} {world : World} {logger : LoggerState}
    {result : World × LoggerState} :
    Logger.wake clients options now i world logger = some result ↔
      ∃ call due, logger.setups[i]? = some call ∧ call.phase = .waiting due ∧ due ≤ now ∧
        ((Logger.initializeClients clients options now world call).1, { logger with
          setups := logger.setups.set i
            (Logger.initializeClients clients options now world call).2.2
          handed := logger.handed ++
            (Logger.initializeClients clients options now world call).2.1 }) = result := by
  unfold Logger.wake
  rcases hcall : logger.setups[i]? with _ | call
  · simp
  · rcases hphase : call.phase with due | _ | _ | message
    · simp [hphase]
    · simp [hphase]
    · simp [hphase]
    · simp [hphase]

/-- The look of a call whose wait is over. -/
theorem Sound.looked_wake (h : Sound clients options s) {due : ℕ}
    (hget : s.logger.setups[i]? = some call) (hphase : call.phase = .waiting due)
    (hdue : due ≤ s.now) :
    Looked clients options s.now s.world
      (Logger.initializeClients clients options s.now s.world call) := by
  have hsound := h.calls call (List.mem_of_getElem? hget)
  exact looked_initializeClients hsound (le_trans (hsound.waiting due hphase) hdue)

/-- The wait of a call is over. -/
theorem Sound.wake (h : Sound clients options s) {result : World × LoggerState}
    (hwake : Logger.wake clients options s.now i s.world s.logger = some result) :
    Sound clients options { s with world := result.1, logger := result.2 } := by
  obtain ⟨call, due, hget, hphase, hdue, rfl⟩ := wake_eq_some.mp hwake
  have hlooked := h.looked_wake hget hphase hdue
  refine h.looked hlooked (fun c hc => List.mem_or_eq_of_mem_set hc) ?_
  exact exists_mem_set_iff hget (by rw [hphase]; exact nofun) hlooked.not_resolved

theorem finish_eq_some {logger logger' : LoggerState} :
    Logger.finish options i logger = some logger' ↔
      ∃ call, logger.setups[i]? = some call ∧ call.phase = .ready ∧ { logger with
        setups := logger.setups.set i { call with phase := .resolved }
        isDebugEnabled := debugArguments options.execArgv
        initialized := true } = logger' := by
  unfold Logger.finish
  rcases hcall : logger.setups[i]? with _ | call
  · simp
  · rcases hphase : call.phase with due | _ | _ | message
    · simp [hphase]
    · simp [hphase]
    · simp [hphase]
    · simp [hphase]

/-- A call of `setup` resolves. -/
theorem Sound.finish (h : Sound clients options s) {logger : LoggerState}
    (hfinish : Logger.finish options i s.logger = some logger) :
    Sound clients options { s with logger := logger } := by
  obtain ⟨call, hget, hphase, rfl⟩ := finish_eq_some.mp hfinish
  obtain ⟨hlt, rfl⟩ := List.getElem?_eq_some_iff.mp hget
  refine ⟨⟨fun _ => ⟨_, List.mem_set hlt _, rfl⟩, fun _ => rfl⟩, fun _ => ?_, nofun, ?_⟩
  · exact h.clients (Or.inr ⟨_, List.getElem_mem hlt, hphase⟩)
  · intro c hc
    rcases List.mem_or_eq_of_mem_set hc with hold | rfl
    · exact h.calls c hold
    · obtain ⟨hbegan, hturns, -, -⟩ := h.calls _ (List.getElem_mem hlt)
      exact ⟨hbegan, hturns, nofun, nofun⟩

/-- A call is handed to the clients, refused, or nothing. -/
theorem invoke_cases {call : LoggerCall} {world : World} {logger : LoggerState} :
    (call.clientCall logger.isDebugEnabled = none ∧
      Logger.invoke clients call world logger = (.ok (), world, logger)) ∨
    (∃ clientCall, call.clientCall logger.isDebugEnabled = some clientCall ∧
      logger.initialized = false ∧
        Logger.invoke clients call world logger = (.error notInitialized, world, logger)) ∨
    ∃ clientCall, call.clientCall logger.isDebugEnabled = some clientCall ∧
      logger.initialized = true ∧
        Logger.invoke clients call world logger = (.ok (), clients.invokeAll world clientCall,
          { logger with handed := logger.handed ++ [.call clientCall] }) := by
  unfold Logger.invoke
  rcases hcall : call.clientCall logger.isDebugEnabled with _ | clientCall
  · exact Or.inl ⟨rfl, rfl⟩
  · rcases hinit : logger.initialized with _ | _
    · exact Or.inr (Or.inl ⟨clientCall, rfl, rfl, rfl⟩)
    · exact Or.inr (Or.inr ⟨clientCall, rfl, rfl, rfl⟩)

theorem initialized_loggerInvoke {call : LoggerCall} {world : World} {logger : LoggerState} :
    (Logger.invoke clients call world logger).2.2.initialized = logger.initialized := by
  rcases @invoke_cases _ _ _ clients call world logger with
    ⟨-, heq⟩ | ⟨clientCall, -, -, heq⟩ | ⟨clientCall, -, -, heq⟩
  · rw [heq]
  · rw [heq]
  · rw [heq]

theorem setups_loggerInvoke {call : LoggerCall} {world : World} {logger : LoggerState} :
    (Logger.invoke clients call world logger).2.2.setups = logger.setups := by
  rcases @invoke_cases _ _ _ clients call world logger with
    ⟨-, heq⟩ | ⟨clientCall, -, -, heq⟩ | ⟨clientCall, -, -, heq⟩
  · rw [heq]
  · rw [heq]
  · rw [heq]

theorem Sound.invoke (h : Sound clients options s) (call : LoggerCall) :
    Sound clients options { s with
      world := (Logger.invoke clients call s.world s.logger).2.1
      logger := (Logger.invoke clients call s.world s.logger).2.2 } := by
  rcases @invoke_cases _ _ _ clients call s.world s.logger with
    ⟨-, heq⟩ | ⟨clientCall, -, -, heq⟩ | ⟨clientCall, -, hinit, heq⟩
  · rw [heq]
    exact h
  · rw [heq]
    exact h
  · rw [heq]
    obtain ⟨hinitialized, hclients, -, hcalls⟩ := h.kept fun client => initialized_invokeAll
    refine ⟨hinitialized, hclients, fun hnot => ?_, hcalls⟩
    rw [hinit] at hnot
    cases hnot

/-- What a look does to the clients. -/
theorem handed_initializeClients {now : ℕ} {world : World} (call : SetupCall) :
    ((Logger.initializeClients clients options now world call).1 = world ∧
      (Logger.initializeClients clients options now world call).2.1 = []) ∨
    ∃ baseProperties, clients.someUninitialized world = true ∧
      (Logger.initializeClients clients options now world call).1 =
        clients.setupAll world baseProperties ∧
      (Logger.initializeClients clients options now world call).2.1 = [.setup baseProperties] := by
  rcases @initializeClients_cases _ _ _ clients options now world call with
    ⟨hsome, -, heq⟩ | ⟨-, -, heq⟩ | ⟨-, heq⟩
  · rw [heq]
    exact Or.inr ⟨_, hsome, rfl, rfl⟩
  · rw [heq]
    exact Or.inl ⟨rfl, rfl⟩
  · rw [heq]
    exact Or.inl ⟨rfl, rfl⟩

/-- What a step of the logger does to the clients. -/
theorem step_cases {now : ℕ} {world : World} {logger : LoggerState} {event : Logger.Event}
    {after : World × LoggerState}
    (hstep : Logger.step clients options now world logger event = some after) :
    (after.1 = world ∧ after.2.handed = logger.handed) ∨
    (∃ baseProperties, clients.someUninitialized world = true ∧
      after.1 = clients.setupAll world baseProperties ∧
        after.2.handed = logger.handed ++ [.setup baseProperties]) ∨
    ∃ call, logger.initialized = true ∧ after.1 = clients.invokeAll world call ∧
      after.2.handed = logger.handed ++ [.call call] := by
  -- a set-up call looks at the clients when it begins and when it wakes up
  rcases event with baseProperties | i | i | call
  · obtain rfl := Option.some.inj hstep
    rcases hinit : logger.initialized with _ | _
    · rw [setup_of_not_initialized hinit]
      dsimp only
      rcases @handed_initializeClients _ _ _ clients options now world
        ⟨baseProperties, now, 0, .waiting now⟩ with
        ⟨hworld, hhanded⟩ | ⟨_, hsome, hworld, hhanded⟩
      · exact Or.inl ⟨hworld, by rw [hhanded, List.append_nil]⟩
      · exact Or.inr (Or.inl ⟨_, hsome, hworld, by rw [hhanded]⟩)
    · rw [Logger.setup, if_pos hinit]
      exact Or.inl ⟨rfl, rfl⟩
  · obtain ⟨call, due, -, -, -, rfl⟩ := wake_eq_some.mp hstep
    rcases @handed_initializeClients _ _ _ clients options now world call with
      ⟨hworld, hhanded⟩ | ⟨_, hsome, hworld, hhanded⟩
    · exact Or.inl ⟨hworld, by rw [hhanded, List.append_nil]⟩
    · exact Or.inr (Or.inl ⟨_, hsome, hworld, by rw [hhanded]⟩)
  · obtain ⟨logger', hfinish, rfl⟩ := Option.map_eq_some_iff.mp hstep
    obtain ⟨call, -, -, rfl⟩ := finish_eq_some.mp hfinish
    exact Or.inl ⟨rfl, rfl⟩
  · obtain rfl := Option.some.inj hstep
    rcases @invoke_cases _ _ _ clients call world logger with
      ⟨-, heq⟩ | ⟨clientCall, -, -, heq⟩ | ⟨clientCall, -, hinit, heq⟩
    · rw [heq]
      exact Or.inl ⟨rfl, rfl⟩
    · rw [heq]
      exact Or.inl ⟨rfl, rfl⟩
    · rw [heq]
      exact Or.inr (Or.inr ⟨clientCall, hinit, rfl, rfl⟩)

theorem Sound.step (h : Sound clients options s) {event : ProcessEvent Change}
    (hstep : Process.step clients options s event = some s') : Sound clients options s' := by
  rcases event with milliseconds | happened | event
  · obtain rfl := Option.some.inj hstep
    exact h.elapse milliseconds
  · obtain ⟨world, hchange, rfl⟩ := Option.map_eq_some_iff.mp hstep
    exact h.kept fun client => clients.initialized_change hchange
  · obtain ⟨after, hafter, rfl⟩ := Option.map_eq_some_iff.mp hstep
    rcases event with baseProperties | i | i | call
    · obtain rfl := Option.some.inj hafter
      exact h.setup baseProperties
    · exact h.wake hafter
    · obtain ⟨logger, hfinish, rfl⟩ := Option.map_eq_some_iff.mp hafter
      exact h.finish hfinish
    · obtain rfl := Option.some.inj hafter
      exact h.invoke call

/-- **What holds after every run.** -/
theorem runs_sound {now : ℕ} {world : World} {events : List (ProcessEvent Change)}
    (hruns : Process.runs clients options now world events = some s) : Sound clients options s :=
  Machine.runs_invariant (I := fun _ s => Sound clients options s) (sound_start now world)
    (fun _ _ _ _ h hstep => h.step hstep) hruns

/-! ## After a call of `setup` has resolved -/

theorem initialized_step {now : ℕ} {world : World} {logger : LoggerState} {event : Logger.Event}
    {after : World × LoggerState} (hinit : logger.initialized = true)
    (hstep : Logger.step clients options now world logger event = some after) :
    after.2.initialized = true := by
  rcases event with baseProperties | i | i | call
  · obtain rfl := Option.some.inj hstep
    rw [Logger.setup, if_pos hinit]
    exact hinit
  · obtain ⟨call, due, -, -, -, rfl⟩ := wake_eq_some.mp hstep
    exact hinit
  · obtain ⟨logger', hfinish, rfl⟩ := Option.map_eq_some_iff.mp hstep
    obtain ⟨call, -, -, rfl⟩ := finish_eq_some.mp hfinish
    rfl
  · obtain rfl := Option.some.inj hstep
    exact initialized_loggerInvoke.trans hinit

/-- Then clients are only handed calls. -/
theorem Sound.step_initialized (h : Sound clients options s) (hinit : s.logger.initialized = true)
    {event : ProcessEvent Change} (hstep : Process.step clients options s event = some s') :
    s'.logger.initialized = true ∧ ∃ calls : List ClientCall,
      s'.logger.handed = s.logger.handed ++ calls.map Handed.call := by
  rcases event with milliseconds | happened | event
  · obtain rfl := Option.some.inj hstep
    exact ⟨hinit, [], (List.append_nil _).symm⟩
  · obtain ⟨world, hchange, rfl⟩ := Option.map_eq_some_iff.mp hstep
    exact ⟨hinit, [], (List.append_nil _).symm⟩
  · obtain ⟨after, hafter, rfl⟩ := Option.map_eq_some_iff.mp hstep
    refine ⟨initialized_step hinit hafter, ?_⟩
    rcases step_cases hafter with ⟨-, hhanded⟩ | ⟨_, hsome, -, -⟩ | ⟨call, -, -, hhanded⟩
    · exact ⟨[], hhanded.trans (List.append_nil _).symm⟩
    · rw [h.clients (Or.inl hinit)] at hsome
      cases hsome
    · exact ⟨[call], hhanded⟩

/-- And so they are however long it goes on. -/
theorem Sound.runs_initialized (h : Sound clients options s) (hinit : s.logger.initialized = true)
    {later : List (ProcessEvent Change)}
    (hruns : Machine.runs (Process.step clients options) s later = some s') :
    (Sound clients options s' ∧ s'.logger.initialized = true) ∧
      ∃ calls : List ClientCall, s'.logger.handed = s.logger.handed ++ calls.map Handed.call := by
  refine Machine.runs_invariant (I := fun _ s' => (Sound clients options s' ∧
    s'.logger.initialized = true) ∧ ∃ calls : List ClientCall,
      s'.logger.handed = s.logger.handed ++ calls.map Handed.call)
    ⟨⟨h, hinit⟩, [], (List.append_nil _).symm⟩ ?_ hruns
  rintro _ before event after ⟨⟨hsound, hbefore⟩, calls, hcalls⟩ hstep
  obtain ⟨hafter, more, hmore⟩ := hsound.step_initialized hbefore hstep
  refine ⟨⟨hsound.step hstep, hafter⟩, calls ++ more, ?_⟩
  rw [hmore, hcalls, List.append_assoc, List.map_append]

end Sound

/-! ## Common properties -/

/-- Clients whose common properties are what they were given: an initialized client changes
them only when it is called with new ones. -/
structure KeepCommonProperties (clients : LoggerClients Client World Change)
    (commonProperties : World → Client → LoggerProperties) : Prop where
  distinct : clients.loggerClients.Nodup
  invoke_self : ∀ world call client, clients.initialized world client = true →
    commonProperties (clients.invoke world call client) client =
      call.commonProperties (commonProperties world client)
  invoke_other : ∀ world call client other, client ≠ other →
    commonProperties (clients.invoke world call other) client = commonProperties world client
  change : ∀ world happened after client, clients.change world happened = some after →
    clients.initialized world client = true →
      commonProperties after client = commonProperties world client

/-- The common properties that a call sets. -/
def LoggerCall.given : LoggerCall → List LoggerProperties
  | setCommonProperties properties => [properties]
  | _ => []

/-- The common properties that are set by what happens. -/
def ProcessEvent.given : ProcessEvent Change → List LoggerProperties
  | .logger (.invoke call) => call.given
  | _ => []

section CommonProperties

variable {commonProperties : World → Client → LoggerProperties} {s s' : Process World}
  {client : Client}

/-- A call is handed to each of the clients once. -/
theorem KeepCommonProperties.invokeAll (h : KeepCommonProperties clients commonProperties)
    (hmem : client ∈ clients.loggerClients) {world : World}
    (hinit : clients.initialized world client = true) (call : ClientCall) :
    commonProperties (clients.invokeAll world call) client =
      call.commonProperties (commonProperties world client) := by
  have hothers : ∀ (others : List Client) (world : World), client ∉ others →
      commonProperties (others.foldl (fun world other => clients.invoke world call other) world)
        client = commonProperties world client := by
    intro others world hnot
    refine List.foldlRecOn (motive := fun after =>
      commonProperties after client = commonProperties world client) _ _ rfl ?_
    intro after hafter other hother
    rw [h.invoke_other after call client other (fun e => hnot (e ▸ hother)), hafter]
  -- the clients are called in turn, and this one is among them once
  obtain ⟨before, after, hsplit⟩ := List.append_of_mem hmem
  have hdistinct := h.distinct
  rw [hsplit, List.nodup_append] at hdistinct
  obtain ⟨-, hcons, hdisjoint⟩ := hdistinct
  have hbefore : clients.initialized
      (before.foldl (fun world other => clients.invoke world call other) world) client = true :=
    List.foldlRecOn (motive := fun world => clients.initialized world client = true) _ _ hinit
      fun _ hworld _ _ => clients.initialized_invoke hworld
  rw [LoggerClients.invokeAll, hsplit, List.foldl_append, List.foldl_cons,
    hothers after _ (List.nodup_cons.mp hcons).1, h.invoke_self _ _ _ hbefore,
    hothers before _ fun hmem => hdisjoint client hmem client List.mem_cons_self rfl]

/-- What a call does to common properties. -/
theorem commonProperties_clientCall (isDebugEnabled : Bool) (call : LoggerCall)
    (common : LoggerProperties) :
    (call.clientCall isDebugEnabled).elim common (fun c => c.commonProperties common) =
      call.given.foldl LoggerProperties.spread common := by
  cases call <;> try rfl
  cases isDebugEnabled <;> rfl

/-- What happens to the common properties once a call of `setup` has resolved. -/
theorem KeepCommonProperties.step (h : KeepCommonProperties clients commonProperties)
    (hsound : Sound clients options s) (hinit : s.logger.initialized = true)
    (hmem : client ∈ clients.loggerClients) {event : ProcessEvent Change}
    (hstep : Process.step clients options s event = some s') :
    commonProperties s'.world client =
      event.given.foldl LoggerProperties.spread (commonProperties s.world client) := by
  have hall := hsound.clients (Or.inl hinit)
  rcases event with milliseconds | happened | event
  · obtain rfl := Option.some.inj hstep
    rfl
  · obtain ⟨world, hchange, rfl⟩ := Option.map_eq_some_iff.mp hstep
    exact h.change _ _ _ _ hchange (someUninitialized_eq_false.mp hall client hmem)
  · obtain ⟨after, hafter, rfl⟩ := Option.map_eq_some_iff.mp hstep
    rcases event with baseProperties | i | i | call
    · obtain rfl := Option.some.inj hafter
      rw [Logger.setup, if_pos hinit]
      rfl
    · -- a call that still looks at the clients finds them initialized
      obtain ⟨call, due, hget, hphase, hdue, rfl⟩ := wake_eq_some.mp hafter
      rw [((hsound.looked_wake hget hphase hdue).idle hall).1]
      rfl
    · obtain ⟨logger, hfinish, rfl⟩ := Option.map_eq_some_iff.mp hafter
      rfl
    · obtain rfl := Option.some.inj hafter
      rw [ProcessEvent.given, ← commonProperties_clientCall s.logger.isDebugEnabled]
      rcases @invoke_cases _ _ _ clients call s.world s.logger with
        ⟨hnone, heq⟩ | ⟨clientCall, hsome, hnot, heq⟩ | ⟨clientCall, hsome, -, heq⟩
      · rw [heq, hnone]
        rfl
      · rw [hinit] at hnot
        cases hnot
      · rw [heq, hsome]
        exact h.invokeAll hmem (someUninitialized_eq_false.mp hall client hmem) clientCall

/-- The clients then have what they had, and over it what they were given. -/
theorem KeepCommonProperties.runs (h : KeepCommonProperties clients commonProperties)
    (hsound : Sound clients options s) (hinit : s.logger.initialized = true)
    (hmem : client ∈ clients.loggerClients) {later : List (ProcessEvent Change)}
    (hruns : Machine.runs (Process.step clients options) s later = some s') :
    commonProperties s'.world client = (later.flatMap ProcessEvent.given).foldl
      LoggerProperties.spread (commonProperties s.world client) := by
  refine (Machine.runs_invariant (I := fun later s' => (Sound clients options s' ∧
    s'.logger.initialized = true) ∧ commonProperties s'.world client =
      (later.flatMap ProcessEvent.given).foldl LoggerProperties.spread
        (commonProperties s.world client)) ⟨⟨hsound, hinit⟩, rfl⟩ ?_ hruns).2
  rintro past before event after ⟨⟨hbefore, hinitBefore⟩, hcommon⟩ hstep
  refine ⟨⟨hbefore.step hstep, (hbefore.step_initialized hinitBefore hstep).1⟩, ?_⟩
  rw [h.step hbefore hinitBefore hmem hstep, hcommon, List.flatMap_append, List.foldl_append,
    List.flatMap_singleton]

end CommonProperties

/-! ## The protocol -/

/-- A call of `setup` that has rejected. -/
def LoggerState.Rejected (logger : LoggerState) (i : ℕ) : Prop :=
  ∃ call message, logger.setups[i]? = some call ∧ call.phase = .rejected message

structure StartUp (clients : LoggerClients Client World Change) (options : LoggerOptions)
    (s : Process World) : Prop where
  /-- Before a call of `setup` has resolved, no call is handed to the clients: it throws, or is
  one of `logVerbose` and does nothing. -/
  refused : (∀ call ∈ s.logger.setups, call.phase ≠ .resolved) →
    (∀ h ∈ s.logger.handed, ∃ baseProperties, h = .setup baseProperties) ∧
    (∀ message properties, Logger.invoke clients (.logVerbose message properties) s.world s.logger =
      (.ok (), s.world, s.logger)) ∧
    ∀ call, (∀ message properties, call ≠ .logVerbose message properties) →
      Logger.invoke clients call s.world s.logger = (.error notInitialized, s.world, s.logger)
  resolves : (∃ call ∈ s.logger.setups, call.phase = .resolved) →
    ∀ client ∈ clients.loggerClients, clients.initialized s.world client = true
  /-- A call rejects when its time is over and a client is not initialized, and nor is the
  logger. -/
  rejects : ∀ event s' i, Process.step clients options s event = some s' →
    ¬ s.logger.Rejected i → s'.logger.Rejected i →
      (∃ call, s'.logger.setups[i]? = some call ∧
        call.began + options.initializationTimeout < s'.now) ∧
      (∃ client ∈ clients.loggerClients, clients.initialized s'.world client = false) ∧
      s'.logger.initialized = false
  /-- Each call looks at the clients no more often than its time allows. -/
  turns : ∀ call ∈ s.logger.setups, 100 * call.turns ≤ options.initializationTimeout + 100
  /-- When its time is over it ends. -/
  ends : ∀ i call due milliseconds, s.logger.setups[i]? = some call → call.phase = .waiting due →
    due ≤ s.now + milliseconds →
    call.began + options.initializationTimeout < s.now + milliseconds →
      ∃ s', Machine.runs (Process.step clients options) s
          [.elapse milliseconds, .logger (.wake i)] = some s' ∧
        s'.logger.setups[i]?.map SetupCall.phase =
          some (if clients.someUninitialized s.world then
            .rejected (clients.failedMessage s.world) else .ready)
  finishes : ∀ i call, s.logger.setups[i]? = some call → call.phase = .ready →
    ∃ s', Process.step clients options s (.logger (.finish i)) = some s' ∧
      s'.logger.setups[i]?.map SetupCall.phase = some .resolved
  /-- After a call has resolved no client is set up again, and common properties are those that
  were set. -/
  kept : (∃ call ∈ s.logger.setups, call.phase = .resolved) →
    ∀ later s', Machine.runs (Process.step clients options) s later = some s' →
      (∃ calls : List ClientCall, s'.logger.handed = s.logger.handed ++ calls.map Handed.call) ∧
      ∀ commonProperties, KeepCommonProperties clients commonProperties →
        ∀ client ∈ clients.loggerClients, commonProperties s'.world client =
          (later.flatMap ProcessEvent.given).foldl LoggerProperties.spread
            (commonProperties s.world client)

section StartUp

/-- Only `logVerbose` may do nothing. -/
theorem clientCall_eq_none {isDebugEnabled : Bool} {call : LoggerCall}
    (h : call.clientCall isDebugEnabled = none) :
    ∃ message properties, call = .logVerbose message properties := by
  cases call <;> first | exact ⟨_, _, rfl⟩ | cases h

variable {s s' : Process World} {i : ℕ}

/-- A look that makes a call reject. -/
theorem initializeClients_rejected {now : ℕ} {world : World} {call : SetupCall} {message : String}
    (h : (Logger.initializeClients clients options now world call).2.2.phase =
      .rejected message) :
    clients.someUninitialized world = true ∧ call.began + options.initializationTimeout < now ∧
      (Logger.initializeClients clients options now world call).1 = world ∧
      (Logger.initializeClients clients options now world call).2.2.began = call.began := by
  rcases @initializeClients_cases _ _ _ clients options now world call with
    ⟨-, -, heq⟩ | ⟨hsome, hnow, heq⟩ | ⟨-, heq⟩
  · rw [heq] at h
    cases h
  · rw [heq]
    exact ⟨hsome, hnow, rfl, rfl⟩
  · rw [heq] at h
    cases h

theorem Sound.not_initialized (h : Sound clients options s)
    (hsome : clients.someUninitialized s.world = true) : s.logger.initialized = false := by
  by_contra hinit
  rw [h.clients (Or.inl (Bool.not_eq_false _ ▸ hinit))] at hsome
  cases hsome

/-- A call that begins has all its time. -/
theorem rejected_of_setup {now : ℕ} {world : World} {logger : LoggerState}
    {baseProperties : Option LoggerProperties}
    (h : (Logger.setup clients options now baseProperties world logger).2.Rejected i) :
    logger.Rejected i := by
  obtain ⟨call, message, hget, hphase⟩ := h
  rcases hinit : logger.initialized with _ | _
  · rw [setup_of_not_initialized hinit] at hget
    dsimp only at hget
    rw [List.getElem?_append] at hget
    split at hget
    · exact ⟨call, message, hget, hphase⟩
    · -- a new call has waited for nothing yet
      rw [List.mem_singleton.mp (List.mem_of_getElem? hget)] at hphase
      have hnow := (initializeClients_rejected hphase).2.1
      dsimp only at hnow
      omega
  · rw [Logger.setup, if_pos hinit] at hget
    dsimp only at hget
    rw [List.getElem?_append] at hget
    split at hget
    · exact ⟨call, message, hget, hphase⟩
    · rw [List.mem_singleton.mp (List.mem_of_getElem? hget)] at hphase
      cases hphase

theorem rejected_of_finish {j : ℕ} {logger logger' : LoggerState}
    (hfinish : Logger.finish options j logger = some logger') (h : logger'.Rejected i) :
    logger.Rejected i := by
  obtain ⟨ready, -, -, rfl⟩ := finish_eq_some.mp hfinish
  obtain ⟨call, message, hget, hphase⟩ := h
  dsimp only at hget
  rw [List.getElem?_set] at hget
  split at hget
  · -- the call that ends resolves
    split at hget
    · rw [← Option.some.inj hget] at hphase
      cases hphase
    · cases hget
  · exact ⟨call, message, hget, hphase⟩

/-- Only a wait that is over makes a call reject. -/
theorem exists_wake_of_rejected {event : ProcessEvent Change}
    (hstep : Process.step clients options s event = some s') (hbefore : ¬ s.logger.Rejected i)
    (hafter : s'.logger.Rejected i) :
    ∃ call due result, s.logger.setups[i]? = some call ∧ call.phase = .waiting due ∧
      due ≤ s.now ∧ Logger.wake clients options s.now i s.world s.logger = some result ∧
        s' = { s with world := result.1, logger := result.2 } := by
  rcases event with milliseconds | happened | event
  · obtain rfl := Option.some.inj hstep
    exact absurd hafter hbefore
  · obtain ⟨world, -, rfl⟩ := Option.map_eq_some_iff.mp hstep
    exact absurd hafter hbefore
  · obtain ⟨after, hresult, rfl⟩ := Option.map_eq_some_iff.mp hstep
    rcases event with baseProperties | j | j | call
    · obtain rfl := Option.some.inj hresult
      exact absurd (rejected_of_setup hafter) hbefore
    · obtain ⟨call, due, hget, hphase, hdue, hwake⟩ := wake_eq_some.mp hresult
      by_cases hij : i = j
      · subst hij
        exact ⟨call, due, after, hget, hphase, hdue, hresult, rfl⟩
      · -- the look of another call
        obtain ⟨call', message, hget', hphase'⟩ := hafter
        rw [← hwake] at hget'
        dsimp only at hget'
        rw [List.getElem?_set_ne (Ne.symm hij)] at hget'
        exact absurd ⟨call', message, hget', hphase'⟩ hbefore
    · obtain ⟨logger, hfinish, rfl⟩ := Option.map_eq_some_iff.mp hresult
      exact absurd (rejected_of_finish hfinish hafter) hbefore
    · obtain rfl := Option.some.inj hresult
      obtain ⟨call', message, hget', hphase'⟩ := hafter
      dsimp only at hget'
      rw [setups_loggerInvoke] at hget'
      exact absurd ⟨call', message, hget', hphase'⟩ hbefore

theorem Sound.rejects (h : Sound clients options s) {event : ProcessEvent Change}
    (hstep : Process.step clients options s event = some s') (hbefore : ¬ s.logger.Rejected i)
    (hafter : s'.logger.Rejected i) :
    (∃ call, s'.logger.setups[i]? = some call ∧
      call.began + options.initializationTimeout < s'.now) ∧
    (∃ client ∈ clients.loggerClients, clients.initialized s'.world client = false) ∧
    s'.logger.initialized = false := by
  have hsound := h.step hstep
  obtain ⟨call, due, result, hget, hphase, hdue, hwake, rfl⟩ :=
    exists_wake_of_rejected hstep hbefore hafter
  obtain ⟨call', message, hget', hphase'⟩ := hafter
  obtain ⟨_, _, hget₀, _, _, rfl⟩ := wake_eq_some.mp hwake
  obtain rfl := Option.some.inj (hget.symm.trans hget₀)
  obtain ⟨hlt, -⟩ := List.getElem?_eq_some_iff.mp hget
  dsimp only at hget'
  rw [List.getElem?_set_self hlt] at hget'
  rw [← Option.some.inj hget'] at hphase'
  obtain ⟨hsome, hnow, hworld, hbegan⟩ := initializeClients_rejected hphase'
  rw [← hworld] at hsome
  refine ⟨⟨_, List.getElem?_set_self hlt, ?_⟩, ?_, hsound.not_initialized hsome⟩
  · rw [hbegan]
    exact hnow
  · obtain ⟨client, hmem, hclient⟩ := List.any_eq_true.mp hsome
    exact ⟨client, hmem, by simpa using hclient⟩

theorem step_logger {event : Logger.Event} {after : World × LoggerState}
    (h : Logger.step clients options s.now s.world s.logger event = some after) :
    Process.step clients options s (.logger event) =
      some { s with world := after.1, logger := after.2 } := by
  rw [Process.step, h, Option.map_some]

/-- A call whose time is over ends at its next look. -/
theorem exists_end {call : SetupCall} {due milliseconds : ℕ}
    (hget : s.logger.setups[i]? = some call) (hphase : call.phase = .waiting due)
    (hdue : due ≤ s.now + milliseconds)
    (hover : call.began + options.initializationTimeout < s.now + milliseconds) :
    ∃ s', Machine.runs (Process.step clients options) s
        [.elapse milliseconds, .logger (.wake i)] = some s' ∧
      s'.logger.setups[i]?.map SetupCall.phase =
        some (if clients.someUninitialized s.world then
          .rejected (clients.failedMessage s.world) else .ready) := by
  obtain ⟨hlt, -⟩ := List.getElem?_eq_some_iff.mp hget
  have hwake := (@wake_eq_some _ _ _ clients options i (s.now + milliseconds) s.world s.logger
    _).mpr ⟨call, due, hget, hphase, hdue, rfl⟩
  have helapse : Machine.runs (Process.step clients options) s [.elapse milliseconds] =
      some { s with now := s.now + milliseconds } := rfl
  have hlook := @step_logger _ _ _ clients options { s with now := s.now + milliseconds } (.wake i)
    _ hwake
  refine ⟨_, Machine.runs_append_singleton.mpr ⟨_, helapse, hlook⟩, ?_⟩
  dsimp only
  rw [List.getElem?_set_self hlt, Option.map_some]
  rcases @initializeClients_cases _ _ _ clients options (s.now + milliseconds) s.world call with
    ⟨-, hnow, -⟩ | ⟨hsome, -, heq⟩ | ⟨hsome, heq⟩
  · omega
  · rw [heq, hsome]
    rfl
  · rw [heq, hsome]
    rfl

theorem Sound.startUp (h : Sound clients options s) : StartUp clients options s where
  refused := by
    intro hnone
    have hinit : s.logger.initialized = false := by
      by_contra hinit
      obtain ⟨call, hmem, hresolved⟩ := h.initialized.mp (Bool.not_eq_false _ ▸ hinit)
      exact hnone call hmem hresolved
    obtain ⟨hdebug, hhanded⟩ := h.before hinit
    refine ⟨hhanded, fun message properties => ?_, fun call hcall => ?_⟩
    · rw [Logger.invoke, LoggerCall.clientCall, hdebug]
      rfl
    · -- any other call is refused while the logger is not initialized
      rcases @invoke_cases _ _ _ clients call s.world s.logger with
        ⟨hclientCall, -⟩ | ⟨clientCall, -, -, heq⟩ | ⟨clientCall, -, hnot, -⟩
      · obtain ⟨message, properties, rfl⟩ := clientCall_eq_none hclientCall
        exact absurd rfl (hcall message properties)
      · exact heq
      · rw [hinit] at hnot
        cases hnot
  resolves := fun hresolved =>
    someUninitialized_eq_false.mp (h.clients (Or.inl (h.initialized.mpr hresolved)))
  rejects := fun event s' i => h.rejects
  turns := fun call hmem => (h.calls call hmem).turns
  ends := fun i call due milliseconds => exists_end
  finishes := by
    intro i call hget hphase
    obtain ⟨hlt, -⟩ := List.getElem?_eq_some_iff.mp hget
    have hfinish := (@finish_eq_some options i s.logger _).mpr ⟨call, hget, hphase, rfl⟩
    refine ⟨_, @step_logger _ _ _ clients options s (.finish i) (s.world, _)
      (congrArg (Option.map fun logger => (s.world, logger)) hfinish), ?_⟩
    dsimp only
    rw [List.getElem?_set_self hlt]
    rfl
  kept := by
    intro hresolved later s' hruns
    have hinit := h.initialized.mpr hresolved
    exact ⟨(h.runs_initialized hinit hruns).2,
      fun commonProperties hkeep client hmem => hkeep.runs h hinit hmem hruns⟩

/-- **The start of a logger** follows its protocol, after every run. -/
theorem setup_protocol {now : ℕ} {world : World} {events : List (ProcessEvent Change)}
    (hruns : Process.runs clients options now world events = some s) : StartUp clients options s :=
  (runs_sound hruns).startUp

end StartUp

/-! A logger of one client, which may say that it is initialized. -/

def switchClient : LoggerClients Unit Bool Unit where
  loggerClients := [()]
  constructorName := fun _ => "SwitchLoggerClient"
  initialized := fun on _ => on
  setup := fun on _ _ => on
  invoke := fun on _ _ => on
  change := fun _ _ => some true
  initialized_setup := id
  initialized_invoke := id
  initialized_change := fun h _ => (Option.some.inj h).symm

/-- Two calls of `setup` overlap, the client is initialized between them. -/
theorem setup_protocol_switchClient :
    ∃ s, Process.runs switchClient ⟨["--inspect"], 5000⟩ 0 false
        [.logger (.setup none), .elapse 100, .logger (.wake 0), .change (), .logger (.setup none),
          .logger (.finish 1)] = some s ∧
      s.logger.initialized = true ∧ StartUp switchClient ⟨["--inspect"], 5000⟩ s := by
  obtain ⟨s, hruns⟩ : ∃ s, Process.runs switchClient ⟨["--inspect"], 5000⟩ 0 false
      [.logger (.setup none), .elapse 100, .logger (.wake 0), .change (), .logger (.setup none),
        .logger (.finish 1)] = some s := ⟨_, rfl⟩
  have hinit : (Process.runs switchClient ⟨["--inspect"], 5000⟩ 0 false
      [.logger (.setup none), .elapse 100, .logger (.wake 0), .change (), .logger (.setup none),
        .logger (.finish 1)]).map (fun s => s.logger.initialized) = some true := by rfl
  rw [hruns] at hinit
  exact ⟨s, hruns, Option.some.inj hinit, setup_protocol hruns⟩

end WebInsights.Logging
