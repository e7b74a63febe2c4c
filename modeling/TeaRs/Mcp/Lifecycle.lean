import TeaRs.Lib.Run
import TeaRs.Mcp.Connection

/-!
# The lifecycle of a managed MCP server

Calls, transport failures, any number of concurrent calls of `McpManager::reconnect` and one call of
`McpManager::shutdown` act on one server (`tea-mcp/src/manager.rs`). Each method of the slot is one
step; a reconnect and the shutdown pause at every lock and at every future they await.

## Main definitions

* `ReconnectPhase`, `ShutdownPhase`: where a reconnect and the shutdown stand.
* `System`: the server with everything that acts on it, and `System.step`.
* `System.Managed`: what holds in every state that is reached.

## Main results

* `System.callStep_cases`: the kinds of steps of a reconnect.
* `System.lifecycle`: every run is managed, and what is stopped stays so.
-/

namespace TeaRs.Mcp

open Function

/-- What becomes of a reconnect after it has shut its candidate down. -/
inductive AfterDrop where
  | stop
  | fail (code : McpErrorCode)
  | retry (attempt : Nat)
  | leave
  deriving DecidableEq, Repr

/-- `InitializedServer`: a client, and whether its snapshot is the frozen one. -/
structure Candidate where
  client : ClientId
  unchanged : Bool
  deriving DecidableEq, Repr

/-- Where a call of `McpManager::reconnect` stands: what it does next. -/
inductive ReconnectPhase where
  /-- Check the token and the settings. -/
  | idle
  /-- `begin_reconnect`. -/
  | checked
  /-- Wait for the operation lock. -/
  | queued
  /-- Check the token under the lock. -/
  | locked
  /-- Take the old client. -/
  | taking
  /-- Shut the old client down. -/
  | closing (client : ClientId)
  /-- Check the token again. -/
  | closed
  /-- `record_attempt`. -/
  | attempting (attempt : Nat)
  /-- `initialize_restart`. -/
  | starting (attempt : Nat)
  /-- Shut down a client that started but could not be discovered. -/
  | abandoning (attempt : Nat) (client : ClientId) (code : McpErrorCode)
  /-- Look at the token and the candidate. -/
  | started (attempt : Nat) (candidate : Except McpErrorCode Candidate)
  /-- Take the execution handle and complete the guard. -/
  | completing (attempt : Nat) (client : ClientId)
  /-- Shut the candidate down. -/
  | dropping (client : ClientId) (next : AfterDrop)
  /-- Wait for the backoff, or for the token. -/
  | waiting (attempt : Nat)
  /-- Store the client. -/
  | storing (client : ClientId)
  /-- Read the health. -/
  | reporting
  /-- `fail` of the guard. -/
  | failing (code : McpErrorCode)
  /-- `stop` of the guard. -/
  | stopping
  /-- Release the operation lock. -/
  | returning
  | returned

variable {phase : ReconnectPhase}

namespace ReconnectPhase

/-- The call has an active guard. -/
def guarded : ReconnectPhase → Bool
  | idle | checked | storing _ | reporting | returning | returned | dropping _ .leave => false
  | _ => true

/-- The call holds the operation lock. -/
def owns : ReconnectPhase → Bool
  | idle | checked | queued | returned => false
  | _ => true

/-- The clients that the call holds. -/
def clients : ReconnectPhase → List ClientId
  | closing client | abandoning _ client _ | completing _ client | dropping client _
  | storing client => [client]
  | started _ (.ok candidate) => [candidate.client]
  | _ => []

/-- The call has taken the old client, and not stored a new one. -/
def emptied : ReconnectPhase → Bool
  | closing _ | closed | attempting _ | starting _ | abandoning .. | started .. | completing ..
  | dropping .. | waiting _ | storing _ => true
  | _ => false

/-- The call neither holds a client nor will create one. -/
def quiet : ReconnectPhase → Bool
  | idle | checked | queued | locked | stopping | returning | returned => true
  | _ => false

theorem emptied_of_clients {client : ClientId}
    (clients : phase.clients = [client]) : phase.emptied = true := by
  cases phase <;> first | rfl | cases clients

theorem clients_of_quiet (quiet : phase.quiet = true) : phase.clients = [] := by
  cases phase <;> first | rfl | cases quiet

theorem quiet_of_emptied (emptied : phase.emptied = true) : phase.quiet = false := by
  cases phase <;> first | rfl | cases emptied

theorem owns_of_emptied (emptied : phase.emptied = true) : phase.owns = true := by
  cases phase <;> first | rfl | cases emptied

theorem quiet_of_not_owns (owns : phase.owns = false) : phase.quiet = true := by
  cases phase <;> first | rfl | cases owns

end ReconnectPhase

/-- The task that `McpManager::shutdown` spawns for a server. -/
inductive ShutdownTask where
  | closing (client : ClientId)
  | draining
  | done (drained : Bool)

/-- The clients that the task holds. -/
def ShutdownTask.clients : ShutdownTask → List ClientId
  | closing client => [client]
  | _ => []

/-- Where the call of `McpManager::shutdown` stands. -/
inductive ShutdownPhase where
  | idle
  /-- The token is cancelled. -/
  | cancelled
  /-- `begin_shutdown` is done. -/
  | begun
  /-- The operation lock is held. -/
  | locked
  /-- The client is taken; the lock may be released. -/
  | joining (released : Bool) (task : ShutdownTask)
  | returned

namespace ShutdownPhase

/-- `begin_shutdown` is done. -/
def hasBegun : ShutdownPhase → Bool
  | idle | cancelled => false
  | _ => true

/-- The call holds the operation lock. -/
def owns : ShutdownPhase → Bool
  | locked | joining false _ => true
  | _ => false

/-- The call has held the operation lock. -/
def hasLocked : ShutdownPhase → Bool
  | idle | cancelled | begun => false
  | _ => true

/-- The call has taken the client. -/
def hasTaken : ShutdownPhase → Bool
  | joining .. | returned => true
  | _ => false

/-- The clients that the call holds. -/
def clients : ShutdownPhase → List ClientId
  | joining _ task => task.clients
  | _ => []

end ShutdownPhase

/-- Who holds the operation lock. -/
inductive Owner where
  | reconnect (call : Nat)
  | shutdown
  deriving DecidableEq

/-- What `reconnect` reads of a server: whether it was ever initialized, and its policy. -/
structure RestartSettings where
  hasSnapshot : Bool
  enabled : Bool
  maxAttempts : Nat

/-- A managed server with everything that acts on it. -/
structure System where
  slot : ConnectionState
  transport : ClientId → TransportStatus
  client : Option ClientId
  operation : Option Owner
  /-- The token is cancelled. -/
  cancelled : Bool
  calls : Nat → ReconnectPhase
  shutdown : ShutdownPhase
  /-- The connections of the live leases. -/
  leases : List ClientId
  /-- The connections that were put into the slot, the latest first. -/
  installed : List ClientId
  /-- The clients that were created. -/
  created : List ClientId
  /-- The clients that were shut down. -/
  closed : List ClientId

/-- What `initialize_restart` does. -/
inductive Startup where
  | refused (code : McpErrorCode)
  /-- A client starts, but its discovery fails. -/
  | broken (code : McpErrorCode)
  | succeeded (unchanged : Bool)

/-- What a server answers to a reconnect. -/
structure Answer where
  startup : Startup
  /-- The error of `execution_handle`. -/
  handleError : Option McpErrorCode

/-- The steps of the system. -/
inductive Action where
  | acquireCall
  | dropLease (index : Nat)
  | transport (client : ClientId) (status : TransportStatus)
  | health
  | reconnect (call : Nat) (answer : Answer)
  | shutdown
  | shutdownTask (timedOut : Bool)

namespace System

/-- A server that started with a client. -/
def ready (transport : ClientId → TransportStatus) : System where
  slot := .ready ⟨0⟩
  transport
  client := some ⟨0⟩
  operation := none
  cancelled := false
  calls := fun _ => .idle
  shutdown := .idle
  leases := []
  installed := [⟨0⟩]
  created := [⟨0⟩]
  closed := []

/-- A server that failed to start. -/
def unhealthy (transport : ClientId → TransportStatus) (code : McpErrorCode) : System where
  slot := .unhealthy code
  transport
  client := none
  operation := none
  cancelled := false
  calls := fun _ => .idle
  shutdown := .idle
  leases := []
  installed := []
  created := []
  closed := []

/-- A client that was never used. -/
def fresh (s : System) : ClientId := ⟨s.created.length⟩

/-- Move a call. -/
def move (s : System) (call : Nat) (phase : ReconnectPhase) : System :=
  { s with calls := update s.calls call phase }

@[simp] theorem move_shutdown (s : System) (call : Nat) (phase : ReconnectPhase) :
    (s.move call phase).shutdown = s.shutdown := rfl

/-- A step of `McpManager::reconnect`; none while the lock is taken. -/
def callStep (settings : RestartSettings) (s : System) (call : Nat) (answer : Answer) :
    Option System :=
  match s.calls call with
  | .idle =>
    some (s.move call
      (if s.cancelled || !settings.hasSnapshot || !settings.enabled then .returned else .checked))
  | .checked =>
    match s.slot.beginReconnect s.transport with
    | (.ok _, slot) => some { s.move call .queued with slot }
    | (.error _, slot) => some { s.move call .returned with slot }
  | .queued =>
    if s.operation = none then
      some { s.move call .locked with operation := some (.reconnect call) }
    else none
  | .locked => some (s.move call (if s.cancelled then .stopping else .taking))
  | .taking =>
    match s.client with
    | some client => some { s.move call (.closing client) with client := none }
    | none => some (s.move call .closed)
  | .closing client => some { s.move call .closed with closed := client :: s.closed }
  | .closed => some (s.move call (if s.cancelled then .stopping else .attempting 1))
  | .attempting attempt =>
    -- The range of attempts may be empty, or over.
    if settings.maxAttempts < attempt then some (s.move call (.failing .unavailable))
    else
      match s.slot.recordAttempt with
      | (.error code, slot) => some { s.move call (.failing code) with slot }
      | (.ok _, slot) => some { s.move call (.starting attempt) with slot }
  | .starting attempt =>
    match answer.startup with
    | .refused code => some (s.move call (.started attempt (.error code)))
    | .broken code =>
      some { s.move call (.abandoning attempt s.fresh code) with created := s.fresh :: s.created }
    | .succeeded unchanged =>
      some { s.move call (.started attempt (.ok ⟨s.fresh, unchanged⟩)) with
        created := s.fresh :: s.created }
  | .abandoning attempt client code =>
    some { s.move call (.started attempt (.error code)) with closed := client :: s.closed }
  | .started attempt (.error code) =>
    some (s.move call
      (if s.cancelled then .stopping
      else if attempt = settings.maxAttempts then .failing code
      else .waiting attempt))
  | .started attempt (.ok candidate) =>
    some (s.move call
      (if s.cancelled then .dropping candidate.client .stop
      else if candidate.unchanged then .completing attempt candidate.client
      else .dropping candidate.client (.fail .descriptor)))
  | .completing attempt client =>
    match answer.handleError with
    | some code =>
      some (s.move call (.dropping client
        (if attempt = settings.maxAttempts then .fail code else .retry attempt)))
    | none =>
      match s.slot.complete client with
      | (.ok _, slot) =>
        some { s.move call (.storing client) with slot, installed := client :: s.installed }
      | (.error _, slot) => some { s.move call (.dropping client .leave) with slot }
  | .dropping client next =>
    some {
      s.move call (match next with
        | .stop => .stopping
        | .fail code => .failing code
        | .retry attempt => .waiting attempt
        | .leave => .returning) with
      closed := client :: s.closed }
  | .waiting attempt =>
    some (s.move call (if s.cancelled then .stopping else .attempting (attempt + 1)))
  | .storing client => some { s.move call .reporting with client := some client }
  | .reporting => some { s.move call .returning with slot := s.slot.synchronize s.transport }
  | .failing code => some { s.move call .returning with slot := s.slot.setFailure code }
  | .stopping => some { s.move call .returning with slot := s.slot.stop }
  | .returning => some { s.move call .returned with operation := none }
  | .returned => none

/-- A step of `McpManager::shutdown` itself. -/
def shutdownStep (s : System) : Option System :=
  match s.shutdown with
  | .idle => some { s with shutdown := .cancelled, cancelled := true }
  | .cancelled => some { s with shutdown := .begun, slot := s.slot.beginShutdown }
  | .begun =>
    if s.operation = none then some { s with shutdown := .locked, operation := some .shutdown }
    else none
  | .locked =>
    some { s with
      shutdown := .joining false
        (match s.client with
        | some client => .closing client
        | none => .draining)
      client := none }
  | .joining false task => some { s with shutdown := .joining true task, operation := none }
  | .joining true (.done _) => some { s with shutdown := .returned }
  | .joining true _ => none
  | .returned => none

/-- A step of the task that shuts the client down and waits for the calls in flight. -/
def taskStep (s : System) (timedOut : Bool) : Option System :=
  match s.shutdown with
  | .joining released (.closing client) =>
    some { s with shutdown := .joining released .draining, closed := client :: s.closed }
  | .joining released .draining =>
    if s.slot.inFlight = 0 then some { s with shutdown := .joining released (.done true) }
    else if timedOut then some { s with shutdown := .joining released (.done false) }
    else none
  | _ => none

/-- One step of the system, if it is possible. -/
def step (settings : RestartSettings) (s : System) : Action → Option System
  | .acquireCall =>
    match s.slot.acquireCall s.transport with
    | (.ok connection, slot) => some { s with slot, leases := connection :: s.leases }
    | (.error _, slot) => some { s with slot }
  | .dropLease index =>
    if index < s.leases.length then
      some { s with slot := s.slot.dropLease, leases := s.leases.eraseIdx index }
    else none
  | .transport client status =>
    some { s with transport := update s.transport client status }
  | .health => some { s with slot := s.slot.synchronize s.transport }
  | .reconnect call answer => s.callStep settings call answer
  | .shutdown => s.shutdownStep
  | .shutdownTask timedOut => s.taskStep timedOut

/-! ### The kinds of steps of a reconnect -/

/-- What a step of a call can do. -/
inductive CallMove (s : System) (call : Nat) : System → Prop
  /-- The call goes on; of the slot it changes nothing that a guard or a lease depends on. -/
  | passes {old : ReconnectPhase} (before : s.calls call = old) (phase : ReconnectPhase)
      (slot : ConnectionState)
      (steady : slot = s.slot ∨ slot = s.slot.synchronize s.transport ∨
        slot = s.slot.recordAttempt.2)
      (guarded : phase.guarded = old.guarded) (owns : phase.owns = old.owns)
      (clients : phase.clients = old.clients)
      (quiet : phase.quiet = true ∨ old.quiet = false ∨ s.cancelled = false)
      (emptied : phase.emptied = true → old.emptied = true ∨ s.client = none) :
      CallMove s call { s.move call phase with slot }
  | begins (before : s.calls call = .checked)
      (ok : (s.slot.beginReconnect s.transport).1 = .ok ()) :
      CallMove s call { s.move call .queued with slot := (s.slot.beginReconnect s.transport).2 }
  | locks (before : s.calls call = .queued) (free : s.operation = none) :
      CallMove s call { s.move call .locked with operation := some (.reconnect call) }
  | takes (client : ClientId) (before : s.calls call = .taking) (owned : s.client = some client) :
      CallMove s call { s.move call (.closing client) with client := none }
  | closes {old : ReconnectPhase} (before : s.calls call = old) (client : ClientId)
      (phase : ReconnectPhase) (clients : old.clients = [client]) (clients' : phase.clients = [])
      (guarded : phase.guarded = old.guarded) (owns : phase.owns = true) :
      CallMove s call { s.move call phase with closed := client :: s.closed }
  | creates (attempt : Nat) (before : s.calls call = .starting attempt) (phase : ReconnectPhase)
      (clients : phase.clients = [s.fresh]) (guarded : phase.guarded = true) :
      CallMove s call { s.move call phase with created := s.fresh :: s.created }
  | completes (attempt : Nat) (client : ClientId)
      (before : s.calls call = .completing attempt client)
      (ok : (s.slot.complete client).1 = .ok ()) :
      CallMove s call { s.move call (.storing client) with
        slot := (s.slot.complete client).2, installed := client :: s.installed }
  /-- The guard ends without a connection. -/
  | ends {old : ReconnectPhase} (before : s.calls call = old) (phase : ReconnectPhase)
      (slot : ConnectionState) (guarded : old.guarded = true) (guarded' : phase.guarded = false)
      (owns : old.owns = true) (owns' : phase.owns = true) (clients : phase.clients = old.clients)
      (quiet : phase.quiet = true ∨ old.quiet = false)
      (emptied : phase.emptied = true → old.emptied = true)
      (ended : (∃ code, slot = s.slot.setFailure code) ∨ slot = s.slot.stop ∨
        slot = s.slot ∧ s.slot.state ≠ .reconnecting) :
      CallMove s call { s.move call phase with slot }
  | stores (client : ClientId) (before : s.calls call = .storing client) :
      CallMove s call { s.move call .reporting with client := some client }
  | releases (before : s.calls call = .returning) :
      CallMove s call { s.move call .returned with operation := none }

variable {s : System} {call : Nat}

theorem CallMove.moves {old : ReconnectPhase} (before : s.calls call = old) (phase : ReconnectPhase)
    (guarded : phase.guarded = old.guarded) (owns : phase.owns = old.owns)
    (clients : phase.clients = old.clients)
    (quiet : phase.quiet = true ∨ old.quiet = false ∨ s.cancelled = false)
    (emptied : phase.emptied = true → old.emptied = true ∨ s.client = none) :
    CallMove s call (s.move call phase) :=
  .passes before phase s.slot (.inl rfl) guarded owns clients quiet emptied

variable {t : System}

/-- Every step of a reconnect is of one of these kinds. -/
theorem callStep_cases {settings : RestartSettings} {answer : Answer}
    (step : s.callStep settings call answer = some t) : CallMove s call t := by
  rw [callStep] at step
  split at step <;> rename_i before
  · cases step
    split <;> exact .moves before _ rfl rfl rfl (.inl rfl) nofun
  · -- A reconnect begins, or is refused.
    have result := s.slot.beginReconnect_cases s.transport
    split at step <;> rename_i begin <;> cases step
    · have := CallMove.begins before (by rw [begin])
      rwa [begin] at this
    · refine .passes before _ _ (.inr (.inl ?_)) rfl rfl rfl (.inl rfl) nofun
      rw [begin] at result
      simpa using result
  · split at step <;> cases step
    exact .locks before ‹_›
  · cases step
    split
    · exact .moves before _ rfl rfl rfl (.inl rfl) nofun
    · exact .moves before _ rfl rfl rfl (.inr (.inr (Bool.not_eq_true _ ▸ ‹_›))) nofun
  · split at step <;> rename_i client <;> cases step
    · exact .takes _ before client
    · exact .moves before _ rfl rfl rfl (.inr (.inl rfl)) fun _ => .inr client
  · cases step
    exact .closes before _ _ rfl rfl rfl rfl
  · cases step
    split <;> exact .moves before _ rfl rfl rfl (.inr (.inl rfl)) fun _ => .inl rfl
  · split at step
    · cases step
      exact .moves before _ rfl rfl rfl (.inr (.inl rfl)) nofun
    · split at step <;> rename_i attempt <;> cases step <;>
        exact .passes before _ _ (.inr (.inr (by rw [attempt]))) rfl rfl rfl (.inr (.inl rfl))
          fun _ => .inl rfl
  · split at step <;> cases step
    · exact .moves before _ rfl rfl rfl (.inr (.inl rfl)) fun _ => .inl rfl
    · exact .creates _ before _ rfl rfl
    · exact .creates _ before _ rfl rfl
  · cases step
    exact .closes before _ _ rfl rfl rfl rfl
  · cases step
    split
    · exact .moves before _ rfl rfl rfl (.inr (.inl rfl)) nofun
    · split <;> exact .moves before _ rfl rfl rfl (.inr (.inl rfl)) fun _ => .inl rfl
  · cases step
    split
    · exact .moves before _ rfl rfl rfl (.inr (.inl rfl)) fun _ => .inl rfl
    · split <;> exact .moves before _ rfl rfl rfl (.inr (.inl rfl)) fun _ => .inl rfl
  · -- The guard completes, or is too late.
    split at step
    · cases step
      split <;> exact .moves before _ rfl rfl rfl (.inr (.inl rfl)) fun _ => .inl rfl
    · split at step <;> rename_i result <;> cases step
      · have := CallMove.completes _ _ before (by rw [result])
        rwa [result] at this
      · exact .ends before _ _ rfl rfl rfl rfl rfl (.inr rfl) (fun _ => rfl)
          (.inr (.inr (ConnectionState.complete_of_error result)))
  · cases step
    rename_i next
    cases next <;> exact .closes before _ _ rfl rfl rfl rfl
  · cases step
    split <;> exact .moves before _ rfl rfl rfl (.inr (.inl rfl)) fun _ => .inl rfl
  · cases step
    exact .stores _ before
  · cases step
    exact .passes before _ _ (.inr (.inl rfl)) rfl rfl rfl (.inl rfl) nofun
  · cases step
    exact .ends before _ _ rfl rfl rfl rfl rfl (.inl rfl) nofun (.inl ⟨_, rfl⟩)
  · cases step
    exact .ends before _ _ rfl rfl rfl rfl rfl (.inl rfl) nofun (.inr (.inl rfl))
  · cases step
    exact .releases before
  · cases step

/-! ### The invariant -/

open ReconnectPhase ConnectionState

/-- The slot agrees with the guards: at most one call has an active one. -/
def Guards (calls : Nat → ReconnectPhase) (slot : ConnectionState)
    (leases installed : List ClientId) : Prop :=
  ∃ holder : Option Nat, (∀ call, (calls call).guarded = true ↔ holder = some call) ∧
    slot.Agrees leases installed (holder.isSome = true)

/-- The operation lock is held by its owner only. -/
structure Locks (calls : Nat → ReconnectPhase) (operation : Option Owner)
    (shutdown : ShutdownPhase) : Prop where
  call : ∀ call, (calls call).owns = true ↔ operation = some (.reconnect call)
  shutdown : shutdown.owns = true ↔ operation = some .shutdown

/-- The shutdown stops the slot, and leaves no client behind. -/
structure Stops (cancelled : Bool) (shutdown : ShutdownPhase) (state : McpServerState)
    (calls : Nat → ReconnectPhase) (client : Option ClientId) : Prop where
  cancelled : shutdown = .idle ∨ cancelled = true
  stopped : shutdown.hasBegun = true → state = .stopped
  quiet : shutdown.hasLocked = true → ∀ call, (calls call).quiet = true
  taken : shutdown.hasTaken = true → client = none

/-- The clients that the owner of the operation lock holds. -/
def ownerClients (calls : Nat → ReconnectPhase) : Option Owner → List ClientId
  | some (.reconnect call) => (calls call).clients
  | _ => []

/-- Every client that was created is held once, or was shut down once. -/
structure Balances (closed created : List ClientId) (client : Option ClientId)
    (owned : List ClientId) (shutdown : ShutdownPhase) : Prop where
  balance : (closed ++ (client.toList ++ owned ++ shutdown.clients)).Perm created
  nodup : created.Nodup
  bounded : ∀ client ∈ created, client.value < created.length

theorem flag_move {calls : Nat → ReconnectPhase} {phase : ReconnectPhase}
    {f : ReconnectPhase → Bool} {Q : Nat → Prop} (here : f phase = true ↔ Q call)
    (others : ∀ other, other ≠ call → (f (calls other) = true ↔ Q other)) (other : Nat) :
    f (update calls call phase other) = true ↔ Q other :=
  (forall_update_iff calls fun other phase => f phase = true ↔ Q other).mpr
    ⟨here, others⟩ other

variable {calls : Nat → ReconnectPhase} {old : ReconnectPhase}

section Guards

variable {slot slot' : ConnectionState} {leases installed installed' : List ClientId}

theorem Guards.move (inv : Guards calls slot leases installed) (before : calls call = old)
    (guarded : phase.guarded = old.guarded)
    (agrees : ∀ active, slot.Agrees leases installed active →
      slot'.Agrees leases installed active) :
    Guards (update calls call phase) slot' leases installed := by
  obtain ⟨holder, unique, slotAgrees⟩ := inv
  refine ⟨holder, flag_move ?_ fun other _ => unique other, agrees _ slotAgrees⟩
  rw [guarded, ← before]
  exact unique call

theorem Guards.release (inv : Guards calls slot leases installed) (before : calls call = old)
    (guarded : old.guarded = true) (guarded' : phase.guarded = false)
    (agrees : slot.Agrees leases installed True → slot'.Agrees leases installed' False) :
    Guards (update calls call phase) slot' leases installed' := by
  obtain ⟨holder, unique, slotAgrees⟩ := inv
  have holds : holder = some call := (unique call).mp (before ▸ guarded)
  refine ⟨none, flag_move (by simp [guarded']) fun other ne => ?_, ?_⟩
  · rw [unique other, holds, Option.some.injEq]
    simp [ne.symm]
  · subst holds
    simpa using agrees (by simpa using slotAgrees)

theorem Guards.begin {transport : ClientId → TransportStatus}
    (inv : Guards calls slot leases installed)
    (ok : (slot.beginReconnect transport).1 = .ok ()) (guarded : phase.guarded = true) :
    Guards (update calls call phase) (slot.beginReconnect transport).2 leases
      installed := by
  obtain ⟨holder, unique, agrees⟩ := inv
  obtain ⟨empty, inactive, agrees'⟩ := agrees.beginReconnect ok
  have free : holder = none := by simpa using inactive
  refine ⟨some call, flag_move (by simp [guarded]) fun other ne => ?_, ?_⟩
  · rw [unique other, free]
    simp [ne.symm]
  · simpa using agrees'

end Guards

theorem Guards.callMove (inv : Guards s.calls s.slot s.leases s.installed)
    (step : CallMove s call t) :
    Guards t.calls t.slot t.leases t.installed := by
  cases step with
  | passes before phase slot steady guarded =>
    refine inv.move before guarded fun active agrees => ?_
    rcases steady with rfl | rfl | rfl
    · exact agrees
    · exact agrees.synchronize
    · exact agrees.recordAttempt
  | begins before ok => exact inv.begin ok rfl
  | locks before | takes client before | stores client before | releases before =>
    exact inv.move before rfl fun _ => id
  | closes before client phase _ _ guarded | creates attempt before phase _ guarded =>
    exact inv.move before guarded fun _ => id
  | completes attempt client before ok =>
    refine inv.release before rfl rfl fun agrees => ?_
    rcases agrees.complete trivial client with ⟨-, agrees'⟩ | ⟨failed, -⟩
    · exact agrees'
    · rw [ok] at failed
      cases failed
  | ends before phase slot guarded guarded' _ _ _ _ _ ended =>
    refine inv.release before guarded guarded' fun agrees => ?_
    rcases ended with ⟨code, rfl⟩ | rfl | ⟨rfl, late⟩
    · exact agrees.setFailure trivial code
    · exact agrees.stop
    · exact ⟨agrees.1, nofun, late, agrees.4, agrees.5, agrees.6⟩

theorem Locks.move {operation : Option Owner}
    {shutdown : ShutdownPhase} (inv : Locks calls operation shutdown)
    (before : calls call = old) (owns : phase.owns = old.owns) :
    Locks (update calls call phase) operation shutdown where
  call := flag_move (by rw [owns, ← before]; exact inv.call call) fun other _ => inv.call other
  shutdown := inv.shutdown

theorem Locks.callMove (inv : Locks s.calls s.operation s.shutdown) (step : CallMove s call t) :
    Locks t.calls t.operation t.shutdown := by
  cases step with
  | passes before phase slot _ _ owns => exact inv.move before owns
  | begins before ok | takes client before | completes attempt client before
  | stores client before => exact inv.move before rfl
  | locks before free =>
    refine ⟨flag_move (by simp [owns]) fun other ne => ?_, ?_⟩
    · rw [inv.call other, free]
      simp [ne.symm]
    · have idle := inv.shutdown
      rw [free] at idle
      simpa using idle
  | closes before client phase clients _ _ owns =>
    exact inv.move before (owns.trans (owns_of_emptied (emptied_of_clients clients)).symm)
  | creates attempt before phase clients => exact inv.move before (owns_of_emptied (emptied_of_clients clients))
  | ends before phase slot _ _ owns owns' => exact inv.move before (owns'.trans owns.symm)
  | releases before =>
    have owner : s.operation = some (.reconnect call) := (inv.call call).mp (before ▸ rfl)
    refine ⟨flag_move (by simp [owns]) fun other ne => ?_, ?_⟩
    · rw [inv.call other, owner]
      simp [ne.symm]
    · have idle := inv.shutdown
      rw [owner] at idle
      simpa using idle

variable {shutdown : ShutdownPhase} {client : Option ClientId}

section Stops

variable {cancelled : Bool} {state state' : McpServerState} {client' : Option ClientId}

theorem hasLocked_of_hasTaken (taken : shutdown.hasTaken = true) : shutdown.hasLocked = true := by
  cases shutdown <;> first | rfl | cases taken

theorem hasBegun_of_hasLocked (locked : shutdown.hasLocked = true) : shutdown.hasBegun = true := by
  cases shutdown <;> first | rfl | cases locked

theorem Stops.cancelled_of_ne (inv : Stops cancelled shutdown state calls client)
    (started : shutdown ≠ .idle) : cancelled = true :=
  inv.cancelled.resolve_left started

theorem Stops.advance (inv : Stops cancelled shutdown state calls client)
    (locked : shutdown.hasLocked = true) (shutdown' : ShutdownPhase) (taken : client' = none) :
    Stops cancelled shutdown' state calls client' where
  cancelled := .inr (inv.cancelled_of_ne (by rintro rfl; cases locked))
  stopped _ := inv.stopped (hasBegun_of_hasLocked locked)
  quiet _ := inv.quiet locked
  taken _ := taken

/-- A move that goes on quietly, or that no call makes once the shutdown had the lock. -/
theorem Stops.move (inv : Stops cancelled shutdown state calls client) (before : calls call = old)
    (quiet : phase.quiet = true ∨ old.quiet = false ∨ cancelled = false)
    (stopped : state = .stopped → state' = .stopped) (kept : client' = client ∨ old.quiet = false) :
    Stops cancelled shutdown state' (update calls call phase) client' where
  cancelled := inv.cancelled
  stopped begun := stopped (inv.stopped begun)
  quiet locked other := by
    have here : phase.quiet = true := by
      rcases quiet with quiet | busy | open'
      · exact quiet
      · rw [← before, inv.quiet locked call] at busy
        cases busy
      · rw [inv.cancelled_of_ne (by rintro rfl; cases locked)] at open'
        cases open'
    rw [update_apply]
    split
    · exact here
    · exact inv.quiet locked other
  taken taken := by
    rcases kept with rfl | busy
    · exact inv.taken taken
    · rw [← before, inv.quiet (hasLocked_of_hasTaken taken) call] at busy
      cases busy

end Stops

theorem CallMove.stopped (step : CallMove s call t) (stopped : s.slot.state = .stopped) :
    t.slot.state = .stopped := by
  cases step with
  | passes before phase slot steady =>
    rcases steady with rfl | rfl | rfl
    · exact stopped
    · rwa [synchronize_of_stopped s.transport stopped]
    · rwa [state_recordAttempt]
  | begins before ok =>
    rw [beginReconnect_of_stopped s.transport stopped] at ok
    cases ok
  | completes attempt client before ok =>
    rw [complete_of_stopped stopped] at ok
    cases ok
  | ends before phase slot _ _ _ _ _ _ _ ended =>
    rcases ended with ⟨code, rfl⟩ | rfl | ⟨rfl, -⟩
    · rwa [setFailure_of_stopped stopped]
    · rfl
    · exact stopped
  | locks | takes | closes | creates | stores | releases => exact stopped

theorem Stops.callMove (inv : Stops s.cancelled s.shutdown s.slot.state s.calls s.client)
    (step : CallMove s call t) :
    Stops t.cancelled t.shutdown t.slot.state t.calls t.client := by
  have stopped := step.stopped
  cases step with
  | passes before phase slot _ _ _ _ quiet => exact inv.move before quiet stopped (.inl rfl)
  | begins before | locks before | releases before =>
    exact inv.move before (.inl rfl) stopped (.inl rfl)
  | takes client before | stores client before =>
    exact inv.move before (.inr (.inl rfl)) stopped (.inr rfl)
  | closes before client phase clients =>
    exact inv.move before (.inr (.inl (quiet_of_emptied
      (emptied_of_clients clients)))) stopped (.inl rfl)
  | creates attempt before phase | completes attempt client before =>
    exact inv.move before (.inr (.inl rfl)) stopped (.inl rfl)
  | ends before phase slot _ _ _ _ _ quiet =>
    exact inv.move before (quiet.imp_right .inl) stopped (.inl rfl)

/-- While a call is between taking the old client and storing a new one, there is none. -/
def Empties (calls : Nat → ReconnectPhase) (client : Option ClientId) : Prop :=
  ∀ call, (calls call).emptied = true → client = none

/-- A move of a call that has the old client taken already, or takes it. -/
theorem Empties.move (inv : Empties calls client) (before : calls call = old)
    (emptied : phase.emptied = true → old.emptied = true ∨ client = none) :
    Empties (update calls call phase) client := by
  intro other here
  rw [update_apply] at here
  split at here
  · exact (emptied here).elim (fun empty => inv call (before ▸ empty)) id
  · exact inv other here

theorem Empties.callMove (inv : Empties s.calls s.client)
    (locks : Locks s.calls s.operation s.shutdown) (step : CallMove s call t) :
    Empties t.calls t.client := by
  cases step with
  | passes before phase slot _ _ _ _ _ emptied => exact inv.move before emptied
  | begins before | locks before | releases before => exact inv.move before nofun
  | takes client before => exact fun _ _ => rfl
  | closes before client phase clients =>
    exact inv.move before fun _ => .inl (emptied_of_clients clients)
  | creates attempt before phase | completes attempt client before =>
    exact inv.move before fun _ => .inl rfl
  | ends before phase slot _ _ _ _ _ _ emptied =>
    exact inv.move before fun here => .inl (emptied here)
  | stores client before =>
    -- No other call is between the two, because this one holds the lock.
    have owner : s.operation = some (.reconnect call) := (locks.call call).mp (before ▸ rfl)
    intro other here
    rw [show (s.move call .reporting).calls other = _ from update_apply ..] at here
    split at here
    · cases here
    · have other' := (locks.call other).mp (owns_of_emptied here)
      rw [owner] at other'
      cases other'
      contradiction

section Balances

variable {operation : Option Owner}

theorem ownerClients_move (owner : operation = some (.reconnect call)) :
    ownerClients (update calls call phase) operation = phase.clients := by
  rw [owner, ownerClients, update_self]

theorem ownerClients_move_other (other : operation ≠ some (.reconnect call)) :
    ownerClients (update calls call phase) operation = ownerClients calls operation := by
  match operation with
  | none => rfl
  | some .shutdown => rfl
  | some (.reconnect owner) =>
    rw [ownerClients, ownerClients, update_of_ne]
    rintro rfl
    exact other rfl

theorem ownerClients_move_same (before : calls call = old) (clients : phase.clients = old.clients) :
    ownerClients (update calls call phase) operation = ownerClients calls operation := by
  by_cases owner : operation = some (.reconnect call)
  · rw [ownerClients_move owner, owner, ownerClients, before, clients]
  · exact ownerClients_move_other owner

variable {closed created : List ClientId} {owned : List ClientId} {id : ClientId}

theorem perm_insert (front middle back : List ClientId) (id : ClientId) :
    (front ++ (middle ++ [id] ++ back)).Perm (id :: front ++ (middle ++ [] ++ back)) := by
  simpa using @List.perm_middle _ id (front ++ middle) back

theorem Balances.close (inv : Balances closed created client [id] shutdown) :
    Balances (id :: closed) created client [] shutdown where
  balance := (perm_insert ..).symm.trans inv.balance
  nodup := inv.nodup
  bounded := inv.bounded

theorem Balances.create (inv : Balances closed created client [] shutdown)
    (new : id.value = created.length) :
    Balances closed (id :: created) client [id] shutdown where
  balance := (perm_insert ..).trans (inv.balance.cons id)
  nodup := by
    refine List.nodup_cons.mpr ⟨fun mem => ?_, inv.nodup⟩
    exact absurd (inv.bounded id mem) (by omega)
  bounded other mem := by
    rw [List.length_cons]
    rcases List.mem_cons.mp mem with rfl | mem
    · omega
    · exact Nat.lt_succ_of_lt (inv.bounded other mem)

end Balances

theorem Balances.callMove
    (inv : Balances s.closed s.created s.client (ownerClients s.calls s.operation) s.shutdown)
    (locks : Locks s.calls s.operation s.shutdown) (empties : Empties s.calls s.client)
    (step : CallMove s call t) :
    Balances t.closed t.created t.client (ownerClients t.calls t.operation) t.shutdown := by
  have same {old phase : ReconnectPhase} (before : s.calls call = old)
      (clients : phase.clients = old.clients) :
      Balances s.closed s.created s.client
        (ownerClients (update s.calls call phase) s.operation) s.shutdown := by
    rwa [ownerClients_move_same before clients]
  -- The clients of a call that holds the lock.
  have owned {old : ReconnectPhase} (before : s.calls call = old) (owns : old.owns = true) :
      Balances s.closed s.created s.client old.clients s.shutdown ∧ ∀ phase,
        ownerClients (update s.calls call phase) s.operation = phase.clients := by
    have owner := (locks.call call).mp (before ▸ owns)
    rw [owner, ownerClients, before] at inv
    exact ⟨inv, fun phase => ownerClients_move owner⟩
  cases step with
  | passes before phase slot _ _ _ clients | ends before phase slot _ _ _ _ clients =>
    exact same before clients
  | begins before | completes attempt client before => exact same before rfl
  | locks before free =>
    rw [free] at inv
    have moved : Balances s.closed s.created s.client (ReconnectPhase.locked).clients s.shutdown :=
      inv
    have clients : ownerClients (update s.calls call .locked)
        (some (.reconnect call)) = _ := ownerClients_move rfl
    rw [← clients] at moved
    exact moved
  | takes client before taken =>
    obtain ⟨balance, clients⟩ := owned before rfl
    have moved : Balances s.closed s.created none (ReconnectPhase.closing client).clients
        s.shutdown := by
      rw [taken] at balance
      exact ⟨balance.1, balance.2, balance.3⟩
    rw [← clients] at moved
    exact moved
  | closes before client phase holds none =>
    obtain ⟨balance, clients⟩ := owned before
      (owns_of_emptied (emptied_of_clients holds))
    rw [holds] at balance
    have moved := balance.close
    rw [← none, ← clients] at moved
    exact moved
  | creates attempt before phase holds =>
    obtain ⟨balance, clients⟩ := owned before rfl
    have moved : Balances _ (s.fresh :: _) _ _ _ := balance.create rfl
    rw [← holds, ← clients] at moved
    exact moved
  | stores client before =>
    obtain ⟨balance, clients⟩ := owned before rfl
    have empty : s.client = none := empties call (before ▸ rfl)
    have moved : Balances s.closed s.created (some client) ReconnectPhase.reporting.clients
        s.shutdown := by
      rw [empty] at balance
      exact ⟨balance.1, balance.2, balance.3⟩
    rw [← clients] at moved
    exact moved
  | releases before => exact (owned before rfl).1

/-! ### Every run -/

/-- The invariant of the system. -/
structure Inv (s : System) : Prop where
  guards : Guards s.calls s.slot s.leases s.installed
  locks : Locks s.calls s.operation s.shutdown
  stops : Stops s.cancelled s.shutdown s.slot.state s.calls s.client
  empties : Empties s.calls s.client
  balances : Balances s.closed s.created s.client (ownerClients s.calls s.operation) s.shutdown

theorem inv_ready (transport : ClientId → TransportStatus) : (ready transport).Inv where
  guards := ⟨none, by simp [ready, guarded], rfl, nofun, nofun, nofun,
    fun _ => rfl, nofun⟩
  locks := ⟨by simp [ready, owns], by simp [ready, ShutdownPhase.owns]⟩
  stops := ⟨.inl rfl, nofun, nofun, nofun⟩
  empties := nofun
  balances := ⟨.refl _, by simp [ready], by simp [ready]⟩

theorem inv_unhealthy (transport : ClientId → TransportStatus) (code : McpErrorCode) :
    (unhealthy transport code).Inv where
  guards := ⟨none, by simp [unhealthy, guarded], rfl, nofun, nofun, nofun, nofun,
    nofun⟩
  locks := ⟨by simp [unhealthy, owns], by simp [unhealthy, ShutdownPhase.owns]⟩
  stops := ⟨.inl rfl, nofun, nofun, nofun⟩
  empties := nofun
  balances := ⟨.refl _, by simp [unhealthy], by simp [unhealthy]⟩

theorem Inv.callMove (inv : s.Inv) (step : CallMove s call t) : t.Inv where
  guards := inv.guards.callMove step
  locks := inv.locks.callMove step
  stops := inv.stops.callMove step
  empties := inv.empties.callMove inv.locks step
  balances := inv.balances.callMove inv.locks inv.empties step

theorem Inv.slotStep (inv : s.Inv) {slot : ConnectionState} {leases : List ClientId}
    (agrees : ∀ active, s.slot.Agrees s.leases s.installed active →
      slot.Agrees leases s.installed active)
    (stopped : s.slot.state = .stopped → slot.state = .stopped) :
    Inv { s with slot, leases } where
  guards := inv.guards.imp fun _ => And.imp_right (agrees _)
  locks := inv.locks
  stops := ⟨inv.stops.cancelled, fun begun => stopped (inv.stops.stopped begun), inv.stops.quiet,
    inv.stops.taken⟩
  empties := inv.empties
  balances := inv.balances

theorem Inv.synchronize (inv : s.Inv) : Inv { s with slot := s.slot.synchronize s.transport } :=
  inv.slotStep (fun _ agrees => agrees.synchronize) fun stopped => by
    rwa [synchronize_of_stopped s.transport stopped]

theorem Inv.shutdownStep (inv : s.Inv) (step : s.shutdownStep = some t) : t.Inv := by
  obtain ⟨guards, locks, stops, empties, balances⟩ := inv
  rw [System.shutdownStep] at step
  split at step <;> rename_i phase <;> rw [phase] at locks balances stops
  · -- The token is cancelled.
    cases step
    exact ⟨guards, ⟨locks.1, locks.2⟩, ⟨.inr rfl, nofun, nofun, nofun⟩, empties,
      ⟨balances.1, balances.2, balances.3⟩⟩
  · -- The slot is stopped.
    cases step
    exact ⟨guards.imp fun _ => And.imp_right fun agrees => agrees.beginShutdown,
      ⟨locks.1, locks.2⟩, ⟨.inr (stops.cancelled_of_ne nofun), fun _ => rfl, nofun, nofun⟩, empties,
      ⟨balances.1, balances.2, balances.3⟩⟩
  · -- The lock is free, so that all calls are quiet.
    split at step <;> cases step
    rename_i free
    rw [free] at locks balances
    have free' (call) : (s.calls call).owns = false := by
      rw [← Bool.not_eq_true, locks.call call]
      nofun
    refine ⟨guards, ⟨fun call => ?_, by simp [ShutdownPhase.owns]⟩,
      ⟨.inr (stops.cancelled_of_ne nofun), fun _ => stops.stopped rfl,
        fun _ call => quiet_of_not_owns (free' call), nofun⟩, empties,
      ⟨balances.1, balances.2, balances.3⟩⟩
    rw [free' call]
    simp
  · -- The client goes to the task.
    cases step
    have owner : s.operation = some .shutdown := locks.shutdown.mp rfl
    refine ⟨guards, ⟨locks.1, by simp [ShutdownPhase.owns, owner]⟩, stops.advance rfl _ rfl,
      fun _ _ => rfl, ?_, balances.2, balances.3⟩
    have balance := balances.1
    rw [owner] at balance ⊢
    cases taken : s.client with
    | none | some client => rwa [taken] at balance
  · -- The lock is released.
    cases step
    have owner : s.operation = some .shutdown := locks.shutdown.mp rfl
    rw [owner] at locks balances
    refine ⟨guards, ⟨fun call => ?_, by simp [ShutdownPhase.owns]⟩,
      stops.advance rfl _ (stops.taken rfl), empties, ⟨balances.1, balances.2, balances.3⟩⟩
    have free := locks.call call
    simpa using free
  · cases step
    exact ⟨guards, ⟨locks.1, locks.2⟩, stops.advance rfl _ (stops.taken rfl), empties,
      ⟨balances.1, balances.2, balances.3⟩⟩
  · cases step
  · cases step

theorem Inv.taskStep (inv : s.Inv) {timedOut : Bool} (step : s.taskStep timedOut = some t) :
    t.Inv := by
  obtain ⟨guards, locks, stops, empties, balances⟩ := inv
  rw [System.taskStep] at step
  split at step <;> rename_i phase
  · rename_i released client
    rw [phase] at locks balances stops
    cases step
    refine ⟨guards, ?_, stops.advance rfl _ (stops.taken rfl), empties, ?_, balances.2, balances.3⟩
    · cases released <;> exact ⟨locks.1, locks.2⟩
    · refine .trans ?_ balances.1
      simpa [ShutdownPhase.clients, ShutdownTask.clients] using (List.perm_append_singleton client
        (s.closed ++ (s.client.toList ++ ownerClients s.calls s.operation))).symm
  · rename_i released
    rw [phase] at locks balances stops
    split at step
    · cases step
      refine ⟨guards, ?_, stops.advance rfl _ (stops.taken rfl), empties,
        ⟨balances.1, balances.2, balances.3⟩⟩
      cases released <;> exact ⟨locks.1, locks.2⟩
    · split at step <;> cases step
      refine ⟨guards, ?_, stops.advance rfl _ (stops.taken rfl), empties,
        ⟨balances.1, balances.2, balances.3⟩⟩
      cases released <;> exact ⟨locks.1, locks.2⟩
  · cases step

variable {settings : RestartSettings} {action : Action}

theorem Inv.step (inv : s.Inv) (step : s.step settings action = some t) : t.Inv := by
  cases action with
  | acquireCall =>
    rw [System.step] at step
    split at step <;> rename_i acquired <;> cases step
    · refine inv.slotStep (fun active agrees => agrees.acquireCall acquired) fun stopped => ?_
      rw [acquireCall_of_stopped s.transport stopped] at acquired
      cases acquired
    · rw [acquireCall_of_error s.transport acquired]
      exact inv.synchronize
  | dropLease index =>
    rw [System.step] at step
    split at step <;> cases step
    exact inv.slotStep (fun _ agrees => agrees.dropLease index ‹_›) id
  | transport client status =>
    cases step
    exact ⟨inv.1, inv.2, inv.3, inv.4, inv.5⟩
  | health =>
    cases step
    exact inv.synchronize
  | reconnect call answer => exact inv.callMove (callStep_cases step)
  | shutdown => exact inv.shutdownStep step
  | shutdownTask timedOut => exact inv.taskStep step

theorem stays_of_step (step : s.step settings action = some t) :
    (s.slot.state = .stopped → t.slot.state = .stopped) ∧
      (s.shutdown = .returned → t.shutdown = .returned) := by
  cases action with
  | acquireCall =>
    rw [System.step] at step
    split at step <;> rename_i acquired <;> cases step
    · refine ⟨fun stopped => ?_, id⟩
      rw [acquireCall_of_stopped s.transport stopped] at acquired
      cases acquired
    · refine ⟨fun stopped => ?_, id⟩
      rw [acquireCall_of_stopped s.transport stopped] at acquired
      cases acquired
      exact stopped
  | dropLease index =>
    rw [System.step] at step
    split at step <;> cases step
    exact ⟨id, id⟩
  | transport client status =>
    cases step
    exact ⟨id, id⟩
  | health =>
    cases step
    refine ⟨fun stopped => ?_, id⟩
    rwa [synchronize_of_stopped s.transport stopped]
  | reconnect call answer =>
    have move := callStep_cases step
    refine ⟨move.stopped, fun returned => ?_⟩
    cases move <;> exact returned
  | shutdown =>
    rw [System.step, System.shutdownStep] at step
    split at step <;> rename_i phase
    · cases step
      exact ⟨id, by simp [phase]⟩
    · cases step
      exact ⟨fun _ => rfl, by simp [phase]⟩
    · split at step <;> cases step
      exact ⟨id, by simp [phase]⟩
    · cases step
      exact ⟨id, by simp [phase]⟩
    · cases step
      exact ⟨id, by simp [phase]⟩
    · cases step
      exact ⟨id, fun _ => rfl⟩
    · cases step
    · cases step
  | shutdownTask timedOut =>
    rw [System.step, System.taskStep] at step
    split at step <;> rename_i phase
    · cases step
      exact ⟨id, by simp [phase]⟩
    · split at step
      · cases step
        exact ⟨id, by simp [phase]⟩
      · split at step <;> cases step
        exact ⟨id, by simp [phase]⟩
    · cases step

/-- What holds in every state that is reached. -/
structure Managed (settings : RestartSettings) (s : System) : Prop where
  /-- The number of calls in flight is the number of live leases. -/
  inFlight : s.slot.inFlight = s.leases.length
  /-- At most one call has an active guard. -/
  guard : ∀ call other, (s.calls call).guarded = true → (s.calls other).guarded = true →
    call = other
  /-- The slot is reconnecting only while a guard is active. -/
  reconnecting : s.slot.state = .reconnecting → ∃ call, (s.calls call).guarded = true
  /-- A guard becomes active only when no lease is live. -/
  begins : ∀ call answer t, s.callStep settings call answer = some t →
    (s.calls call).guarded = false → (t.calls call).guarded = true → s.leases = []
  /-- A lease carries the connection that was installed last. -/
  latest : ∀ lease ∈ s.leases, s.installed.head? = some lease
  /-- Every change of the state is permitted. -/
  changes : ∀ change ∈ s.slot.changes,
    change.1 = change.2 ∨ change.1.canTransitionTo change.2 = true
  /-- No call is admitted after the shutdown began. -/
  refuses : s.shutdown.hasBegun = true →
    ∀ connection, (s.slot.acquireCall s.transport).1 ≠ .ok connection
  /-- When the shutdown has returned, no client is left, and every client was shut down once. -/
  returned : s.shutdown = .returned →
    s.client = none ∧ ∀ client ∈ s.created, s.closed.count client = 1

theorem Inv.leases_of_begin (inv : s.Inv) (step : CallMove s call t)
    (before : (s.calls call).guarded = false) (after : (t.calls call).guarded = true) :
    s.leases = [] := by
  -- Any other step keeps the guard of its call, or ends it.
  have kept {old phase : ReconnectPhase} (here : s.calls call = old)
      (after : (update s.calls call phase call).guarded = true)
      (guarded : phase.guarded = old.guarded) : s.leases = [] := by
    rw [update_self, guarded, ← here, before] at after
    cases after
  cases step with
  | passes here phase slot _ guarded | closes here client phase _ _ guarded
  | creates attempt here phase _ guarded => exact kept here after guarded
  | begins here ok =>
    obtain ⟨holder, unique, agrees⟩ := inv.guards
    exact (agrees.beginReconnect ok).1
  | locks here | takes client here | stores client here | releases here => exact kept here after rfl
  | completes attempt client here => rw [here] at before; cases before
  | ends here phase slot guarded => rw [here, guarded] at before; cases before

theorem Inv.managed (inv : s.Inv) (settings : RestartSettings) : s.Managed settings := by
  obtain ⟨holder, unique, agrees⟩ := inv.guards
  refine {
    inFlight := agrees.inFlight
    guard := fun call other one two => ?_
    reconnecting := fun state => ?_
    begins := fun call answer t step => inv.leases_of_begin (callStep_cases step)
    latest := agrees.latest
    changes := agrees.changes
    refuses := fun begun connection => ?_
    returned := fun returned => ?_ }
  · have one := (unique call).mp one
    rw [(unique other).mp two] at one
    exact (Option.some.inj one).symm
  · obtain ⟨call, holds⟩ := Option.isSome_iff_exists.mp (agrees.reconnecting state)
    exact ⟨call, (unique call).mpr holds⟩
  · rw [acquireCall_of_stopped s.transport (inv.stops.stopped begun)]
    simp
  · have empty : s.client = none := inv.stops.taken (by rw [returned]; rfl)
    have owned : ownerClients s.calls s.operation = [] := by
      match s.operation with
      | none => rfl
      | some .shutdown => rfl
      | some (.reconnect call) =>
        exact clients_of_quiet (inv.stops.quiet (by rw [returned]; rfl) call)
    have balance := inv.balances.balance
    rw [empty, owned, returned, show ShutdownPhase.returned.clients = [] from rfl] at balance
    refine ⟨empty, fun client mem => ?_⟩
    have count := balance.count_eq client
    rw [List.count_eq_one_of_mem inv.balances.nodup mem] at count
    simpa using count

/-- The steps of the system as a relation. -/
def Steps (settings : RestartSettings) (s : System) (action : Action) (t : System) : Prop :=
  s.step settings action = some t

/-- A server as `McpManager::start` leaves it. -/
def Starts (s : System) : Prop :=
  (∃ transport, s = ready transport) ∨ ∃ transport code, s = unhealthy transport code

/-- Every run of a managed server keeps its lifecycle: in every state that is reached the promises
of `Managed` hold, and a slot that is stopped stays so. After the shutdown has returned there is
never a client again, and each one that was created was shut down once. -/
theorem lifecycle {settings : RestartSettings} {start s : System} {actions : List Action}
    (starts : start.Starts) (run : Run (Steps settings) start actions s) :
    s.Managed settings ∧ ∀ later t, Run (Steps settings) s later t →
      (s.slot.state = .stopped → t.slot.state = .stopped) ∧
      (s.shutdown = .returned →
        t.client = none ∧ ∀ client ∈ t.created, t.closed.count client = 1) := by
  have initial : start.Inv := by
    rcases starts with ⟨transport, rfl⟩ | ⟨transport, code, rfl⟩
    · exact inv_ready transport
    · exact inv_unhealthy transport code
  have inv : s.Inv := run.invariant initial fun _ _ _ inv step => inv.step step
  refine ⟨inv.managed settings, fun later t run => ?_⟩
  have inv' : t.Inv := run.invariant inv fun _ _ _ inv step => inv.step step
  refine ⟨fun stopped => ?_, fun returned => (inv'.managed settings).returned ?_⟩
  · exact run.invariant stopped fun _ _ _ stopped step => (stays_of_step step).1 stopped
  · exact run.invariant returned fun _ _ _ returned step => (stays_of_step step).2 returned

/-- Execute a list of actions. -/
def execute (settings : RestartSettings) (s : System) (actions : List Action) : Option System :=
  actions.foldlM (step settings) s

theorem run_of_execute {actions : List Action}
    (done : s.execute settings actions = some t) : Run (Steps settings) s actions t :=
  Run.foldlM_iff.mpr done

/-- A connection that fails, a reconnect, and a shutdown while a call is in flight. -/
def reconnected : Option System :=
  execute ⟨true, true, 2⟩ (ready fun _ => ⟨none, false⟩)
    ([.acquireCall, .dropLease 0, .transport ⟨0⟩ ⟨some .serverExit, false⟩] ++
      List.replicate 14 (.reconnect 0 ⟨.succeeded true, none⟩) ++
      [.acquireCall, .shutdown, .shutdown, .shutdown, .shutdown, .shutdownTask false, .shutdown,
        .shutdownTask true, .shutdown])

theorem lifecycle_reconnected : reconnected.map (fun s => (s.created, s.closed, s.leases)) =
        some ([⟨1⟩, ⟨0⟩], [⟨1⟩, ⟨0⟩], [⟨1⟩]) ∧
      ∃ s, reconnected = some s ∧ s.Managed ⟨true, true, 2⟩ := by
  refine ⟨by decide +kernel, ?_⟩
  have some' : reconnected.isSome = true := by decide +kernel
  obtain ⟨s, done⟩ := Option.isSome_iff_exists.mp some'
  exact ⟨s, done, (lifecycle (.inl ⟨_, rfl⟩) (run_of_execute done)).1⟩

end System

end TeaRs.Mcp
