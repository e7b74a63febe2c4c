import Mathlib

/-!
# The connection slot of a managed MCP server

The slot holds the lifecycle state of one server, its connection and the number of calls in flight
(`tea-mcp/src/reconnect.rs`). Every method takes the lock of the slot once, so it is one function on
the state.

## Main definitions

* `McpServerState`, `McpServerState.canTransitionTo`.
* `ConnectionState`: the state of the slot. It remembers the changes of the lifecycle state.
* `ConnectionState.synchronize`, `ConnectionState.acquireCall`, `ConnectionState.dropLease`,
  `ConnectionState.beginReconnect`, `ConnectionState.beginShutdown`: the methods of the slot.
* `ConnectionState.recordAttempt`, `ConnectionState.complete`, `ConnectionState.setFailure`,
  `ConnectionState.stop`: the methods of a reconnect guard.

## Main results

* `ConnectionState.synchronize_cases`, `ConnectionState.of_beginReconnect`,
  `ConnectionState.complete_eq_ok`: what the methods do.
-/

namespace TeaRs.Mcp

/-- `McpErrorCode`. -/
inductive McpErrorCode where
  | configuration | startup | handshake | descriptor | identity | schema | policyDeclaration
  | transport | protocol | execution | invalidResult | timeout | cancellation | staleCatalog
  | unavailable | outputBound | serverExit | shutdown
  deriving DecidableEq, Repr

/-- `McpServerState`. -/
inductive McpServerState where
  | configured | starting | ready | stale | unhealthy | reconnecting | stopped
  deriving DecidableEq, Repr

/-- `McpServerState::can_transition_to`. -/
def McpServerState.canTransitionTo : McpServerState → McpServerState → Bool
  | configured, starting | configured, stopped => true
  | starting, ready | starting, unhealthy | starting, stopped => true
  | reconnecting, ready | reconnecting, unhealthy | reconnecting, stopped => true
  | ready, stale | ready, unhealthy | ready, stopped => true
  | stale, reconnecting | stale, stopped => true
  | unhealthy, reconnecting | unhealthy, stopped => true
  | _, _ => false

theorem McpServerState.canTransitionTo_stopped (state : McpServerState) :
    state = stopped ∨ state.canTransitionTo stopped = true := by
  cases state <;> decide

/-- A client, and the execution handle of its connection. -/
structure ClientId where
  value : Nat
  deriving DecidableEq, Repr

/-- What the transport of a connection tells of it: `failure_code` and `catalog_stale`. -/
structure TransportStatus where
  failureCode : Option McpErrorCode
  catalogStale : Bool
  deriving DecidableEq, Repr

/-- `ConnectionState`, with the changes of its lifecycle state so far. -/
structure ConnectionState where
  state : McpServerState
  code : Option McpErrorCode
  connection : Option ClientId
  inFlight : Nat
  restartCount : Nat
  changes : List (McpServerState × McpServerState)
  deriving DecidableEq, Repr

/-- `MAX_MCP_RESTART_COUNT`. -/
def maxMcpRestartCount : Nat := 1024

namespace ConnectionState

variable (transport : ClientId → TransportStatus)

/-- `McpConnectionSlot::ready`. -/
def ready (connection : ClientId) : ConnectionState :=
  ⟨.ready, none, some connection, 0, 0, []⟩

/-- `McpConnectionSlot::unhealthy`. -/
def unhealthy (code : McpErrorCode) : ConnectionState :=
  ⟨.unhealthy, some code, none, 0, 0, []⟩

/-- Assign the lifecycle state and the code. -/
def assign (slot : ConnectionState) (state : McpServerState) (code : Option McpErrorCode) :
    ConnectionState :=
  { slot with state, code, changes := (slot.state, state) :: slot.changes }

/-- `synchronize`. -/
def synchronize (slot : ConnectionState) : ConnectionState :=
  if slot.state ≠ .ready then slot
  else
    match slot.connection with
    | none => slot.assign .unhealthy (some .unavailable)
    | some connection =>
      match (transport connection).failureCode with
      | some code => slot.assign .unhealthy (some code)
      | none =>
        if (transport connection).catalogStale then slot.assign .stale (some .staleCatalog)
        else slot

/-- `McpConnectionSlot::acquire_call`. The result is the connection of the lease. -/
def acquireCall (slot : ConnectionState) : Except McpErrorCode ClientId × ConnectionState :=
  let slot := slot.synchronize transport
  if slot.state ≠ .ready then
    (.error (if slot.state = .stale then .staleCatalog else .unavailable), slot)
  else
    match slot.connection with
    | none => (.error .unavailable, slot)
    | some connection =>
      if slot.inFlight + 1 < 2 ^ 64 then
        (.ok connection, { slot with inFlight := slot.inFlight + 1 })
      else (.error .outputBound, slot)

/-- Dropping a `McpConnectionLease`. -/
def dropLease (slot : ConnectionState) : ConnectionState :=
  { slot with inFlight := slot.inFlight - 1 }

/-- `McpConnectionSlot::begin_reconnect`. -/
def beginReconnect (slot : ConnectionState) : Except McpErrorCode Unit × ConnectionState :=
  let slot := slot.synchronize transport
  if slot.inFlight ≠ 0 ∨ ¬(slot.state = .stale ∨ slot.state = .unhealthy) then
    (.error .unavailable, slot)
  else (.ok (), { slot.assign .reconnecting none with connection := none })

/-- `McpConnectionSlot::begin_shutdown`. -/
def beginShutdown (slot : ConnectionState) : ConnectionState :=
  { slot.assign .stopped none with connection := none }

/-- `McpReconnectGuard::record_attempt`. -/
def recordAttempt (slot : ConnectionState) : Except McpErrorCode Unit × ConnectionState :=
  if maxMcpRestartCount ≤ slot.restartCount then (.error .outputBound, slot)
  else (.ok (), { slot with restartCount := slot.restartCount + 1 })

/-- `McpReconnectGuard::complete`. -/
def complete (slot : ConnectionState) (connection : ClientId) :
    Except McpErrorCode Unit × ConnectionState :=
  if slot.state ≠ .reconnecting then (.error .cancellation, slot)
  else (.ok (), { slot.assign .ready none with connection := some connection })

/-- `McpReconnectGuard::set_failure`, which `fail` and dropping an active guard call. -/
def setFailure (slot : ConnectionState) (code : McpErrorCode) : ConnectionState :=
  if slot.state = .stopped then slot
  else { slot.assign .unhealthy (some code) with connection := none }

/-- `McpReconnectGuard::stop`. -/
def stop (slot : ConnectionState) : ConnectionState :=
  { slot.assign .stopped none with connection := none }

/-! ### The invariant of the slot -/

/-- Synchronizing leaves the slot, or finds a ready connection stale or failed. -/
theorem synchronize_cases (slot : ConnectionState) : slot.synchronize transport = slot ∨
    slot.state = .ready ∧ ∃ state code, (state = .stale ∨ state = .unhealthy) ∧
      slot.synchronize transport = slot.assign state code := by
  rw [synchronize]
  split
  · exact .inl rfl
  · rename_i isReady
    have isReady : slot.state = .ready := not_not.mp isReady
    split
    · exact .inr ⟨isReady, _, _, .inr rfl, rfl⟩
    · split
      · exact .inr ⟨isReady, _, _, .inr rfl, rfl⟩
      · split
        · exact .inr ⟨isReady, _, _, .inl rfl, rfl⟩
        · exact .inl rfl

variable {slot : ConnectionState}

theorem acquireCall_of_error {slot' : ConnectionState} {code : McpErrorCode}
    (refused : slot.acquireCall transport = (.error code, slot')) :
    slot' = slot.synchronize transport := by
  rw [acquireCall] at refused
  split at refused
  · cases refused
    rfl
  · split at refused
    · cases refused
      rfl
    · split at refused
      · cases refused
      · cases refused
        rfl

theorem beginReconnect_cases (slot : ConnectionState) : (slot.beginReconnect transport).1 = .ok () ∨
      (slot.beginReconnect transport).2 = slot.synchronize transport := by
  rw [beginReconnect]
  split
  · exact .inr rfl
  · exact .inl rfl

theorem complete_of_error {slot' : ConnectionState} {connection : ClientId} {code : McpErrorCode}
    (late : slot.complete connection = (.error code, slot')) :
    slot' = slot ∧ slot.state ≠ .reconnecting := by
  rw [complete] at late
  split at late
  · cases late
    exact ⟨rfl, ‹_›⟩
  · cases late

variable (stopped : slot.state = .stopped)

include stopped

theorem synchronize_of_stopped : slot.synchronize transport = slot := by
  rw [synchronize, if_pos (by simp [stopped])]

theorem acquireCall_of_stopped : slot.acquireCall transport = (.error .unavailable, slot) := by
  simp [acquireCall, synchronize_of_stopped transport stopped, stopped]

theorem beginReconnect_of_stopped :
    slot.beginReconnect transport = (.error .unavailable, slot) := by
  simp [beginReconnect, synchronize_of_stopped transport stopped, stopped]

theorem complete_of_stopped (connection : ClientId) :
    slot.complete connection = (.error .cancellation, slot) := by
  simp [complete, stopped]

theorem setFailure_of_stopped (code : McpErrorCode) : slot.setFailure code = slot := by
  rw [setFailure, if_pos stopped]

omit stopped

theorem state_recordAttempt (slot : ConnectionState) : slot.recordAttempt.2.state = slot.state := by
  rw [recordAttempt]
  split <;> rfl

/-- The slot agrees with the live leases, the connections installed so far (the latest first) and
whether a reconnect guard is active. -/
structure Agrees (slot : ConnectionState) (leases installed : List ClientId) (active : Prop) :
    Prop where
  inFlight : slot.inFlight = leases.length
  guard : active → (slot.state = .reconnecting ∨ slot.state = .stopped) ∧ leases = []
  reconnecting : slot.state = .reconnecting → active
  latest : ∀ lease ∈ leases, installed.head? = some lease
  ready : slot.state = .ready → slot.connection = installed.head?
  changes : ∀ change ∈ slot.changes, change.1 = change.2 ∨ change.1.canTransitionTo change.2 = true

namespace Agrees

variable {transport} {leases installed : List ClientId} {active : Prop}

variable (agrees : slot.Agrees leases installed active)

include agrees

theorem assign {active' : Prop}
    {installed' : List ClientId} (state : McpServerState) (code : Option McpErrorCode)
    (connection : Option ClientId)
    (permitted : slot.state = state ∨ slot.state.canTransitionTo state = true)
    (guard : active' → (state = .reconnecting ∨ state = .stopped) ∧ leases = [])
    (reconnecting : state = .reconnecting → active')
    (latest : ∀ lease ∈ leases, installed'.head? = some lease)
    (ready : state = .ready → connection = installed'.head?) :
    Agrees { slot.assign state code with connection } leases installed' active' where
  inFlight := agrees.inFlight
  guard := guard
  reconnecting := reconnecting
  latest := latest
  ready := ready
  changes change mem := by
    rcases List.mem_cons.mp mem with rfl | mem
    · exact permitted
    · exact agrees.changes change mem

theorem not_active
    (reconnecting : slot.state ≠ .reconnecting) (stopped : slot.state ≠ .stopped) : ¬active :=
  fun isActive => (agrees.guard isActive).1.elim reconnecting stopped

theorem synchronize : (slot.synchronize transport).Agrees leases installed active := by
  rcases slot.synchronize_cases transport with same | ⟨isReady, state, code, target, same⟩
  · rwa [same]
  · rw [same]
    have inactive : ¬active := agrees.not_active (by simp [isReady]) (by simp [isReady])
    refine agrees.assign state code slot.connection ?_ (absurd · inactive) ?_ agrees.latest ?_
    · rw [isReady]
      rcases target with rfl | rfl <;> decide
    · rcases target with rfl | rfl <;> simp
    · rcases target with rfl | rfl <;> simp

/-- A call that is admitted gets the connection installed last. -/
theorem acquireCall {connection : ClientId} {slot' : ConnectionState}
    (ok : slot.acquireCall transport = (.ok connection, slot')) :
    slot'.Agrees (connection :: leases) installed active := by
  have agrees' : (slot.synchronize transport).Agrees leases installed active :=
    agrees.synchronize
  rw [ConnectionState.acquireCall] at ok
  split at ok
  · cases ok
  rename_i isReady
  have isReady : (slot.synchronize transport).state = .ready := not_not.mp isReady
  split at ok
  · cases ok
  rename_i found
  split at ok
  · cases ok
    have inactive : ¬active := agrees'.not_active (by simp [isReady]) (by simp [isReady])
    have latest : installed.head? = some connection := (agrees'.ready isReady).symm.trans found
    exact {
      inFlight := congrArg (· + 1) agrees'.inFlight
      guard := fun isActive => absurd isActive inactive
      reconnecting := agrees'.reconnecting
      latest := fun lease mem => by
        rcases List.mem_cons.mp mem with rfl | mem
        · exact latest
        · exact agrees'.latest lease mem
      ready := agrees'.ready
      changes := agrees'.changes }
  · cases ok

theorem dropLease (index : Nat) (live : index < leases.length) :
    slot.dropLease.Agrees (leases.eraseIdx index) installed active where
  inFlight := by
    rw [ConnectionState.dropLease, List.length_eraseIdx_of_lt live, agrees.inFlight]
  guard isActive := by
    rw [(agrees.guard isActive).2] at live
    cases live
  reconnecting := agrees.reconnecting
  latest lease mem := agrees.latest lease (List.mem_of_mem_eraseIdx mem)
  ready := agrees.ready
  changes := agrees.changes

/-- A reconnect that begins finds no lease and no other guard. -/
theorem beginReconnect (ok : (slot.beginReconnect transport).1 = .ok ()) :
    leases = [] ∧ ¬active ∧ (slot.beginReconnect transport).2.Agrees leases installed True := by
  have agrees' : (slot.synchronize transport).Agrees leases installed active :=
    agrees.synchronize
  rw [ConnectionState.beginReconnect] at ok ⊢
  split at ok
  · cases ok
  · rename_i free
    rw [if_neg free]
    rw [not_or, not_not, not_not] at free
    obtain ⟨none, state⟩ := free
    have empty : leases = [] := List.length_eq_zero_iff.mp (agrees'.inFlight.symm.trans none)
    have inactive : ¬active := by
      refine agrees'.not_active ?_ ?_ <;> rcases state with state | state <;> simp [state]
    refine ⟨empty, inactive, agrees'.assign _ _ _ ?_ (fun _ => ⟨.inl rfl, empty⟩)
      (fun _ => trivial) agrees'.latest nofun⟩
    rcases state with state | state <;> rw [state] <;> decide

theorem beginShutdown : slot.beginShutdown.Agrees leases installed active :=
  agrees.assign _ _ _ (slot.state.canTransitionTo_stopped)
    (fun isActive => ⟨.inr rfl, (agrees.guard isActive).2⟩) nofun agrees.latest nofun

theorem recordAttempt : slot.recordAttempt.2.Agrees leases installed active := by
  rw [ConnectionState.recordAttempt]
  split
  · exact agrees
  · exact ⟨agrees.1, agrees.2, agrees.3, agrees.4, agrees.5, agrees.6⟩

/-- A guard that completes installs its connection. -/
theorem complete (isActive : active) (connection : ClientId) :
    ((slot.complete connection).1 = .ok () ∧
      (slot.complete connection).2.Agrees leases (connection :: installed) False) ∨
    ((slot.complete connection).1 = .error .cancellation ∧
      (slot.complete connection).2.Agrees leases installed False) := by
  obtain ⟨state, empty⟩ := agrees.guard isActive
  rw [ConnectionState.complete]
  split
  · rename_i other
    exact .inr ⟨rfl, agrees.1, nofun, other, agrees.4, agrees.5, agrees.6⟩
  · rename_i reconnecting
    have reconnecting : slot.state = .reconnecting := not_not.mp reconnecting
    refine .inl ⟨rfl, agrees.assign _ _ _ (by rw [reconnecting]; decide) nofun nofun ?_
      (fun _ => rfl)⟩
    simp [empty]

/-- A guard that fails or is dropped leaves no guard. -/
theorem setFailure (isActive : active)
    (code : McpErrorCode) : (slot.setFailure code).Agrees leases installed False := by
  rw [ConnectionState.setFailure]
  split
  · rename_i stopped
    exact ⟨agrees.1, nofun, by simp [stopped], agrees.4, agrees.5, agrees.6⟩
  · rename_i other
    have reconnecting := (agrees.guard isActive).1.resolve_right other
    exact agrees.assign _ _ _ (by rw [reconnecting]; decide) nofun nofun agrees.latest nofun

theorem stop : slot.stop.Agrees leases installed False :=
  agrees.assign _ _ _ slot.state.canTransitionTo_stopped nofun nofun agrees.latest nofun

end Agrees

end ConnectionState

end TeaRs.Mcp
