import TeaRs.Kernel.InputQueue
import TeaRs.Runtime.SessionGrant

/-!
# Approving a call for the whole session

A run that has to ask for a call stores an approval request and pauses. The caller may answer with
permission for the whole session: the runtime then builds a grant from the stored request and the
resolution that issues it (`handle_resolve_approval` of `tea/src/command.rs`). A grant needs a
resource to be restricted to, and a request without resources is still stored. Permission for the
session can therefore be given exactly if the call has a resource.

## Main definitions

* `resolveForSession`: the resolution that permits a call for the session.
* `PolicyInput.Repeats`: a later invocation like the one that asked.

## Main results

* `resolveForSession_iff`: which requests can be permitted for the session, and that the grant then
  covers every later invocation like the one that asked.
-/

namespace TeaRs

open StateError InMemorySessionStore

/-! ### The stored request -/

/-- The request of a pause, in the artifacts of its session. -/
def StoresRequest (k : KernelState) (sessionId : SessionId) (request : ApprovalRequest) : Prop :=
  ∃ recordId format,
    .requested recordId request format ∈ (k.store.storedOf sessionId).approvalArtifacts

variable {α : Type} {k k' : KernelState} {input : PolicyInput} {grant : PolicyGrant} {x : PortM α}

theorem store_of_onPort {a : α}
    (run : onPort x k = .ok a k') : x k.port = .ok a k'.port ∧ k'.store = k.store := by
  rw [onPort] at run
  split at run
  · next ran =>
    cases run
    exact ⟨ran, rfl⟩
  · cases run

theorem store_of_onPort_error {e : Abort KernelError}
    (run : onPort x k = .error e k') : k'.store = k.store := by
  rw [onPort] at run
  split at run
  · cases run
  · cases run
    rfl

theorem AgentKernel.waitForApproval_eq_ok {kernel : AgentKernel}
    {snapshot : SessionSnapshot} {invocation : ValidatedToolInvocation}
    {reason : String} {config : KernelRunConfig} {runId : RunId} {turnId : TurnId}
    {outcome : KernelRunOutcome} (current : Current k snapshot)
    (waits : kernel.waitForApproval snapshot invocation input reason config runId turnId k =
      .ok outcome k') :
    ∃ request approvalId createdAt,
      approvalRequest approvalId input reason createdAt config.approvalTtl = .ok request ∧
      outcome.pendingApprovalId = some approvalId ∧
      StoresRequest k' snapshot.state.sessionId request := by
  rw [waitForApproval] at waits
  obtain ⟨approvalId, k₁, drawn, waits⟩ := bind_eq_ok.mp waits
  obtain ⟨createdAt, k₂, clock, waits⟩ := bind_eq_ok.mp waits
  obtain ⟨request, k₃, built, waits⟩ := bind_eq_ok.mp waits
  obtain ⟨envelopes, k₄, stamped, waits⟩ := bind_eq_ok.mp waits
  obtain ⟨approvalRecord, k₅, found, waits⟩ := bind_eq_ok.mp waits
  obtain ⟨snapshot', k₆, committed, waits⟩ := bind_eq_ok.mp waits
  obtain ⟨s, k₇, read, waits⟩ := bind_eq_ok.mp waits
  obtain ⟨_, k₈, noted, waits⟩ := bind_eq_ok.mp waits
  obtain ⟨_, k₉, announced, ends⟩ := bind_eq_ok.mp waits
  obtain ⟨requested, rfl⟩ := check_eq_ok.mp built
  obtain ⟨-, rfl⟩ := okOr_eq_ok.mp found
  have stamped := store_of_onPort stamped
  have current' : Current k₄ snapshot := current.congr
    (stamped.2.trans ((store_of_onPort clock).2.trans (store_of_onPort drawn).2))
  have records := (records_of_envelopesAt _ _).of_eq_ok stamped.1
  have plain : ∀ e ∈ envelopes, SessionReducer.Plain e := by
    intro e he
    have mem : e.record ∈ envelopes.map (·.record) := List.mem_map_of_mem he
    rw [records] at mem
    simp only [withoutMetadata, pauseRecords, List.map_cons, List.map_nil, List.mem_cons,
      List.not_mem_nil, or_false] at mem
    rcases mem with kind | kind | kind <;> exact ⟨by rw [kind]; rfl, by rw [kind]; rfl⟩
  obtain ⟨advances, artifacts, -⟩ := (commit_spec current' rfl plain).of_eq_ok committed
  have stored := advances.current.approvalArtifacts
  rw [advances.sessionId, artifacts] at stored
  -- Announcing the pause does not touch the store.
  obtain ⟨rfl, rfl⟩ := EStateM.Result.ok.inj ends
  obtain ⟨-, rfl⟩ := EStateM.Result.ok.inj noted
  obtain ⟨-, rfl⟩ := EStateM.Result.ok.inj read
  have same := (store_of_onPort announced).2
  refine ⟨request, approvalId, createdAt, requested, rfl, approvalRecord.recordId,
    config.finalOutputFormat.map (·.asProtocol), ?_⟩
  rw [same, stored]
  exact List.mem_append_right _ (List.mem_singleton_self _)

/-- A request presents its input under an identifier. -/
structure Presents (request : ApprovalRequest) (approvalId : ApprovalId) (input : PolicyInput) :
    Prop where
  approvalId : request.approvalId = approvalId
  actorId : request.actorId = input.actorId
  profileId : request.profileId = input.profileId
  sessionId : request.sessionId = input.sessionId
  toolName : request.toolName = input.toolName
  toolVersion : request.toolVersion = input.toolVersion
  toolSource : request.toolSource = input.toolSource
  effects : request.effects = input.effects
  resources : request.resources = input.resources

theorem presents_of_approvalRequest {approvalId : ApprovalId}
    {reason : String} {createdAt : ProtocolTimestamp} {ttl : Nat} {request : ApprovalRequest}
    (requested : approvalRequest approvalId input reason createdAt ttl = .ok request) :
    Presents request approvalId input := by
  rw [approvalRequest] at requested
  obtain ⟨expiresAt, -, requested⟩ := except_bind_eq_ok.mp requested
  split at requested
  · cases requested
  · split at requested
    · cases requested
    · next built =>
      cases requested
      rw [ApprovalRequest.new] at built
      split_ifs at built
      cases built
      exact ⟨rfl, rfl, rfl, rfl, rfl, rfl, rfl, rfl, rfl⟩

/-! ### The resolution -/

variable {grantId : GrantId} {request : ApprovalRequest} {sessionId : SessionId}
variable {decidedAt : ProtocolTimestamp}

/-- The resolution that `handle_resolve_approval` builds for permission in the whole session. -/
def resolveForSession (grantId : GrantId) (request : ApprovalRequest) (sessionId : SessionId)
    (decidedAt : ProtocolTimestamp) : Except RuntimeError ApprovalResolution := do
  let grant ← sessionGrant grantId request sessionId decidedAt
  (ApprovalResolution.new request .allowSession decidedAt (some grant)).mapError
    fun error => .new .policyFailure error.text

theorem exists_sessionGrant_iff (grantId : GrantId) (sessionId : SessionId)
    (decidedAt : ProtocolTimestamp) :
    (∃ grant, sessionGrant grantId request sessionId decidedAt = .ok grant) ↔
      request.resources ≠ [] := by
  have effects := request.context_valid
  have effectsNonempty : sortDedup request.effects ≠ [] := sortDedup_eq_nil.not.mpr effects.1
  have effectsBounded : (sortDedup request.effects).length ≤ maxGrantEffects :=
    (length_sortDedup_le _).trans effects.2.1
  have resourcesBounded :
      (sortDedup (request.resources.map ToolResource.pattern)).length ≤ maxGrantPatterns := by
    refine (length_sortDedup_le _).trans ?_
    rw [List.length_map]
    exact effects.2.2
  rw [sessionGrant, mapM_approvedPattern]
  simp only [Except.mapError, bind, Except.bind, PolicyGrant.new]
  rw [dif_neg (not_or.mpr ⟨effectsNonempty, effectsBounded.not_gt⟩)]
  by_cases nonempty : request.resources = []
  · simp [nonempty, sortDedup]
  · have patterns : sortDedup (request.resources.map ToolResource.pattern) ≠ [] :=
      sortDedup_eq_nil.not.mpr (by simpa using nonempty)
    rw [dif_neg (not_or.mpr ⟨patterns, resourcesBounded.not_gt⟩)]
    exact ⟨fun _ => nonempty, fun _ => ⟨_, rfl⟩⟩

/-- The grant for a request covers the request. -/
theorem IssuedFor.admitsGrant (issued : IssuedFor grant request sessionId decidedAt) :
    request.admitsGrant decidedAt grant = true := by
  simp only [ApprovalRequest.admitsGrant, issued.issuedAt, issued.actorId, issued.profileId,
    issued.toolName, issued.toolVersion, issued.toolSource, grantSourceMatches, Bool.and_eq_true,
    decide_eq_true_eq, beq_iff_eq, List.all_eq_true, List.any_eq_true, List.contains_iff_mem,
    issued.effects, issued.resources]
  refine ⟨⟨⟨⟨⟨⟨⟨le_rfl, trivial⟩, trivial⟩, trivial⟩, trivial⟩, trivial⟩, fun _ h => h⟩, ?_⟩
  intro resource mem
  exact ⟨resource.pattern, ⟨resource, mem, rfl⟩,
    matchesResource_pattern_iff.mpr ⟨rfl, rfl, List.prefix_rfl⟩⟩

theorem resolveForSession_of_sessionGrant
    (built : sessionGrant grantId request sessionId decidedAt = .ok grant)
    (lifetime : request.createdAt ≤ decidedAt ∧ decidedAt < request.expiresAt) :
    ∃ resolution, resolveForSession grantId request sessionId decidedAt = .ok resolution ∧
      resolution.issuedGrant = some grant := by
  have admitted : ∀ other ∈ some grant, request.admitsGrant decidedAt other = true := by
    intro other h
    cases h
    exact (issuedFor_sessionGrant built).admitsGrant
  have session : (some grant).isSome = true → ApprovalDecision.allowSession = .allowSession :=
    fun _ => rfl
  refine ⟨⟨request, .allowSession, decidedAt, some grant, lifetime, session, admitted⟩, ?_, rfl⟩
  rw [resolveForSession, built]
  change Except.mapError _ (ApprovalResolution.new _ _ _ _) = _
  rw [ApprovalResolution.new, dif_pos lifetime, dif_pos session, dif_pos admitted]
  rfl

/-- A later invocation like the one that asked: the same tool of the same source in the same
version, by the same actor in the same session, profile and environment, on the same resources with
the same effects. -/
structure PolicyInput.Repeats (later input : PolicyInput) : Prop where
  actorId : later.actorId = input.actorId
  profileId : later.profileId = input.profileId
  sessionId : later.sessionId = input.sessionId
  toolName : later.toolName = input.toolName
  toolVersion : later.toolVersion = input.toolVersion
  toolSource : later.toolSource = input.toolSource
  environment : later.environment = input.environment
  effects : later.effects = input.effects
  resources : later.resources = input.resources

/-- A call that a run asks for can be permitted for the session before the request expires exactly
if it has a resource, and the issued grant covers every later invocation like it. -/
theorem resolveForSession_iff {kernel : AgentKernel} {k k' : KernelState}
    {snapshot : SessionSnapshot} {invocation : ValidatedToolInvocation} {input : PolicyInput}
    {reason : PolicyReason} {config : KernelRunConfig} {runId : RunId} {turnId : TurnId}
    {grants : List PolicyGrant} {now : ProtocolTimestamp} {outcome : KernelRunOutcome}
    (current : Current k snapshot)
    (asks : evaluateInvocation kernel.policy config snapshot.state runId invocation grants now =
      .ok (input, .ask reason))
    (waits : kernel.waitForApproval snapshot invocation input reason.text config runId turnId k =
      .ok outcome k') :
    ∃ request, outcome.pendingApprovalId = some request.approvalId ∧
      StoresRequest k' snapshot.state.sessionId request ∧
      ∀ grantId decidedAt, request.createdAt ≤ decidedAt → decidedAt < request.expiresAt →
        ((∃ resolution, resolveForSession grantId request snapshot.state.sessionId decidedAt =
            .ok resolution) ↔ invocation.resources ≠ []) ∧
        ∀ resolution, resolveForSession grantId request snapshot.state.sessionId decidedAt =
            .ok resolution → ∃ grant, resolution.issuedGrant = some grant ∧
          ∀ later : PolicyInput, decidedAt ≤ later.now → later.Repeats input →
            grant.matchesInput later = true := by
  obtain ⟨request, approvalId, createdAt, requested, pending, stores⟩ :=
    AgentKernel.waitForApproval_eq_ok current waits
  have presents := presents_of_approvalRequest requested
  obtain ⟨-, -, session, -, -, -, resources⟩ := evaluateInvocation_eq_ok asks
  refine ⟨request, ?_, stores, fun grantId decidedAt created expires => ⟨?_, ?_⟩⟩
  · rw [pending, presents.approvalId]
  · rw [← resources, ← presents.resources,
      ← exists_sessionGrant_iff grantId snapshot.state.sessionId decidedAt]
    constructor
    · rintro ⟨resolution, resolved⟩
      obtain ⟨grant, built, -⟩ := except_bind_eq_ok.mp resolved
      exact ⟨grant, built⟩
    · rintro ⟨grant, built⟩
      obtain ⟨resolution, resolved, -⟩ :=
        resolveForSession_of_sessionGrant built ⟨created, expires⟩
      exact ⟨resolution, resolved⟩
  · intro resolution resolved
    obtain ⟨grant, built, -⟩ := except_bind_eq_ok.mp resolved
    obtain ⟨resolution', resolved', issued⟩ :=
      resolveForSession_of_sessionGrant built ⟨created, expires⟩
    obtain rfl := Except.ok.inj (resolved.symm.trans resolved')
    refine ⟨grant, issued, fun later time same => ?_⟩
    refine (issuedFor_sessionGrant built).matchesInput_iff.mpr ⟨time,
      same.actorId.trans presents.actorId.symm, same.profileId.trans presents.profileId.symm,
      same.toolName.trans presents.toolName.symm, same.toolVersion.trans presents.toolVersion.symm,
      same.toolSource.trans presents.toolSource.symm, ?_, ?_, same.sessionId.trans session⟩
    · rw [same.effects, presents.effects]
      exact fun _ h => h
    · rw [same.resources, presents.resources]
      exact fun resource mem => ⟨resource, mem, rfl, rfl, List.prefix_rfl⟩

/-! ### A call that asks -/

theorem isRuleId_confirm : isRuleId "confirm" = true := by
  decide +kernel

/-- A policy that asks for every call. -/
def askingEngine : PolicyEngine where
  rules := [⟨"confirm", .product, fun _ => some (.ask confirm)⟩]
  bounded := by simp [maxPolicyRules]
  ids_valid := List.forall_mem_singleton.mpr isRuleId_confirm
  distinct := List.nodup_singleton _
  layered := List.pairwise_singleton _ _

/-- A kernel with that policy. -/
def askingKernel : AgentKernel :=
  { InputSystem.quietKernel with policy := askingEngine }

/-- A session that declares a call to read. -/
def declaringTransaction : AppendTransaction :=
  .new ⟨0⟩ none
    [SessionReducer.unbranchedCreation,
      SessionReducer.readDeclared 1 none,
      SessionReducer.readRequested 2 none]

/-- A kernel state with that session. -/
def declaredState : KernelState :=
  { InputSystem.quietState with
    store := resultState (append declaringTransaction .new) }

/-- The call to read some resources. -/
def askedRead (resources : List ToolResource) : ValidatedToolInvocation where
  invocation := ⟨⟨0⟩, readName, .object [], ∅, emptyObject_valid⟩
  spec :=
    { name := readName
      version := ⟨"1.0.0"⟩
      inputSchema := .object []
      outputSchema := .object []
      effects := [.fsRead]
      source := .nativeProduct
      execution := ⟨.idempotent, .never, .parallel, by decide⟩
      effects_valid := fsRead_valid }
  resources := resources

/-- The pause for the call. -/
def readPause (snapshot : SessionSnapshot) (resources : List ToolResource) (input : PolicyInput)
    (reason : PolicyReason) : KernelM KernelRunOutcome :=
  askingKernel.waitForApproval snapshot (askedRead resources) input reason.text
    InputSystem.quietConfig ⟨0⟩ ⟨0⟩

/-- What the run of the call finds. -/
structure ReadAsks (resources : List ToolResource) (snapshot : SessionSnapshot)
    (input : PolicyInput) (reason : PolicyReason) (outcome : KernelRunOutcome) (k' : KernelState) :
    Prop where
  current : Current declaredState snapshot
  asks : evaluateInvocation askingKernel.policy InputSystem.quietConfig snapshot.state ⟨0⟩
    (askedRead resources) [] 0 = .ok (input, .ask reason)
  waits : readPause snapshot resources input reason declaredState = .ok outcome k'

/-- Whether the session is found, the policy asks and the pause succeeds. -/
def readAsks (resources : List ToolResource) : Bool :=
  match onStore (load ⟨0⟩) declaredState with
  | .error .. => false
  | .ok snapshot _ =>
    match evaluateInvocation askingKernel.policy InputSystem.quietConfig snapshot.state ⟨0⟩
      (askedRead resources) [] 0 with
    | .ok (input, .ask reason) =>
      (resultError? (readPause snapshot resources input reason declaredState)).isNone
    | _ => false

theorem exists_readAsks {resources : List ToolResource} (h : readAsks resources = true) :
    ∃ snapshot input reason outcome k', ReadAsks resources snapshot input reason outcome k' := by
  have sound : declaredState.store.Sound := by
    change (resultState (append declaringTransaction .new)).Sound
    rcases consistent_new.append_cases declaringTransaction with
      ⟨outcome, stored, -, committed, ok⟩ | ⟨error, -, failed⟩
    · rw [ok]
      exact sound_new.committed committed
    · rw [failed]
      exact sound_new
  rw [readAsks] at h
  split at h
  · cases h
  · next snapshot k loaded =>
    obtain ⟨rfl, current, -⟩ := (load_spec sound ⟨0⟩).of_eq_ok loaded
    split at h
    · next input reason asks =>
      obtain ⟨outcome, waits⟩ := exists_eq_ok_of_resultError? (Option.isNone_iff_eq_none.mp h)
      exact ⟨snapshot, input, reason, outcome, _, current, asks, waits⟩
    · cases h

/-- A call on one file can be permitted for the session, and is then covered. -/
theorem resolveForSession_iff_file :
    ∃ snapshot input reason outcome k', ReadAsks [shortName] snapshot input reason outcome k' ∧
      ∃ request resolution grant, StoresRequest k' snapshot.state.sessionId request ∧
        resolveForSession ⟨0⟩ request snapshot.state.sessionId request.createdAt = .ok resolution ∧
        resolution.issuedGrant = some grant ∧
        grant.matchesInput { input with now := request.createdAt } = true := by
  obtain ⟨snapshot, input, reason, outcome, k', asks⟩ :=
    exists_readAsks (by decide +kernel : readAsks [shortName] = true)
  obtain ⟨request, -, stores, permits⟩ := resolveForSession_iff asks.current asks.asks asks.waits
  obtain ⟨permitted, covers⟩ := permits ⟨0⟩ request.createdAt le_rfl request.expiresAt_valid
  obtain ⟨resolution, resolved⟩ := permitted.mpr (by simp [askedRead])
  obtain ⟨grant, issued, covers⟩ := covers resolution resolved
  exact ⟨snapshot, input, reason, outcome, k', asks, request, resolution, grant, stores, resolved,
    issued, covers _ le_rfl ⟨rfl, rfl, rfl, rfl, rfl, rfl, rfl, rfl, rfl⟩⟩

/-- A call without resources asks and pauses, and cannot be permitted for the session. -/
theorem resolveForSession_refused :
    ∃ snapshot input reason outcome k' request, ReadAsks [] snapshot input reason outcome k' ∧
      outcome.pendingApprovalId = some request.approvalId ∧
      StoresRequest k' snapshot.state.sessionId request ∧
      request.createdAt < request.expiresAt ∧
      ∀ grantId resolution, resolveForSession grantId request snapshot.state.sessionId
        request.createdAt ≠ .ok resolution := by
  obtain ⟨snapshot, input, reason, outcome, k', asks⟩ :=
    exists_readAsks (by decide +kernel : readAsks [] = true)
  obtain ⟨request, approvalId, createdAt, requested, pending, stores⟩ :=
    AgentKernel.waitForApproval_eq_ok asks.current asks.waits
  have presents := presents_of_approvalRequest requested
  have resources : request.resources = [] := by
    obtain ⟨-, -, -, -, -, -, taken⟩ := evaluateInvocation_eq_ok asks.asks
    exact presents.resources.trans taken
  refine ⟨snapshot, input, reason, outcome, k', request, asks, ?_, stores,
    request.expiresAt_valid, fun grantId resolution resolved => ?_⟩
  · rw [pending, presents.approvalId]
  · obtain ⟨grant, built, -⟩ := except_bind_eq_ok.mp resolved
    exact (exists_sessionGrant_iff _ _ _).mp ⟨grant, built⟩ resources

end TeaRs
