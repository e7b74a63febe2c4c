import TeaRs.Kernel.Redirects
import TeaRs.Policy.Redaction
import TeaRs.Runtime.SessionApproval

/-!
# Which calls can be asked for

A call that the policy wants to have approved is shown to the caller, with its arguments redacted.
The registry accepts arguments of 256 KiB and a presentation holds 64 KiB, so an accepted call may be
too long to be shown. The request is then not built, and the run fails instead of pausing.

## Main definitions

* `FitsPresentation`: the redacted arguments have at most the bytes of a presentation.

## Main results

* `exists_approvalRequest_iff`: for which calls the request can be built.
* `ask_pauses_iff`: a run pauses for an accepted call only if the arguments fit.
-/

namespace TeaRs

open StateError

/-- The arguments have at most the bytes of a presentation once their sensitive values are
replaced. -/
def FitsPresentation (arguments : Value) : Prop :=
  (redactValue arguments).encodedLength ≤ maxRedactedBytes

instance (arguments : Value) : Decidable (FitsPresentation arguments) :=
  inferInstanceAs (Decidable (_ ≤ _))

/-- A lifetime after a time at which it still ends in a timestamp. -/
def FitsLifetime (createdAt : ProtocolTimestamp) (ttl : Nat) : Prop :=
  0 < ttl ∧ createdAt + ttl ≤ maxProtocolTimestamp

/-- What a policy input takes over from a validated invocation. -/
structure AsksFor (input : PolicyInput) (invocation : ValidatedToolInvocation) : Prop where
  arguments : input.arguments = invocation.arguments
  effects : input.effects = invocation.spec.effects
  resources : input.resources = invocation.resources

theorem ToolRegistry.length_resources_le {registry : ToolRegistry} {invocation : ToolInvocation}
    {validated : ValidatedToolInvocation}
    (accepted : registry.validate invocation = .ok validated) :
    validated.resources.length ≤ maxToolResources := by
  rw [validate] at accepted
  split at accepted
  · cases accepted
  · split at accepted
    · cases accepted
    · split_ifs at accepted
      split at accepted
      · cases accepted
      · dsimp only at accepted
        split_ifs at accepted with many
        cases accepted
        exact Nat.le_of_not_lt many

theorem exists_fromInput_iff (reason : PolicyReason) {arguments : Value}
    {resources : List ToolResource} (valid : isInvocationArguments arguments = true)
    (few : resources.length ≤ 128) :
    (∃ presentation, ApprovalPresentation.fromInput reason.text arguments resources =
      .ok presentation) ↔ FitsPresentation arguments := by
  have shownResources : isPresentation reason.text
      (resources.map fun resource => redactResource resource.scheme resource.locator) = true := by
    rw [isPresentation, reason.valid, List.length_map, decide_eq_true few, Bool.true_and,
      Bool.true_and, List.all_eq_true]
    intro text mem
    obtain ⟨resource, -, rfl⟩ := List.mem_map.mp mem
    exact isLocator_redactResource resource
  rw [FitsPresentation, ← exists_redactArguments_iff valid, ApprovalPresentation.fromInput,
    reason.valid]
  cases redacts : redactArguments arguments with
  | none => simp
  | some shown => simp [shownResources]

variable {input : PolicyInput} {letters : Nat}

/-- The request for the approval of a call can be built exactly if the arguments fit and the request
expires after it is made, at a time that can be written. -/
theorem exists_approvalRequest_iff {invocation : ValidatedToolInvocation}
    (reason : PolicyReason) (asks : AsksFor input invocation)
    (few : invocation.resources.length ≤ maxToolResources) (approvalId : ApprovalId)
    (createdAt : ProtocolTimestamp) (ttl : Nat) :
    (∃ request, approvalRequest approvalId input reason.text createdAt ttl = .ok request) ↔
      FitsPresentation invocation.arguments ∧ FitsLifetime createdAt ttl := by
  have fewInput : input.resources.length ≤ 128 := asks.resources ▸ few
  have presented := exists_fromInput_iff reason (asks.arguments ▸
    invocation.invocation.valid : isInvocationArguments input.arguments = true) fewInput
  have context : input.effects ≠ [] ∧ input.effects.length ≤ 64 ∧ input.resources.length ≤ 128 :=
    ⟨asks.effects ▸ invocation.spec.effects_valid.2.1,
      asks.effects ▸ invocation.spec.effects_valid.2.2, fewInput⟩
  have expires_iff (time : Int) : time < time + ttl ↔ 0 < ttl := by omega
  rw [← asks.arguments, ← presented, approvalRequest, addDuration, FitsLifetime]
  constructor
  · rintro ⟨request, built⟩
    obtain ⟨expiresAt, expires, built⟩ := except_bind_eq_ok.mp built
    split_ifs at expires with representable
    cases expires
    split at built
    · cases built
    · next presentation shown =>
      split at built
      · cases built
      · next new =>
        rw [ApprovalRequest.new] at new
        split_ifs at new with later
        exact ⟨⟨presentation, shown⟩, (expires_iff _).mp later, representable⟩
  · rintro ⟨⟨presentation, shown⟩, positive, representable⟩
    have later := (expires_iff createdAt).mpr positive
    rw [if_pos representable, shown]
    simp only [bind, Except.bind, ApprovalRequest.new, dif_pos later, dif_pos context]
    exact ⟨_, rfl⟩

theorem AgentKernel.waitForApproval_eq_error {kernel : AgentKernel} {snapshot : SessionSnapshot}
    {invocation : ValidatedToolInvocation} {reason : String}
    {config : KernelRunConfig} {runId : RunId} {turnId : TurnId}
    (refused : ∀ approvalId createdAt request,
      approvalRequest approvalId input reason createdAt config.approvalTtl ≠ .ok request)
    (k : KernelState) :
    ∃ error k', kernel.waitForApproval snapshot invocation input reason config runId turnId k =
      .error error k' ∧ k'.store = k.store := by
  rw [waitForApproval]
  cases drawn : onPort (callPort kernel.ids.nextApprovalId) k with
  | error error k₁ =>
    exact ⟨error, k₁, bind_eq_error.mpr (.inl drawn), store_of_onPort_error drawn⟩
  | ok approvalId k₁ =>
    have first := (store_of_onPort drawn).2
    rw [bind_run_of_ok drawn]
    cases clock : onPort (callPort kernel.clock.now) k₁ with
    | error error k₂ =>
      exact ⟨error, k₂, bind_eq_error.mpr (.inl clock), (store_of_onPort_error clock).trans first⟩
    | ok createdAt k₂ =>
      have second := (store_of_onPort clock).2.trans first
      rw [bind_run_of_ok clock]
      cases built : approvalRequest approvalId input reason createdAt config.approvalTtl with
      | error error => exact ⟨.error error, k₂, rfl, second⟩
      | ok request => exact absurd built (refused approvalId createdAt request)

/-- A call that the registry accepted and the policy asks for can be presented exactly if its
redacted arguments fit and the request can expire. If the arguments fit, a run that pauses for the
call has stored the request; if they do not, the run fails with nothing stored. -/
theorem ask_pauses_iff {kernel : AgentKernel} {invocation : ToolInvocation}
    {validated : ValidatedToolInvocation} {config : KernelRunConfig}
    {state : MaterializedSessionState} {runId : RunId} {grants : List PolicyGrant}
    {now : ProtocolTimestamp} {input : PolicyInput} {reason : PolicyReason}
    (accepted : kernel.tools.validate invocation = .ok validated)
    (asks : evaluateInvocation kernel.policy config state runId validated grants now =
      .ok (input, .ask reason)) :
    (∀ approvalId createdAt,
      (∃ request, approvalRequest approvalId input reason.text createdAt config.approvalTtl =
        .ok request) ↔
      FitsPresentation invocation.arguments ∧ FitsLifetime createdAt config.approvalTtl) ∧
    ∀ snapshot turnId k, Current k snapshot →
      (∀ outcome k', kernel.waitForApproval snapshot validated input reason.text config runId turnId
          k = .ok outcome k' →
        FitsPresentation invocation.arguments ∧ ∃ request,
          outcome.pendingApprovalId = some request.approvalId ∧
          StoresRequest k' snapshot.state.sessionId request) ∧
      (¬FitsPresentation invocation.arguments →
        ∃ error k', kernel.waitForApproval snapshot validated input reason.text config runId turnId
          k = .error error k' ∧ k'.store = k.store) := by
  obtain ⟨same, -⟩ := ToolRegistry.validate_eq_ok accepted
  have few := ToolRegistry.length_resources_le accepted
  obtain ⟨-, -, -, -, taken⟩ := evaluateInvocation_eq_ok asks
  have built (approvalId : ApprovalId) (createdAt : ProtocolTimestamp) :=
    exists_approvalRequest_iff reason ⟨taken.1, taken.2.1, taken.2.2⟩ few approvalId createdAt
      config.approvalTtl
  have arguments : validated.arguments = invocation.arguments :=
    congrArg ToolInvocation.arguments same
  rw [arguments] at built
  refine ⟨fun approvalId createdAt => built approvalId createdAt,
    fun snapshot turnId k current => ⟨fun outcome k' waits => ?_, fun long => ?_⟩⟩
  · obtain ⟨request, approvalId, createdAt, requested, pending, stores⟩ :=
      AgentKernel.waitForApproval_eq_ok current waits
    refine ⟨((built approvalId createdAt).mp ⟨request, requested⟩).1, request, ?_, stores⟩
    rw [pending, (presents_of_approvalRequest requested).approvalId]
  · refine AgentKernel.waitForApproval_eq_error (fun approvalId createdAt request requested => ?_) k
    exact long ((built approvalId createdAt).mp ⟨request, requested⟩).1

/-! ### A long text to write -/

/-- A tool of the product that writes texts. -/
def noteSpec : ToolSpec :=
  { readSpec with name := ⟨"note", by decide +kernel⟩, effects := [.fsWrite], effects_valid := by simp }

/-- A kernel with the tool that asks for every call. -/
def noteKernel : AgentKernel :=
  { askingKernel with
    tools := ⟨fun _ => some
      { spec := noteSpec
        input := fun _ => true
        output := fun _ => true
        binding := .client (fun _ _ => .ok []) ⟨fun _ => none, fun _ _ => []⟩ }⟩ }

/-- The arguments of a call that writes a number of letters. -/
def noteArguments (letters : Nat) : Value :=
  .object [("text", .string (String.ofList (List.replicate letters 'a')))]

theorem redactValue_noteArguments (letters : Nat) :
    redactValue (noteArguments letters) = noteArguments letters := by
  have plain : sensitiveKey "text" = false := by decide
  simp [noteArguments, redactValue, redactFields, plain]

theorem encodedLength_noteArguments (letters : Nat) :
    (noteArguments letters).encodedLength = letters + 11 := by
  have key : Value.encodedStringLength "text" = 6 := by decide
  have letter : Value.escapedCharLength 'a' = 1 := by decide
  have text : Value.encodedStringLength (String.ofList (List.replicate letters 'a')) =
      2 + letters := by
    simp [Value.encodedStringLength, letter]
  rw [noteArguments, Value.encodedLength, Value.fieldsLength, Value.encodedLength, key, text]
  omega

theorem isInvocationArguments_note (few : letters ≤ 200000) :
    isInvocationArguments (noteArguments letters) = true := by
  rw [isInvocationArguments, encodedLength_noteArguments, decide_eq_true (by omega)]
  rfl

/-- A call that writes a number of letters. -/
def noteInvocation (letters : Nat) (few : letters ≤ 200000) : ToolInvocation :=
  ⟨⟨0⟩, noteSpec.name, noteArguments letters, ∅, isInvocationArguments_note few⟩

/-- The call as the rules see it. -/
def noteInput (letters : Nat) : PolicyInput where
  actorId := localConfig.actorId
  profileId := ⟨"default"⟩
  sessionId := ⟨0⟩
  runId := some ⟨0⟩
  workspaceId := none
  toolCallId := ⟨0⟩
  toolName := noteSpec.name
  toolVersion := noteSpec.version
  toolSource := noteSpec.source
  arguments := noteArguments letters
  effects := noteSpec.effects
  resources := []
  environment := localConfig.environment
  now := 0
  grants := []

theorem validate_noteInvocation (few : letters ≤ 200000) :
    noteKernel.tools.validate (noteInvocation letters few) =
      .ok ⟨noteInvocation letters few, noteSpec, []⟩ := rfl

theorem evaluate_noteInvocation (few : letters ≤ 200000) :
    evaluateInvocation noteKernel.policy localConfig (freshState ⟨0⟩) ⟨0⟩
      ⟨noteInvocation letters few, noteSpec, []⟩ [] 0 = .ok (noteInput letters, .ask confirm) := rfl

/-- A short text can be asked for. -/
theorem ask_pauses_iff_short :
    ∃ request, approvalRequest ⟨0⟩ (noteInput 5) confirm.text 0 localConfig.approvalTtl =
      .ok request := by
  have few : 5 ≤ 200000 := by decide
  refine ((ask_pauses_iff (validate_noteInvocation few) (evaluate_noteInvocation few)).1 _ _).mpr
    ⟨?_, by decide, by decide⟩
  rw [FitsPresentation, noteInvocation, redactValue_noteArguments, encodedLength_noteArguments]
  decide

/-- A text of 64 KiB is accepted by the registry and asked for by the policy, and no run can pause
for it: whatever the state of the kernel, the pause fails and nothing is stored. -/
theorem long_ask_fails : ∃ invocation validated input reason,
      noteKernel.tools.validate invocation = .ok validated ∧
      evaluateInvocation noteKernel.policy localConfig (freshState ⟨0⟩) ⟨0⟩ validated [] 0 =
        .ok (input, .ask reason) ∧
      (∀ approvalId createdAt request,
        approvalRequest approvalId input reason.text createdAt localConfig.approvalTtl ≠
          .ok request) ∧
      ∀ snapshot turnId k, ∃ error k',
        noteKernel.waitForApproval snapshot validated input reason.text localConfig ⟨0⟩ turnId k =
          .error error k' ∧ k'.store = k.store := by
  have few : 65536 ≤ 200000 := by decide
  have asks := evaluate_noteInvocation few
  have refused : ∀ approvalId createdAt request,
      approvalRequest approvalId (noteInput 65536) confirm.text createdAt localConfig.approvalTtl ≠
        .ok request := by
    intro approvalId createdAt request built
    obtain ⟨-, -, -, -, taken⟩ := evaluateInvocation_eq_ok asks
    have fits := ((exists_approvalRequest_iff _ ⟨taken.1, taken.2.1, taken.2.2⟩ (Nat.zero_le _)
      approvalId createdAt _).mp ⟨request, built⟩).1
    change FitsPresentation (noteArguments 65536) at fits
    rw [FitsPresentation, redactValue_noteArguments, encodedLength_noteArguments] at fits
    exact absurd fits (by decide)
  exact ⟨noteInvocation 65536 few, ⟨noteInvocation 65536 few, noteSpec, []⟩, noteInput 65536,
    confirm, validate_noteInvocation few, asks, refused,
    fun snapshot turnId k => AgentKernel.waitForApproval_eq_error refused k⟩

end TeaRs
