import TeaRs.Kernel.Config
import TeaRs.Session.Transcript

/-!
# The request of a model turn

The builder of a model request (`tea-kernel/src/request.rs`) projects the active transcript. After a
compaction it shows the summary at the head of the transcript to the model as text of the user, and
it reports an invalid state when the head is not the summary of the latest compaction. The two are
separate fields of a branch; no accepted log ever sets them apart, whatever branches are forked,
left and entered.

## Main definitions

* `projectModelMessages`: the transcript as a model sees it.
* `RequestParts`: what the builder takes from the tools, the model and the type of requests.
* `TurnRequestSnapshot.buildWithPendingMessages`: the builder.
* `BranchProjection.HeadedBySummary`: the transcript starts with the latest summary.

## Main results

* `SessionReducer.accepted_headedBySummary`: the transcripts of all branches start with the latest
  summary, and no request fails for want of one.
-/

namespace TeaRs

open StateError BranchProjection

/-! ### The projected transcript -/

/-- `ContentBlock::contextual_text`. -/
def ContentBlock.newContextualText (text : String) : Except ContentValidationError ContentBlock :=
  (validateText text).map fun _ => .contextualText text

/-- A block of a compaction summary as the model sees it. -/
def projectSummaryBlock : ContentBlock → Except KernelError ContentBlock
  | .text text | .contextualText text => (ContentBlock.newContextualText text).mapError .ofContent
  | .thinking _ | .image .. | .toolCall .. | .hostedTool _ | .citation _ =>
    .error (.new .invalidState "compaction summary contains non-text content")

/-- `project_compaction_summary`. -/
def projectCompactionSummary : CanonicalMessage → Except KernelError CanonicalMessage
  | .assistant id content _ timestamp => do
    let content ← content.mapM projectSummaryBlock
    (CanonicalMessage.newUser id content timestamp).mapError .ofMessage
  | .user .. | .toolResult .. =>
    .error (.new .invalidState "compaction summary is not an assistant message")

/-- The error of a compacted transcript that is empty. -/
def summaryMissing : KernelError :=
  .new .invalidState "compaction summary is missing from the active transcript"

/-- The error of a compacted transcript that starts with another message. -/
def summaryNotHead : KernelError :=
  .new .invalidState "compaction summary is not the active transcript head"

/-- `project_model_messages`. -/
def projectModelMessages (state : MaterializedSessionState) :
    Except KernelError (List CanonicalMessage) :=
  match state.latestCompaction with
  | none => .ok state.messages
  | some compaction =>
    match state.messages with
    | [] => .error summaryMissing
    | summary :: remainder =>
      if summary = compaction.summary then
        (projectCompactionSummary summary).map (· :: remainder)
      else .error summaryNotHead

/-! ### The builder -/

/-- What the builder takes from the tools, the resolved model and the type of requests. An error is
the text of a `ToolRegistryError` or of a `ModelRequestError`. -/
structure RequestParts (Definition Request : Type) where
  modelRef : ModelRef
  /-- `tools.names()` with `tools.model_definitions(model)`. -/
  definitions : Except String (List (ToolName × Definition))
  isFunction : Definition → Bool
  isHosted : Definition → Bool
  /-- `ModelRequest::new` with the builder methods after it, up to `validate_for`. -/
  request : ModelRef → List CanonicalMessage → List Definition → Option ReasoningEffort →
    Except String Request

/-- `TurnRequestSnapshot`. -/
structure TurnRequestSnapshot (Request : Type) where
  request : Request
  clientToolNames : List ToolName
  hostedToolNames : List ToolName
  durableTail : SessionSequence

namespace TurnRequestSnapshot

variable {Definition Request : Type}

/-- `TurnRequestSnapshot::build_with_pending_messages`. -/
def buildWithPendingMessages (parts : RequestParts Definition Request)
    (state : MaterializedSessionState) (pending : List CanonicalMessage) :
    Except KernelError (TurnRequestSnapshot Request) :=
  match state.configuration.model with
  | none => .error (.new .invalidModel "session has no active model")
  | some modelRef =>
    if parts.modelRef ≠ modelRef then
      .error (.new .invalidModel "resolved model does not match the active session model")
    else do
      let definitions ← parts.definitions.mapError (.new .invalidRequest)
      let messages ← projectModelMessages state
      let request ← (parts.request modelRef (messages ++ pending) (definitions.map (·.2))
        state.configuration.reasoningEffort).mapError (.new .invalidRequest)
      return {
        request
        clientToolNames := (definitions.filter (parts.isFunction ·.2)).map (·.1)
        hostedToolNames := (definitions.filter fun definition =>
          !parts.isFunction definition.2 && parts.isHosted definition.2).map (·.1)
        durableTail := state.tailSequence }

/-- `TurnRequestSnapshot::build`. -/
def build (parts : RequestParts Definition Request) (state : MaterializedSessionState) :
    Except KernelError (TurnRequestSnapshot Request) :=
  buildWithPendingMessages parts state []

end TurnRequestSnapshot

/-! ### Errors that do not concern the head -/

/-- The error is neither of the two about the head of a compacted transcript. -/
def KernelError.SparesHead (error : KernelError) : Prop :=
  error ≠ summaryMissing ∧ error ≠ summaryNotHead

theorem KernelError.sparesHead_of_code {error : KernelError} (h : error.code ≠ .invalidState) :
    error.SparesHead :=
  ⟨fun same => h (same ▸ rfl), fun same => h (same ▸ rfl)⟩

variable {e : KernelError} {state : MaterializedSessionState}

theorem sparesHead_of_mapError {ε α : Type} {x : Except ε α} {f : ε → KernelError}
    (codes : ∀ error, (f error).code ≠ .invalidState) (h : x.mapError f = .error e) :
    e.SparesHead := by
  cases x with
  | ok _ => cases h
  | error error =>
    cases h
    exact KernelError.sparesHead_of_code (codes error)

theorem projectSummaryBlock_sparesHead {block : ContentBlock}
    (h : projectSummaryBlock block = .error e) : e.SparesHead := by
  cases block with
  | text | contextualText => exact sparesHead_of_mapError (f := .ofContent) (fun _ => nofun) h
  | thinking | image | toolCall | hostedTool | citation =>
    cases h
    constructor <;> decide +kernel

theorem projectCompactionSummary_sparesHead {summary : CanonicalMessage}
    (h : projectCompactionSummary summary = .error e) : e.SparesHead := by
  cases summary with
  | user | toolResult =>
    cases h
    constructor <;> decide +kernel
  | assistant id content stopReason timestamp =>
    rw [projectCompactionSummary] at h
    cases projected : content.mapM projectSummaryBlock with
    | ok content =>
      rw [projected] at h
      exact sparesHead_of_mapError (f := .ofMessage) (fun _ => nofun) h
    | error error =>
      rw [projected] at h
      cases h
      obtain ⟨block, -, failed⟩ := exists_of_mapM_eq_error projected
      exact projectSummaryBlock_sparesHead failed

/-! ### The head of a compacted transcript -/

/-- If the branch was compacted then its transcript starts with the latest summary. -/
def BranchProjection.HeadedBySummary (p : BranchProjection) : Prop :=
  ∀ compaction, p.latestCompaction = some compaction → p.messages.head? = some compaction.summary

/-- A transcript that starts with the latest summary is projected, or the summary itself is bad. -/
theorem BranchProjection.HeadedBySummary.projectModelMessages
    (h : (capture state).HeadedBySummary)
    (failed : projectModelMessages state = .error e) : e.SparesHead := by
  unfold TeaRs.projectModelMessages at failed
  split at failed
  · cases failed
  · next compaction found =>
    have head := h compaction found
    split at failed
    · next empty => simp [capture, empty] at head
    · next summary remainder messages =>
      have same : summary = compaction.summary := by
        simpa [capture, messages] using head
      rw [if_pos same] at failed
      cases projected : projectCompactionSummary summary with
      | ok _ =>
        rw [projected] at failed
        cases failed
      | error error =>
        rw [projected] at failed
        cases failed
        exact projectCompactionSummary_sparesHead projected

theorem BranchProjection.HeadedBySummary.build {Definition Request : Type}
    {parts : RequestParts Definition Request}
    (h : (capture state).HeadedBySummary) {pending : List CanonicalMessage}
    (failed : TurnRequestSnapshot.buildWithPendingMessages parts state pending = .error e) :
    e.SparesHead := by
  unfold TurnRequestSnapshot.buildWithPendingMessages at failed
  split at failed
  · cases failed
    exact KernelError.sparesHead_of_code nofun
  · split_ifs at failed
    · cases failed
      exact KernelError.sparesHead_of_code nofun
    · rcases except_bind_eq_error.mp failed with failed | ⟨definitions, -, failed⟩
      · exact sparesHead_of_mapError (f := .new .invalidRequest) (fun _ => nofun) failed
      rcases except_bind_eq_error.mp failed with failed | ⟨messages, -, failed⟩
      · exact h.projectModelMessages failed
      rcases except_bind_eq_error.mp failed with failed | ⟨request, -, failed⟩
      · exact sparesHead_of_mapError (f := .new .invalidRequest) (fun _ => nofun) failed
      · cases failed

namespace SessionReducer

variable {log : List RecordEnvelope} {r q : SessionReducer} {s t : MaterializedSessionState}
  {e : RecordEnvelope}

/-- A record keeps the latest summary at the head: a message is added at the end, and a compaction
sets the head with the summary. -/
theorem RecordStep.headedBySummary (h : RecordStep r s e q t)
    (headed : (capture s).HeadedBySummary) :
    (capture t).HeadedBySummary := by
  intro compaction found
  cases h with
  | message | toolResult =>
    change (s.messages ++ _).head? = _
    rw [List.head?_append, show s.messages.head? = _ from headed compaction found]
    rfl
  | compacted =>
    cases found
    rfl
  | configuration | requested | tool | approvalRequested | approvalResolved | runInterrupted
  | runCancelled | checkpointed => exact headed compaction found

/-- After every accepted log the transcripts of all branches start with their latest summary, and no
request is refused because the summary is missing or is not the head. -/
theorem accepted_headedBySummary (h : Accepted log r) (hs : r.state = some s) :
    (∀ (b : BranchId) head, r.branchHeads[b]? = some head → head.projection.HeadedBySummary) ∧
      (capture s).HeadedBySummary ∧
      ∀ (Definition Request : Type) (parts : RequestParts Definition Request) pending e,
        (TurnRequestSnapshot.build parts s = .error e ∨
          TurnRequestSnapshot.buildWithPendingMessages parts s pending = .error e) →
        e ≠ summaryMissing ∧ e ≠ summaryNotHead := by
  obtain ⟨heads, -, state⟩ := h.projections (P := BranchProjection.HeadedBySummary)
    (fun _ _ _ => nofun) fun _ _ _ _ _ _ _ _ _ step => step.headedBySummary
  refine ⟨heads, state s hs, fun Definition Request parts pending e failed => ?_⟩
  rcases failed with failed | failed <;> exact (state s hs).build failed

theorem accepted_headedBySummary_compacted :
    ∃ s, (reducerOf (twoMessages ++ [compactionThrough ⟨2⟩])).state = some s ∧
      s.latestCompaction.isSome = true ∧ (capture s).HeadedBySummary := by
  have accepted : Accepted (twoMessages ++ [compactionThrough ⟨2⟩]) _ :=
    accepted_reducerOf (by decide +kernel)
  have found : (reducerOf (twoMessages ++ [compactionThrough ⟨2⟩])).state.any
      (fun s => s.latestCompaction.isSome) = true := by decide +kernel
  obtain ⟨s, hs, compacted⟩ := (Option.any_eq_true _ _).mp found
  exact ⟨s, hs, compacted, (accepted_headedBySummary accepted hs).2.1⟩

end SessionReducer

end TeaRs
