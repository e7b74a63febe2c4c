import TeaRs.Lib.Recognizer
import TeaRs.Lib.StateError
import TeaRs.Model.Event

/-!
# The grammar of a model stream

`ModelStreamValidator` (`tea-model/src/stream.rs`) reads the events of a response one after another
and refuses those that do not follow the grammar of normalized streams. The grammar is stated here on
the list of events, without the maps of the validator, and the validator is shown to decide it.

## Main definitions

* `ModelStreamValidator`, `ModelStreamValidator.observe`, `ModelStreamValidator.finish`.
* `ToolRef`: a tool that a stream starts or completes.
* `ModelEvent.Refers`: what an event refers to was started or completed before it.
* `StreamGrammar`: the streams that are well formed.

## Main results

* `ModelStreamValidator.observe_eq_error`: a refused event leaves the validator as it was.
* `ModelStreamValidator.stream_accepts_iff`: the validator accepts exactly the well-formed streams.
-/

namespace TeaRs

open StateError ModelEvent List

/-! ### The validator -/

/-- `ModelStreamViolation`. -/
inductive ModelStreamViolation where
  | eventBeforeStart | missingStart | duplicateStart | missingTerminal | eventAfterTerminal
  | duplicateToolIndex | unknownToolIndex | toolIdentityMismatch | incompleteToolCalls
  | unknownHostedCitation
  deriving DecidableEq, Repr

/-- `ModelStreamValidator`. -/
structure ModelStreamValidator where
  started : Bool
  terminal : Option Bool
  eventCount : Nat
  completedToolCalls : Nat
  completedHostedTools : Nat
  activeTools : BTreeMap ModelStreamIndex (ProviderToolCallId × String)
  activeHostedTools : BTreeMap ModelStreamIndex (ProviderToolCallId × String)
  completedHostedIds : BTreeSet ProviderToolCallId
  seenToolIndexes : BTreeSet ModelStreamIndex

/-- `ModelStreamSummary`. -/
structure ModelStreamSummary where
  eventCount : Nat
  completedToolCalls : Nat
  completedHostedTools : Nat
  succeeded : Bool
  deriving DecidableEq, Repr

namespace ModelStreamValidator

/-- Programs on a validator. What was changed before a violation stays changed. -/
abbrev M := EStateM ModelStreamViolation ModelStreamValidator

/-- `ModelStreamValidator::new`. -/
def new : ModelStreamValidator := ⟨false, none, 0, 0, 0, ∅, ∅, ∅, ∅⟩

/-- Returns with a violation unless the condition holds. -/
def require (condition : Bool) (violation : ModelStreamViolation) : M Unit :=
  if condition then pure () else throw violation

/-- The entry of an active tool, which must have the given identity. -/
def requireActive (active : BTreeMap ModelStreamIndex (ProviderToolCallId × String))
    (index : ModelStreamIndex) (identity : ProviderToolCallId × String → Bool) : M Unit :=
  match active[index]? with
  | none => throw .unknownToolIndex
  | some entry => require (identity entry) .toolIdentityMismatch

/-- The match of `ModelStreamValidator::observe` on an event of a started stream. -/
def observeStarted : ModelEvent → M Unit
  | .started _ => throw .duplicateStart
  | .toolCallStarted call => do
    require (!(← get).seenToolIndexes.contains call.index) .duplicateToolIndex
    modify fun v => { v with seenToolIndexes := v.seenToolIndexes.insert call.index }
    modify fun v =>
      { v with activeTools := v.activeTools.insert call.index (call.providerCallId, call.toolName) }
  | .hostedToolStarted call => do
    require (!(← get).seenToolIndexes.contains call.index) .duplicateToolIndex
    modify fun v => { v with seenToolIndexes := v.seenToolIndexes.insert call.index }
    modify fun v =>
      { v with
        activeHostedTools :=
          v.activeHostedTools.insert call.index (call.providerCallId, call.toolName) }
  | .toolArgumentsDelta delta => do
    requireActive (← get).activeTools delta.index fun entry => entry.1 == delta.providerCallId
  | .toolCallCompleted call => do
    requireActive (← get).activeTools call.index fun entry =>
      entry == (call.providerCallId, call.toolName)
    modify fun v => { v with activeTools := v.activeTools.erase call.index }
    modify fun v => { v with completedToolCalls := v.completedToolCalls + 1 }
  | .hostedToolCompleted call => do
    requireActive (← get).activeHostedTools call.index fun entry =>
      entry == (call.providerCallId, call.toolName)
    modify fun v => { v with activeHostedTools := v.activeHostedTools.erase call.index }
    modify fun v => { v with completedHostedIds := v.completedHostedIds.insert call.providerCallId }
    modify fun v => { v with completedHostedTools := v.completedHostedTools + 1 }
  | .sourceCitation citation => do
    require ((citation.providerCallId.all (← get).completedHostedIds.contains))
      .unknownHostedCitation
  | .completed _ => do
    require ((← get).activeTools.isEmpty && (← get).activeHostedTools.isEmpty) .incompleteToolCalls
    modify fun v => { v with terminal := some true }
  | .failed _ => modify fun v => { v with terminal := some false }
  | .textDelta _ | .thinkingDelta _ => pure ()

/-- `ModelStreamValidator::observe`. -/
def observe (event : ModelEvent) : M Unit := do
  if (← get).terminal.isSome then throw .eventAfterTerminal
  else if (← get).started then
    observeStarted event
    modify fun v => { v with eventCount := v.eventCount + 1 }
  else if event.isStarted then
    modify fun v => { v with started := true }
    modify fun v => { v with eventCount := v.eventCount + 1 }
  else throw .eventBeforeStart

/-- `ModelStreamValidator::finish`. -/
def finish (v : ModelStreamValidator) : Except ModelStreamViolation ModelStreamSummary :=
  if !v.started then .error .missingStart
  else
    match v.terminal with
    | none => .error .missingTerminal
    | some succeeded =>
      .ok ⟨v.eventCount, v.completedToolCalls, v.completedHostedTools, succeeded⟩

end ModelStreamValidator

/-! ### The grammar -/

/-- Who executes a tool. -/
inductive ToolKind where
  | client | hosted
  deriving DecidableEq, Repr

/-- A tool that an event starts or completes. -/
structure ToolRef where
  kind : ToolKind
  index : ModelStreamIndex
  providerCallId : ProviderToolCallId
  toolName : String
  deriving DecidableEq

namespace ModelEvent

/-- The tool that an event starts. -/
def startOf : ModelEvent → Option ToolRef
  | toolCallStarted call => some ⟨.client, call.index, call.providerCallId, call.toolName⟩
  | hostedToolStarted call => some ⟨.hosted, call.index, call.providerCallId, call.toolName⟩
  | _ => none

/-- The tool that an event completes. -/
def completionOf : ModelEvent → Option ToolRef
  | toolCallCompleted call => some ⟨.client, call.index, call.providerCallId, call.toolName⟩
  | hostedToolCompleted call => some ⟨.hosted, call.index, call.providerCallId, call.toolName⟩
  | _ => none

end ModelEvent

/-- The tools that events start, in order. -/
def toolStarts (events : List ModelEvent) : List ToolRef := events.filterMap startOf

/-- The tools that events complete, in order. -/
def toolCompletions (events : List ModelEvent) : List ToolRef :=
  events.filterMap completionOf

/-- A tool was started and is not completed yet. -/
def OpenTool (events : List ModelEvent) (tool : ToolRef) : Prop :=
  tool ∈ toolStarts events ∧ tool ∉ toolCompletions events

/-- What an event refers to is in the events before it: a fragment of arguments and a completion
belong to a tool that is open, and a citation with an identifier to a hosted tool that is
completed. -/
def ModelEvent.Refers (before : List ModelEvent) : ModelEvent → Prop
  | .toolArgumentsDelta delta =>
    ∃ toolName, OpenTool before ⟨.client, delta.index, delta.providerCallId, toolName⟩
  | .toolCallCompleted call =>
    OpenTool before ⟨.client, call.index, call.providerCallId, call.toolName⟩
  | .hostedToolCompleted call =>
    OpenTool before ⟨.hosted, call.index, call.providerCallId, call.toolName⟩
  | .sourceCitation citation => ∀ id, citation.providerCallId = some id →
    ∃ tool ∈ toolCompletions before, tool.kind = .hosted ∧ tool.providerCallId = id
  | _ => True

/-- A well-formed stream: a start, a body and an end. In the body every stream index is started at
most once and every event refers to something before it; a response is completed only with every
tool. -/
def StreamGrammar (events : List ModelEvent) : Prop :=
  ∃ info body last, events = .started info :: (body ++ [last]) ∧
    (∀ event ∈ body, event.isStarted = false ∧ event.isTerminal = false) ∧
    last.isTerminal = true ∧
    ((toolStarts body).map ToolRef.index).Nodup ∧
    EachFits ModelEvent.Refers body ∧
    (last.isCompleted = true → ∀ tool ∈ toolStarts body, tool ∈ toolCompletions body)

/-! ### One step of the validator -/

namespace ModelStreamValidator

variable {v v' : ModelStreamValidator} {event : ModelEvent}

/-- Whether the validator takes an event of a started stream. -/
def Takes (v : ModelStreamValidator) : ModelEvent → Prop
  | .started _ => False
  | .toolCallStarted call => call.index ∉ v.seenToolIndexes
  | .hostedToolStarted call => call.index ∉ v.seenToolIndexes
  | .toolArgumentsDelta delta =>
    ∃ toolName, v.activeTools[delta.index]? = some (delta.providerCallId, toolName)
  | .toolCallCompleted call =>
    v.activeTools[call.index]? = some (call.providerCallId, call.toolName)
  | .hostedToolCompleted call =>
    v.activeHostedTools[call.index]? = some (call.providerCallId, call.toolName)
  | .sourceCitation citation =>
    ∀ id, citation.providerCallId = some id → id ∈ v.completedHostedIds
  | .completed _ => (∀ index : ModelStreamIndex, v.activeTools[index]? = none) ∧
    ∀ index : ModelStreamIndex, v.activeHostedTools[index]? = none
  | .failed _ | .textDelta _ | .thinkingDelta _ => True

/-- The validator after an event of a started stream that it takes. -/
def after (v : ModelStreamValidator) : ModelEvent → ModelStreamValidator
  | .toolCallStarted call =>
    { v with
      seenToolIndexes := v.seenToolIndexes.insert call.index
      activeTools := v.activeTools.insert call.index (call.providerCallId, call.toolName)
      eventCount := v.eventCount + 1 }
  | .hostedToolStarted call =>
    { v with
      seenToolIndexes := v.seenToolIndexes.insert call.index
      activeHostedTools :=
        v.activeHostedTools.insert call.index (call.providerCallId, call.toolName)
      eventCount := v.eventCount + 1 }
  | .toolCallCompleted call =>
    { v with
      activeTools := v.activeTools.erase call.index
      completedToolCalls := v.completedToolCalls + 1
      eventCount := v.eventCount + 1 }
  | .hostedToolCompleted call =>
    { v with
      activeHostedTools := v.activeHostedTools.erase call.index
      completedHostedIds := v.completedHostedIds.insert call.providerCallId
      completedHostedTools := v.completedHostedTools + 1
      eventCount := v.eventCount + 1 }
  | .completed _ => { v with terminal := some true, eventCount := v.eventCount + 1 }
  | .failed _ => { v with terminal := some false, eventCount := v.eventCount + 1 }
  | _ => { v with eventCount := v.eventCount + 1 }

theorem require_run (condition : Bool) (violation : ModelStreamViolation) :
    require condition violation v = if condition then .ok () v else .error violation v := by
  rw [require]
  split_ifs <;> rfl

/-- The check of an active tool passes exactly if the tool is active with that identity, and changes
nothing. -/
theorem requireActive_run (active : BTreeMap ModelStreamIndex (ProviderToolCallId × String))
    (index : ModelStreamIndex) (identity : ProviderToolCallId × String → Bool) :
    ((∃ entry, active[index]? = some entry ∧ identity entry = true) ∧
        requireActive active index identity v = .ok () v) ∨
      (¬(∃ entry, active[index]? = some entry ∧ identity entry = true) ∧
        ∃ violation, requireActive active index identity v = .error violation v) := by
  rw [requireActive]
  cases found : active[index]? with
  | none => exact .inr ⟨by simp, _, rfl⟩
  | some entry =>
    cases same : identity entry with
    | true => exact .inl ⟨⟨entry, rfl, same⟩, (require_run _ _).trans (by rw [same]; rfl)⟩
    | false => exact .inr ⟨by simp [same], _, (require_run _ _).trans (by rw [same]; rfl)⟩

theorem observe_run (live : v.terminal = none) (started : v.started = true) :
    observe event v = (observeStarted event >>= fun _ =>
      modify fun v => { v with eventCount := v.eventCount + 1 }) v := by
  simp [observe, bind_run, live, started]

variable {violation : ModelStreamViolation} {change : M Unit} {index : ModelStreamIndex}
  {events : List ModelEvent}

theorem observe_of_require (live : v.terminal = none) (started : v.started = true)
    {condition : Bool}
    (program : observeStarted event v = (require condition violation >>= fun _ => change) v)
    (takes : condition = true ↔ v.Takes event)
    (changes : (change >>= fun _ => modify fun v => { v with eventCount := v.eventCount + 1 }) v =
      .ok () (v.after event)) :
    (v.Takes event ∧ observe event v = .ok () (v.after event)) ∨
      (¬v.Takes event ∧ ∃ violation, observe event v = .error violation v) := by
  rw [observe_run live started, bind_run, program, bind_run, require_run, ← takes]
  cases condition with
  | true => exact .inl ⟨rfl, changes⟩
  | false => exact .inr ⟨by simp, violation, rfl⟩

theorem observe_of_requireActive (live : v.terminal = none) (started : v.started = true)
    {active : BTreeMap ModelStreamIndex (ProviderToolCallId × String)}
    {identity : ProviderToolCallId × String → Bool}
    (program : observeStarted event v = (requireActive active index identity >>= fun _ => change) v)
    (takes : (∃ entry, active[index]? = some entry ∧ identity entry = true) ↔ v.Takes event)
    (changes : (change >>= fun _ => modify fun v => { v with eventCount := v.eventCount + 1 }) v =
      .ok () (v.after event)) :
    (v.Takes event ∧ observe event v = .ok () (v.after event)) ∨
      (¬v.Takes event ∧ ∃ violation, observe event v = .error violation v) := by
  rw [observe_run live started, bind_run, program, bind_run, ← takes]
  rcases requireActive_run active index identity with ⟨holds, run⟩ | ⟨fails, violation, run⟩
  · exact .inl ⟨holds, by rw [run]; exact changes⟩
  · exact .inr ⟨fails, violation, by rw [run]⟩

theorem isEmpty_iff {active : BTreeMap ModelStreamIndex (ProviderToolCallId × String)} :
    active.isEmpty = true ↔ ∀ index : ModelStreamIndex, active[index]? = none := by
  rw [Std.ExtTreeMap.isEmpty_iff]
  constructor
  · rintro rfl index
    rfl
  · intro empty
    refine Std.ExtTreeMap.ext_getElem? fun index => ?_
    rw [empty]
    rfl

/-- Of a started stream the validator takes exactly the events it may take; a refused event leaves
it as it was. -/
theorem observe_cases (live : v.terminal = none) (started : v.started = true) (event : ModelEvent) :
    (v.Takes event ∧ observe event v = .ok () (v.after event)) ∨
      (¬v.Takes event ∧ ∃ violation, observe event v = .error violation v) := by
  cases event with
  | started info =>
    exact .inr ⟨id, .duplicateStart, by rw [observe_run live started]; rfl⟩
  | textDelta delta | thinkingDelta delta | failed failure =>
    exact .inl ⟨trivial, by rw [observe_run live started]; rfl⟩
  | toolCallStarted call | hostedToolStarted call =>
    refine observe_of_require live started rfl ?_ rfl
    rw [Bool.not_eq_true', BTreeSet.contains_eq_false_iff, Takes]
  | toolArgumentsDelta delta =>
    have program : observeStarted (.toolArgumentsDelta delta) v =
        (requireActive v.activeTools delta.index (fun entry => entry.1 == delta.providerCallId) >>=
          fun _ => pure ()) v := by
      change _ = (requireActive _ _ _ >>= pure) v
      rw [bind_pure]
      rfl
    refine observe_of_requireActive live started program ?_ rfl
    constructor
    · rintro ⟨⟨id, toolName⟩, found, same⟩
      exact ⟨toolName, by rw [found, ← eq_of_beq same]⟩
    · rintro ⟨toolName, found⟩
      exact ⟨_, found, beq_self_eq_true _⟩
  | toolCallCompleted call | hostedToolCompleted call =>
    refine observe_of_requireActive live started rfl ?_ rfl
    simp [Takes]
  | sourceCitation citation =>
    have program : observeStarted (.sourceCitation citation) v =
        (require (citation.providerCallId.all v.completedHostedIds.contains) .unknownHostedCitation >>=
          fun _ => pure ()) v := by
      change _ = (require _ _ >>= pure) v
      rw [bind_pure]
      rfl
    refine observe_of_require live started program ?_ rfl
    simp [Takes, Option.all_eq_true]
  | completed completion =>
    refine observe_of_require live started rfl ?_ rfl
    rw [Bool.and_eq_true, isEmpty_iff, isEmpty_iff, Takes]

theorem observe_of_not_started (live : v.terminal = none) (waiting : v.started = false) :
    observe event v = if event.isStarted then
      .ok () { v with started := true, eventCount := v.eventCount + 1 }
    else .error .eventBeforeStart v := by
  cases first : event.isStarted <;>
    simp [observe, bind_run, live, waiting, first]

theorem observe_of_terminal (ended : v.terminal ≠ none) :
    observe event v = .error .eventAfterTerminal v := by
  obtain ⟨succeeded, terminal⟩ := Option.ne_none_iff_exists'.mp ended
  simp [observe, bind_run, terminal]

/-- A refused event leaves the validator as it was. -/
theorem observe_eq_error (refused : observe event v = .error violation v') : v' = v := by
  by_cases live : v.terminal = none
  · cases started : v.started with
    | true =>
      rcases observe_cases live started event with ⟨-, run⟩ | ⟨-, other, run⟩
      · rw [run] at refused
        cases refused
      · rw [run] at refused
        cases refused
        rfl
    | false =>
      rw [observe_of_not_started live started] at refused
      split_ifs at refused
      cases refused
      rfl
  · rw [observe_of_terminal live] at refused
    cases refused
    rfl

/-! ### What the state says about the stream -/

/-- The active tools of one kind. -/
def activeOf (v : ModelStreamValidator) :
    ToolKind → BTreeMap ModelStreamIndex (ProviderToolCallId × String)
  | .client => v.activeTools
  | .hosted => v.activeHostedTools

/-- The maps hold the tools that are open. -/
def HoldsOpen (active : ToolKind → BTreeMap ModelStreamIndex (ProviderToolCallId × String))
    (seen : List ModelEvent) : Prop :=
  ∀ tool : ToolRef, (active tool.kind)[tool.index]? = some (tool.providerCallId, tool.toolName) ↔
    OpenTool seen tool

/-- The state of the validator after some events. -/
structure Describes (seen : List ModelEvent) (v : ModelStreamValidator) : Prop where
  started : v.started = true ↔ seen ≠ []
  terminal : v.terminal ≠ none ↔ ∃ event ∈ seen, event.isTerminal = true
  active : HoldsOpen v.activeOf seen
  hostedIds : ∀ id, id ∈ v.completedHostedIds ↔
    ∃ tool ∈ toolCompletions seen, tool.kind = .hosted ∧ tool.providerCallId = id
  indexes : ∀ index, index ∈ v.seenToolIndexes ↔ index ∈ (toolStarts seen).map ToolRef.index
  distinct : ((toolStarts seen).map ToolRef.index).Nodup
  completed : ∀ tool ∈ toolCompletions seen, tool ∈ toolStarts seen

theorem describes_new : Describes [] new where
  started := by simp [new]
  terminal := by simp [new]
  active tool := by
    cases h : tool.kind <;> simp [activeOf, new, OpenTool, toolStarts]
  hostedIds id := by simp [new, toolCompletions]
  indexes index := by simp [new, toolStarts]
  distinct := nodup_nil
  completed := by simp [toolCompletions]

variable {seen : List ModelEvent} {tool : ToolRef}
variable {active : ToolKind → BTreeMap ModelStreamIndex (ProviderToolCallId × String)}

theorem toolStarts_snoc (seen : List ModelEvent) (event : ModelEvent) :
    toolStarts (seen ++ [event]) = toolStarts seen ++ event.startOf.toList := by
  rw [toolStarts, filterMap_append, toolStarts]
  cases h : event.startOf <;> simp [h]

theorem toolCompletions_snoc (seen : List ModelEvent) (event : ModelEvent) :
    toolCompletions (seen ++ [event]) = toolCompletions seen ++ event.completionOf.toList := by
  rw [toolCompletions, filterMap_append, toolCompletions]
  cases h : event.completionOf <;> simp [h]

theorem HoldsOpen.start (holds : HoldsOpen active seen)
    (completed : ∀ tool ∈ toolCompletions seen, tool ∈ toolStarts seen)
    (starts : event.startOf = some tool) (completes : event.completionOf = none)
    (fresh : tool.index ∉ (toolStarts seen).map ToolRef.index) :
    HoldsOpen (Function.update active tool.kind
      ((active tool.kind).insert tool.index (tool.providerCallId, tool.toolName)))
      (seen ++ [event]) := by
  have new : ∀ other ∈ toolStarts seen, other.index ≠ tool.index := fun other mem same =>
    fresh (mem_map.mpr ⟨other, mem, same⟩)
  intro other
  rw [OpenTool, toolStarts_snoc, toolCompletions_snoc, starts, completes]
  simp only [Option.toList_some, Option.toList_none, append_nil, mem_append,
    mem_singleton]
  by_cases kind : other.kind = tool.kind
  · rw [kind, Function.update_self, BTreeMap.getElem?_insert_eq, ← kind]
    split_ifs with index
    · -- Only the new tool has this index.
      have absent : other ∉ toolStarts seen := fun mem => new other mem index
      have same : (tool.providerCallId, tool.toolName) = (other.providerCallId, other.toolName) ↔
          other = tool := by
        obtain ⟨_, _, _, _⟩ := other
        obtain ⟨_, _, _, _⟩ := tool
        dsimp only at kind index
        subst kind index
        simp [eq_comm]
      rw [Option.some.injEq, same]
      constructor
      · intro same
        exact ⟨.inr same, fun mem => absent (completed other mem)⟩
      · exact fun opened => opened.1.resolve_left absent
    · rw [holds other, OpenTool]
      have distinct : other ≠ tool := fun same => index (congrArg ToolRef.index same)
      simp [distinct]
  · rw [Function.update_of_ne kind, holds other, OpenTool]
    have distinct : other ≠ tool := fun same => kind (congrArg ToolRef.kind same)
    simp [distinct]

theorem HoldsOpen.complete (holds : HoldsOpen active seen)
    (distinct : ((toolStarts seen).map ToolRef.index).Nodup)
    (starts : event.startOf = none) (completes : event.completionOf = some tool)
    (opened : OpenTool seen tool) :
    HoldsOpen (Function.update active tool.kind ((active tool.kind).erase tool.index))
      (seen ++ [event]) := by
  intro other
  rw [OpenTool, toolStarts_snoc, toolCompletions_snoc, starts, completes]
  simp only [Option.toList_some, Option.toList_none, append_nil, mem_append,
    mem_singleton, not_or]
  by_cases kind : other.kind = tool.kind
  · rw [kind, Function.update_self, BTreeMap.getElem?_erase_eq, ← kind]
    split_ifs with index
    · have same : other ∈ toolStarts seen → other = tool := fun mem =>
        inj_on_of_nodup_map distinct mem opened.1 index
      constructor
      · intro h
        cases h
      · rintro ⟨mem, -, other⟩
        exact absurd (same mem) other
    · rw [holds other, OpenTool]
      have distinct : other ≠ tool := fun same => index (congrArg ToolRef.index same)
      simp [distinct]
  · rw [Function.update_of_ne kind, holds other, OpenTool]
    have distinct : other ≠ tool := fun same => kind (congrArg ToolRef.kind same)
    simp [distinct]

theorem HoldsOpen.other (holds : HoldsOpen active seen) (starts : event.startOf = none)
    (completes : event.completionOf = none) : HoldsOpen active (seen ++ [event]) := by
  intro other
  rw [OpenTool, toolStarts_snoc, toolCompletions_snoc, starts, completes, Option.toList_none,
    append_nil, append_nil]
  exact holds other

/-- What an event of a started stream needs from the events before it. -/
structure Follows (seen : List ModelEvent) (event : ModelEvent) : Prop where
  fresh : ∀ tool, event.startOf = some tool → tool.index ∉ (toolStarts seen).map ToolRef.index
  refers : event.Refers seen
  complete : event.isCompleted = true → ∀ tool ∈ toolStarts seen, tool ∈ toolCompletions seen

theorem Describes.takes_iff (state : Describes seen v) (event : ModelEvent) :
    v.Takes event ↔ event.isStarted = false ∧ Follows seen event := by
  have free : event.startOf = none → event.isCompleted = false →
      (Follows seen event ↔ event.Refers seen) := fun starts completed =>
    ⟨fun follows => follows.refers, fun refers =>
      ⟨by simp [starts], refers, by simp [completed]⟩⟩
  cases event with
  | started info => simp [Takes, isStarted]
  | textDelta delta | thinkingDelta delta | failed failure =>
    rw [free rfl rfl]
    exact ⟨fun _ => ⟨rfl, trivial⟩, fun _ => trivial⟩
  | toolCallStarted call | hostedToolStarted call =>
    rw [Takes, state.indexes]
    constructor
    · intro fresh
      exact ⟨rfl, by rintro _ ⟨⟩; exact fresh, trivial, fun h => by cases h⟩
    · exact fun follows => follows.2.fresh _ rfl
  | toolArgumentsDelta delta =>
    rw [free rfl rfl]
    have active (toolName : String) :=
      state.active ⟨.client, delta.index, delta.providerCallId, toolName⟩
    simp only [activeOf] at active
    simp only [Takes, active]
    exact ⟨fun opened => ⟨rfl, opened⟩, fun follows => follows.2⟩
  | toolCallCompleted call =>
    rw [free rfl rfl]
    exact (state.active ⟨.client, call.index, call.providerCallId, call.toolName⟩).trans
      ⟨fun opened => ⟨rfl, opened⟩, fun follows => follows.2⟩
  | hostedToolCompleted call =>
    rw [free rfl rfl]
    exact (state.active ⟨.hosted, call.index, call.providerCallId, call.toolName⟩).trans
      ⟨fun opened => ⟨rfl, opened⟩, fun follows => follows.2⟩
  | sourceCitation citation =>
    rw [free rfl rfl]
    simp only [Takes, state.hostedIds]
    exact ⟨fun refers => ⟨rfl, refers⟩, fun follows => follows.2⟩
  | completed completion =>
    constructor
    · rintro ⟨noClient, noHosted⟩
      refine ⟨rfl, by simp [startOf], trivial, fun _ tool mem => ?_⟩
      by_contra missing
      have entry := (state.active tool).mpr ⟨mem, missing⟩
      obtain ⟨kind, index, id, name⟩ := tool
      cases kind with
      | client => exact absurd (entry.symm.trans (noClient index)) (by simp)
      | hosted => exact absurd (entry.symm.trans (noHosted index)) (by simp)
    · rintro ⟨-, follows⟩
      have none (kind : ToolKind) (index : ModelStreamIndex) :
          (v.activeOf kind)[index]? = none := by
        rw [Option.eq_none_iff_forall_ne_some]
        rintro ⟨id, name⟩ entry
        have opened := (state.active ⟨kind, index, id, name⟩).mp entry
        exact opened.2 (follows.complete rfl _ opened.1)
      exact ⟨none .client, none .hosted⟩

theorem hostedIds_snoc {id : ProviderToolCallId} :
    (∃ tool ∈ toolCompletions (seen ++ [event]), tool.kind = .hosted ∧ tool.providerCallId = id) ↔
      (∃ tool ∈ toolCompletions seen, tool.kind = .hosted ∧ tool.providerCallId = id) ∨
        ∃ tool, event.completionOf = some tool ∧ tool.kind = .hosted ∧ tool.providerCallId = id :=
    by
  rw [toolCompletions_snoc]
  simp only [mem_append, Option.mem_toList, or_and_right, exists_or]

theorem indexes_snoc : index ∈ (toolStarts (seen ++ [event])).map ToolRef.index ↔
      index ∈ (toolStarts seen).map ToolRef.index ∨
        ∃ tool, event.startOf = some tool ∧ tool.index = index := by
  rw [toolStarts_snoc, map_append, mem_append]
  simp only [mem_map, Option.mem_toList]

/-- After an event that may follow, the maps hold the open tools of the longer stream. -/
theorem Describes.holdsOpen_after (state : Describes seen v) (follows : Follows seen event) :
    HoldsOpen (v.after event).activeOf (seen ++ [event]) := by
  cases event with
  | toolCallStarted call | hostedToolStarted call =>
    refine Eq.subst (motive := fun active => HoldsOpen active _) ?_
      (state.active.start state.completed rfl rfl (follows.fresh _ rfl))
    funext kind
    cases kind <;> rfl
  | toolCallCompleted call | hostedToolCompleted call =>
    refine Eq.subst (motive := fun active => HoldsOpen active _) ?_
      (state.active.complete state.distinct rfl rfl follows.refers)
    funext kind
    cases kind <;> rfl
  | started | textDelta | thinkingDelta | toolArgumentsDelta | sourceCitation | completed | failed =>
    refine Eq.subst (motive := fun active => HoldsOpen active _) ?_ (state.active.other rfl rfl)
    funext kind
    cases kind <;> rfl

theorem Describes.completed_after (state : Describes seen v) (follows : Follows seen event) :
    ∀ tool ∈ toolCompletions (seen ++ [event]), tool ∈ toolStarts (seen ++ [event]) := by
  rw [toolStarts_snoc, toolCompletions_snoc]
  intro tool mem
  refine mem_append_left _ ?_
  rcases mem_append.mp mem with mem | mem
  · exact state.completed tool mem
  · have refers := follows.refers
    cases event <;> simp only [completionOf, Option.toList_some, Option.toList_none,
      mem_singleton, not_mem_nil] at mem
    all_goals exact mem ▸ refers.1

/-- The state after an event that may follow describes the longer stream. -/
theorem Describes.after (state : Describes seen v) (nonempty : seen ≠ [])
    (live : v.terminal = none) (follows : Follows seen event) :
    Describes (seen ++ [event]) (v.after event) where
  started := by
    have started := state.started.mpr nonempty
    cases event <;> simp [after, started]
  terminal := by
    have unended : ¬∃ event ∈ seen, event.isTerminal = true :=
      fun ended => state.terminal.mpr ended live
    have ends : (∃ other ∈ seen ++ [event], other.isTerminal = true) ↔ event.isTerminal = true := by
      simp only [mem_append, mem_singleton, or_and_right, exists_or, unended, false_or,
        exists_eq_left]
    rw [ends]
    cases event <;> simp [after, live, isTerminal]
  active := state.holdsOpen_after follows
  hostedIds id := by
    rw [hostedIds_snoc, ← state.hostedIds]
    cases event with
    | hostedToolCompleted call =>
      change id ∈ v.completedHostedIds.insert call.providerCallId ↔ _
      rw [BTreeSet.mem_insert_iff]
      simp [completionOf, or_comm, eq_comm]
    | _ => simp [after, completionOf]
  indexes index := by
    rw [indexes_snoc, ← state.indexes]
    cases event with
    | toolCallStarted call | hostedToolStarted call =>
      change index ∈ v.seenToolIndexes.insert call.index ↔ _
      rw [BTreeSet.mem_insert_iff]
      simp [startOf, or_comm, eq_comm]
    | _ => simp [after, startOf]
  distinct := by
    rw [toolStarts_snoc]
    cases starts : event.startOf with
    | none => simpa using state.distinct
    | some tool =>
      have nodup := state.distinct.concat (follows.fresh tool starts)
      simpa using nodup
  completed := state.completed_after follows

/-! ### The streams that are accepted -/

/-- The validator takes an event. -/
def Observes (v : ModelStreamValidator) (event : ModelEvent) (v' : ModelStreamValidator) : Prop :=
  observe event v = .ok () v'

/-- The validator takes all the events and finishes. -/
def Accepts (events : List ModelEvent) : Prop :=
  ∃ v, Run Observes new events v ∧ ∃ summary, v.finish = .ok summary

/-- The events that may come next: nothing after the end, the start first and only first, and then
what may follow. -/
structure Fits (seen : List ModelEvent) (event : ModelEvent) : Prop where
  live : ∀ other ∈ seen, other.isTerminal = false
  start : event.isStarted = true ↔ seen = []
  follows : Follows seen event

theorem follows_nil (first : event.isStarted = true) : Follows [] event := by
  cases event <;> cases first
  exact ⟨by simp [startOf], trivial, fun h => by cases h⟩

theorem Describes.live_iff (state : Describes seen v) :
    v.terminal = none ↔ ∀ other ∈ seen, other.isTerminal = false := by
  rw [← not_iff_not, ← ne_eq, state.terminal]
  simp

theorem Describes.observes_iff (state : Describes seen v) (event : ModelEvent) :
    (∃ v', Observes v event v') ↔ Fits seen event := by
  simp only [Observes]
  by_cases live : v.terminal = none
  · by_cases nonempty : seen = []
    · have waiting : v.started = false := by
        rw [← Bool.not_eq_true, state.started]
        exact not_not.mpr nonempty
      rw [observe_of_not_started live waiting]
      constructor
      · rintro ⟨v', run⟩
        split_ifs at run with first
        subst nonempty
        exact ⟨by simp, ⟨fun _ => rfl, fun _ => first⟩, follows_nil first⟩
      · intro fits
        rw [if_pos (fits.start.mpr nonempty)]
        exact ⟨_, rfl⟩
    · have plain : event.isStarted = false ↔ (event.isStarted = true ↔ seen = []) := by
        cases event.isStarted <;> simp [nonempty]
      rcases observe_cases live (state.started.mpr nonempty) event with
        ⟨takes, run⟩ | ⟨refuses, violation, run⟩
      · obtain ⟨notStarted, follows⟩ := (state.takes_iff event).mp takes
        rw [run]
        exact ⟨fun _ => ⟨state.live_iff.mp live, plain.mp notStarted, follows⟩, fun _ => ⟨_, rfl⟩⟩
      · rw [run]
        constructor
        · rintro ⟨v', run⟩
          cases run
        · exact fun fits => absurd ((state.takes_iff event).mpr ⟨plain.mpr fits.start, fits.follows⟩)
            refuses
  · rw [observe_of_terminal live]
    constructor
    · rintro ⟨v', run⟩
      cases run
    · exact fun fits => absurd (state.live_iff.mpr fits.live) live

theorem Describes.observes (state : Describes seen v) (run : Observes v event v') :
    Describes (seen ++ [event]) v' := by
  have fits := (state.observes_iff event).mp ⟨v', run⟩
  have live := state.live_iff.mpr fits.live
  rw [Observes] at run
  by_cases nonempty : seen = []
  · have waiting : v.started = false := by
      rw [← Bool.not_eq_true, state.started]
      exact not_not.mpr nonempty
    have first := fits.start.mpr nonempty
    rw [observe_of_not_started live waiting, if_pos first] at run
    cases run
    have next := (state.holdsOpen_after fits.follows)
    subst nonempty
    cases event <;> cases first
    exact
      { started := by simp
        terminal := by simp [live, isTerminal]
        active := next
        hostedIds := fun id => by rw [hostedIds_snoc, ← state.hostedIds]; simp [completionOf]
        indexes := fun index => by rw [indexes_snoc, ← state.indexes]; simp [startOf]
        distinct := nodup_nil
        completed := state.completed_after fits.follows }
  · rcases observe_cases live (state.started.mpr nonempty) event with
      ⟨-, taken⟩ | ⟨-, violation, refused⟩
    · rw [taken] at run
      cases run
      exact state.after nonempty live fits.follows
    · rw [refused] at run
      cases run

/-- The validator takes exactly the streams in which each event may come next, and its state then
describes the stream. -/
theorem exists_run_iff : (∃ v, Run Observes new events v) ↔ EachFits Fits events :=
  Run.exists_iff_eachFits describes_new (fun _ _ event state => state.observes_iff event)
    fun _ _ _ _ state run => state.observes run

theorem describes_of_run (run : Run Observes new events v) : Describes events v :=
  run.describes describes_new fun _ _ _ _ state run => state.observes run

theorem Describes.finish_iff (state : Describes seen v) :
    (∃ summary, v.finish = .ok summary) ↔ seen ≠ [] ∧ ∃ event ∈ seen, event.isTerminal = true := by
  rw [← state.started, ← state.terminal, finish]
  cases v.started <;> cases v.terminal <;> simp

variable {events body : List ModelEvent} {info : ModelResponseInfo} {last : ModelEvent}

theorem fits_cons_iff : Fits (.started info :: seen) event ↔
      (∀ other ∈ seen, other.isTerminal = false) ∧ event.isStarted = false ∧ Follows seen event :=
    by
  have start : (event.isStarted = true ↔ (.started info :: seen : List ModelEvent) = []) ↔
      event.isStarted = false := by
    cases event.isStarted <;> simp
  constructor
  · intro fits
    exact ⟨(forall_mem_cons.mp fits.live).2, start.mp fits.start,
      fits.follows.fresh, fits.follows.refers, fits.follows.complete⟩
  · rintro ⟨live, plain, follows⟩
    exact ⟨forall_mem_cons.mpr ⟨rfl, live⟩, start.mpr plain,
      follows.fresh, follows.refers, follows.complete⟩

theorem map_index_toolStarts (events : List ModelEvent) : (toolStarts events).map ToolRef.index =
      events.filterMap fun event => event.startOf.map ToolRef.index := by
  rw [toolStarts, map_filterMap]

/-- In a body without an end, each event may follow exactly if no index is started twice and each
event refers to something before it. -/
theorem eachFits_follows_iff (unended : ∀ event ∈ body, event.isTerminal = false) :
    EachFits Follows body ↔
      ((toolStarts body).map ToolRef.index).Nodup ∧ EachFits ModelEvent.Refers body := by
  rw [map_index_toolStarts, nodup_filterMap_iff]
  constructor
  · intro follows
    refine ⟨follows.imp fun before event after split follows index starts => ?_,
      follows.imp fun before event after split follows => follows.refers⟩
    obtain ⟨tool, started, rfl⟩ := Option.map_eq_some_iff.mp starts
    rw [← map_index_toolStarts]
    exact follows.fresh tool started
  · rintro ⟨fresh, refers⟩ before event after split
    have here : event.isTerminal = false := unended event (by simp [split])
    refine ⟨fun tool starts => ?_, refers before event after split, fun completed => ?_⟩
    · rw [map_index_toolStarts]
      exact fresh before event after split _ (by rw [starts]; rfl)
    · cases event <;> cases completed
      cases here

/-- In a stream with a start, a body and an end, each event may come next exactly if the stream is
well formed. -/
theorem eachFits_stream_iff (ends : last.isTerminal = true) :
    EachFits Fits (.started info :: (body ++ [last])) ↔
      (∀ event ∈ body, event.isStarted = false ∧ event.isTerminal = false) ∧
      ((toolStarts body).map ToolRef.index).Nodup ∧ EachFits ModelEvent.Refers body ∧
      (last.isCompleted = true → ∀ tool ∈ toolStarts body, tool ∈ toolCompletions body) := by
  have plainLast : last.isStarted = false := by cases last <;> cases ends <;> rfl
  have noStart : last.startOf = none := by cases last <;> cases ends <;> rfl
  have noReference : last.Refers body := by cases last <;> cases ends <;> exact trivial
  have startFits : EachFits Fits [.started info] :=
    eachFits_snoc_iff.mpr ⟨eachFits_nil, by simp, by simp [isStarted], follows_nil rfl⟩
  have split : (.started info :: (body ++ [last]) : List ModelEvent) =
      ([.started info] ++ body) ++ [last] := rfl
  rw [split, eachFits_snoc_iff, eachFits_append_iff]
  simp only [singleton_append, fits_cons_iff]
  constructor
  · rintro ⟨⟨-, inBody⟩, unended, -, atEnd⟩
    have plain : ∀ event ∈ body, event.isStarted = false := by
      intro event mem
      obtain ⟨before, after, split⟩ := append_of_mem mem
      exact (inBody before event after split).2.1
    have follows : EachFits Follows body := inBody.imp fun _ _ _ _ fits => fits.2.2
    obtain ⟨distinct, refers⟩ := (eachFits_follows_iff unended).mp follows
    exact ⟨fun event mem => ⟨plain event mem, unended event mem⟩, distinct, refers, atEnd.complete⟩
  · rintro ⟨middle, distinct, refers, complete⟩
    have unended : ∀ event ∈ body, event.isTerminal = false := fun event mem => (middle event mem).2
    have follows := (eachFits_follows_iff unended).mpr ⟨distinct, refers⟩
    refine ⟨⟨startFits, follows.imp fun before event after split follows => ?_⟩, unended, plainLast,
      by simp [noStart], noReference, complete⟩
    refine ⟨fun other mem => unended other (by simp [split, mem]), (middle event ?_).1, follows⟩
    simp [split]

theorem exists_split_of_eachFits (fits : EachFits Fits events)
    (ended : ∃ event ∈ events, event.isTerminal = true) :
    ∃ info body last, events = .started info :: (body ++ [last]) ∧ last.isTerminal = true := by
  obtain ⟨last, mem, ends⟩ := ended
  obtain ⟨before, after, split⟩ := append_of_mem mem
  -- Nothing comes after the end.
  have nothing : after = [] := by
    cases after with
    | nil => rfl
    | cons next after =>
      have live := (fits (before ++ [last]) next after (by simp [split])).live last (by simp)
      rw [ends] at live
      cases live
  subst nothing
  cases before with
  | nil =>
    have first := (fits [] last [] split).start.mpr rfl
    cases last <;> cases first
    cases ends
  | cons first body =>
    have start := (fits [] first (body ++ [last]) split).start.mpr rfl
    cases first <;> cases start
    exact ⟨_, body, last, split, ends⟩

/-- The validator accepts exactly the well-formed streams, and a refused event changes none of its
later verdicts. -/
theorem stream_accepts_iff : (∀ events, Accepts events ↔ StreamGrammar events) ∧
      ∀ v v' event violation, observe event v = .error violation v' → v' = v := by
  refine ⟨fun events => ?_, fun _ _ _ _ => observe_eq_error⟩
  have accepted : Accepts events ↔
      EachFits Fits events ∧ ∃ event ∈ events, event.isTerminal = true := by
    rw [← exists_run_iff]
    constructor
    · rintro ⟨v, run, finishes⟩
      exact ⟨⟨v, run⟩, ((describes_of_run run).finish_iff.mp finishes).2⟩
    · rintro ⟨⟨v, run⟩, event, mem, ends⟩
      exact ⟨v, run, (describes_of_run run).finish_iff.mpr
        ⟨ne_nil_of_mem mem, event, mem, ends⟩⟩
  rw [accepted]
  constructor
  · rintro ⟨fits, ended⟩
    obtain ⟨info, body, last, rfl, ends⟩ := exists_split_of_eachFits fits ended
    obtain ⟨middle, distinct, refers, complete⟩ := (eachFits_stream_iff ends).mp fits
    exact ⟨info, body, last, rfl, middle, ends, distinct, refers, complete⟩
  · rintro ⟨info, body, last, rfl, middle, ends, distinct, refers, complete⟩
    exact ⟨(eachFits_stream_iff ends).mpr ⟨middle, distinct, refers, complete⟩,
      last, by simp, ends⟩

/-- A response with a hosted search that a citation refers to is accepted, and a second start of a
stream changes nothing. -/
theorem stream_accepts_iff_search : let search : ProviderToolCallId := ⟨"search_1", by decide⟩
    let index : ModelStreamIndex := ⟨0, by decide⟩
    Accepts [.started ⟨none, none⟩, .hostedToolStarted ⟨index, search, "web_search", by decide⟩,
        .hostedToolCompleted
    ⟨index, search, "web_search", .object [], .success, [], none, by decide⟩,
        .sourceCitation ⟨some search, ⟨none, ⟨"https://example.com", none, none⟩, none, none, none,
          none⟩, rfl⟩,
        .completed ⟨.completed, none, rfl⟩] ∧
      ∀ v', observe (.started ⟨none, none⟩) { new with started := true } =
        .error .duplicateStart v' → v' = { new with started := true } := by
  intro search index
  refine ⟨(stream_accepts_iff.1 _).mpr ⟨_, [_, _, _], _, rfl, ?_, rfl, ?_, ?_, ?_⟩,
    fun v' refused => stream_accepts_iff.2 _ _ _ _ refused⟩
  · simp [isStarted, isTerminal]
  · exact nodup_singleton _
  · refine eachFits_snoc_iff.mpr ⟨eachFits_snoc_iff.mpr ⟨eachFits_snoc_iff.mpr
      ⟨eachFits_nil, trivial⟩, ?_⟩, ?_⟩
    · simp [ModelEvent.Refers, OpenTool, toolStarts, toolCompletions, startOf,
        completionOf]
    · simp [ModelEvent.Refers, toolCompletions, completionOf]
  · simp [toolStarts, toolCompletions, startOf, completionOf]

end ModelStreamValidator

end TeaRs
