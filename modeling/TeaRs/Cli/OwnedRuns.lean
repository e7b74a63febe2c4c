import TeaRs.Lib.Run
import TeaRs.Lib.TreeMap
import TeaRs.Protocol.Content

/-!
# Owned runs of the two protocol servers

A prompt or an approval that a server accepts becomes a task in the slot of its session in the
coding service, and the server keeps a future that waits for the slot. The `JSONL` server keeps a
future for every session, the app server at most one. A completed future is reported by a message
of its own: `command_finished` there, `event/turn_completed` here.

A server is a state with one step for each thing its select loop or the runtime does; the answer
to an approval first waits for the future that is kept, so its step is enabled only when that
future is ready. Both servers keep one ledger of accepted, settled and reported commands. Closing
the session, shutting down and failures that end the connection are left out.

## Main definitions

* `CodingAgentService.startOwned`, `CodingAgentService.wait`: the slots of the service.
* `RpcServer.step`, `AppServer.step`: the two select loops.
* `LedgerStep`, `Ledger`: the ledger of owned commands.

## Main results

* `Ledger.step`: the ledger is balanced after every entry.
* `owned_commands_reported_once`: what both servers report, over all runs.
-/

namespace TeaRs.Cli

open BTreeMap Option

abbrev CommandId := ProtocolId .command

/-! ### The slots of the coding service -/

inductive CodingErrorCode where
  | invalidInput | notFound | projectNotTrusted | persistence | credential | authentication
  | permissionDenied | rateLimited | contextOverflow | unavailable | transport | invalidRequest
  | malformedResponse | policyDenied | cancelled | runtime | internal
  deriving DecidableEq, Repr

structure CodingError where
  code : CodingErrorCode
  message : String
  deriving DecidableEq, Repr

/-- `runtime_error`. -/
def runtimeError : CodingError := ⟨.runtime, "coding runtime operation failed"⟩

/-- How a command ended: only a run that waits for an approval is told apart. -/
inductive RuntimeCommandOutcome where
  | runCompleted (pendingApprovalId : Option ApprovalId)
  | other
  deriving DecidableEq, Repr

abbrev CommandResult := Except CodingError RuntimeCommandOutcome

/-- What joining the task of a command gives. -/
inductive Joined where
  | returned (result : CommandResult)
  | panicked

/-- The result of a command as `wait` returns it. -/
def Joined.result : Joined → CommandResult
  | .returned result => result
  | .panicked => .error runtimeError

structure CommandAcceptance where
  commandId : CommandId
  sessionId : SessionId
  deriving DecidableEq, Repr

/-- A spawned task: the command it sends and, once it ended, what joining it gives. -/
structure JoinHandle where
  commandId : CommandId
  joined : Option Joined

structure CodingAgentService where
  runs : BTreeMap SessionId JoinHandle

/-- `MAX_OWNED_RUNS`. -/
def maxOwnedRuns : Nat := 64

variable {service service' : CodingAgentService} {sessionId : SessionId} {a : CommandAcceptance}

namespace CodingAgentService

variable {commandId : CommandId} {result : CommandResult}

/-- A service that owns no run. -/
def fresh : CodingAgentService := ⟨∅⟩

/-- `CodingAgentService::start_owned`. -/
def startOwned (service : CodingAgentService) (sessionId : SessionId) (commandId : CommandId) :
    Except CodingError (CommandAcceptance × CodingAgentService) :=
  if service.runs.contains sessionId ∨ maxOwnedRuns ≤ service.runs.size then
    .error ⟨.runtime, "session already has an owned run"⟩
  else
    .ok (⟨commandId, sessionId⟩, ⟨service.runs.insert sessionId ⟨commandId, none⟩⟩)

/-- `CodingAgentService::prompt` and `CodingAgentService::approve`: the envelope of the command is
built, which may fail, and its task is started. -/
def submit (service : CodingAgentService) (sessionId : SessionId)
    (built : Except CodingError CommandId) :
    Except CodingError (CommandAcceptance × CodingAgentService) := do
  service.startOwned sessionId (← built)

/-- One poll of `CodingAgentService::wait`, `none` while the task runs. -/
def wait (service : CodingAgentService) (sessionId : SessionId) :
    Option (CommandResult × CodingAgentService) :=
  match service.runs[sessionId]? with
  | none => some (.error ⟨.runtime, "session has no owned run"⟩, service)
  | some handle => handle.joined.map fun joined =>
      (joined.result, ⟨service.runs.erase sessionId⟩)

/-- The task of an accepted command ends. -/
def settle (service : CodingAgentService) (a : CommandAcceptance) (joined : Joined) :
    Option CodingAgentService :=
  match service.runs[a.sessionId]? with
  | some ⟨commandId, none⟩ =>
      if commandId = a.commandId then
        some ⟨service.runs.insert a.sessionId ⟨commandId, some joined⟩⟩
      else none
  | _ => none

/-- The result that waits in the slot of a session. -/
def outcome? (service : CodingAgentService) (sessionId : SessionId) : Option CommandResult :=
  (service.runs[sessionId]?.bind (·.joined)).map Joined.result

theorem startOwned_eq_ok (h : service.startOwned sessionId commandId = .ok (a, service')) :
    sessionId ∉ service.runs ∧ a = ⟨commandId, sessionId⟩ ∧
      service' = ⟨service.runs.insert sessionId ⟨commandId, none⟩⟩ := by
  rw [startOwned] at h
  split_ifs at h with full
  rw [not_or] at full
  cases h
  exact ⟨contains_eq_false_iff.mp (Bool.not_eq_true _ ▸ full.1), rfl, rfl⟩

theorem submit_eq_ok {built : Except CodingError CommandId}
    (h : service.submit sessionId built = .ok (a, service')) :
    ∃ commandId, service.startOwned sessionId commandId = .ok (a, service') := by
  cases built with
  | error => cases h
  | ok commandId => exact ⟨commandId, h⟩

theorem settle_eq_some {joined : Joined} (h : service.settle a joined = some service') :
    service.runs[a.sessionId]? = some ⟨a.commandId, none⟩ ∧
      service' = ⟨service.runs.insert a.sessionId ⟨a.commandId, some joined⟩⟩ := by
  rw [settle] at h
  split at h
  · rename_i commandId slot
    split_ifs at h with same
    cases h
    exact ⟨same ▸ slot, by rw [same]⟩
  · cases h

theorem wait_of_slot {handle : JoinHandle} (slot : service.runs[sessionId]? = some handle) :
    service.wait sessionId =
      (service.outcome? sessionId).map fun result => (result, ⟨service.runs.erase sessionId⟩) := by
  rw [wait, outcome?, slot, bind_some, map_map]
  rfl

end CodingAgentService

open CodingAgentService

/-! ### The ledger of owned commands -/

/-- What happens to commands: those accepted, those whose task ended and those reported as
finished, with their results. -/
structure Tally where
  accepted : List CommandAcceptance := []
  settled : List (CommandAcceptance × CommandResult) := []
  reported : List (CommandAcceptance × CommandResult) := []

instance : Append Tally where
  append t u := ⟨t.accepted ++ u.accepted, t.settled ++ u.settled, t.reported ++ u.reported⟩

@[simp] theorem Tally.mk_append_mk {accepted accepted' : List CommandAcceptance}
    {settled settled' reported reported' : List (CommandAcceptance × CommandResult)} :
    (⟨accepted, settled, reported⟩ : Tally) ++ ⟨accepted', settled', reported'⟩ =
      ⟨accepted ++ accepted', settled ++ settled', reported ++ reported'⟩ := rfl

/-- The owned commands whose result waits in their slot. -/
def waiting (service : CodingAgentService) (owned : List CommandAcceptance) :
    List (CommandAcceptance × CommandResult) :=
  owned.filterMap fun a => (service.outcome? a.sessionId).map fun result => (a, result)

/-- What a server can do with the service and the list of commands it owns. -/
inductive LedgerStep : CodingAgentService → List CommandAcceptance → Tally →
    CodingAgentService → List CommandAcceptance → Prop
  | idle {service : CodingAgentService} {owned : List CommandAcceptance} :
      LedgerStep service owned {} service owned
  | fresh {service : CodingAgentService} : LedgerStep service [] {} .fresh []
  | accept {service service' : CodingAgentService} {owned : List CommandAcceptance}
      {sessionId : SessionId} {commandId : CommandId} {a : CommandAcceptance}
      (starts : service.startOwned sessionId commandId = .ok (a, service')) :
      LedgerStep service owned { accepted := [a] } service' (owned ++ [a])
  | settle {service service' : CodingAgentService} {owned : List CommandAcceptance}
      {a : CommandAcceptance} {joined : Joined}
      (settles : service.settle a joined = some service') :
      LedgerStep service owned { settled := [(a, joined.result)] } service' owned
  | report {service service' : CodingAgentService} {owned : List CommandAcceptance}
      {a : CommandAcceptance} {result : CommandResult} (mem : a ∈ owned)
      (ready : service.wait a.sessionId = some (result, service')) :
      LedgerStep service owned { reported := [(a, result)] } service' (owned.erase a)

/-- Every owned command has the slot of its session, and every slot belongs to one. -/
structure Owning (service : CodingAgentService) (owned : List CommandAcceptance) : Prop where
  nodup : (owned.map (·.sessionId)).Nodup
  slot : ∀ a ∈ owned, ∃ joined, service.runs[a.sessionId]? = some ⟨a.commandId, joined⟩
  owner : ∀ (sessionId : SessionId) (handle : JoinHandle),
    service.runs[sessionId]? = some handle → ⟨handle.commandId, sessionId⟩ ∈ owned

/-- The tally accounts for every command: an accepted one is reported or owned, a settled one is
reported or waits. -/
structure Ledger (tally : Tally) (service : CodingAgentService) (owned : List CommandAcceptance) :
    Prop where
  owning : Owning service owned
  accepted : tally.accepted.Perm (tally.reported.map (·.1) ++ owned)
  settled : tally.settled.Perm (tally.reported ++ waiting service owned)

variable {owned owned' : List CommandAcceptance} {b : CommandAcceptance} {result : CommandResult}
  {tally new : Tally}

theorem waiting_congr
    (same : ∀ a ∈ owned, service'.outcome? a.sessionId = service.outcome? a.sessionId) :
    waiting service' owned = waiting service owned :=
  List.filterMap_congr fun a ha => by rw [same a ha]

theorem mem_waiting {p : CommandAcceptance × CommandResult} :
    p ∈ waiting service owned ↔ p.1 ∈ owned ∧ service.outcome? p.1.sessionId = some p.2 := by
  simp only [waiting, List.mem_filterMap, map_eq_some_iff]
  constructor
  · rintro ⟨a, ha, result, outcome, rfl⟩
    exact ⟨ha, outcome⟩
  · rintro ⟨ha, outcome⟩
    exact ⟨p.1, ha, p.2, outcome, rfl⟩

theorem owning_fresh : Owning .fresh [] where
  nodup := List.nodup_nil
  slot := by simp
  owner := by simp [fresh]

theorem waiting_perm (service service' : CodingAgentService) (ha : a ∈ owned)
    (same : ∀ b ∈ owned.erase a, service'.outcome? b.sessionId = service.outcome? b.sessionId) :
    (waiting service owned).Perm
      (((service.outcome? a.sessionId).map fun result => (a, result)).toList ++
        waiting service' (owned.erase a)) := by
  rw [waiting_congr same]
  refine ((List.perm_cons_erase ha).filterMap _).trans (.of_eq ?_)
  cases outcome : service.outcome? a.sessionId <;>
    simp [waiting, outcome]

namespace Owning

variable (h : Owning service owned)

include h

theorem ne_of_mem_erase (ha : a ∈ owned) (hb : b ∈ owned.erase a) : b.sessionId ≠ a.sessionId := by
  have nodup := ((List.perm_cons_erase ha).map (·.sessionId)).nodup_iff.mp h.nodup
  rw [List.map_cons, List.nodup_cons] at nodup
  exact fun same => nodup.1 (same ▸ List.mem_map_of_mem hb)

theorem wait_eq (ha : a ∈ owned) :
    service.wait a.sessionId = (service.outcome? a.sessionId).map fun result =>
      (result, ⟨service.runs.erase a.sessionId⟩) :=
  let ⟨_, slot⟩ := h.slot a ha
  wait_of_slot slot

theorem accept {sessionId : SessionId} {commandId : CommandId}
    (starts : service.startOwned sessionId commandId = .ok (a, service')) :
    Owning service' (owned ++ [a]) ∧ waiting service' (owned ++ [a]) = waiting service owned := by
  obtain ⟨free, rfl, rfl⟩ := startOwned_eq_ok starts
  have other (b : CommandAcceptance) (hb : b ∈ owned) : b.sessionId ≠ sessionId := by
    rintro rfl
    obtain ⟨joined, slot⟩ := h.slot b hb
    exact free (mem_of_getElem? slot)
  refine ⟨⟨?_, ?_, ?_⟩, ?_⟩
  · rw [List.map_append, List.map_singleton, List.nodup_append]
    refine ⟨h.nodup, List.nodup_singleton _, ?_⟩
    simpa using fun b hb => other b hb
  · intro b hb
    rcases List.mem_append.mp hb with hb | hb
    · rw [getElem?_insert_of_ne (other b hb)]
      exact h.slot b hb
    · obtain rfl := List.mem_singleton.mp hb
      exact ⟨none, by rw [getElem?_insert_eq, if_pos rfl]⟩
  · intro session handle slot
    rw [getElem?_insert_eq] at slot
    split_ifs at slot with same
    · cases slot
      simp [same]
    · exact List.mem_append_left _ (h.owner session handle slot)
  · have running : (⟨service.runs.insert sessionId ⟨commandId, none⟩⟩ :
        CodingAgentService).outcome? sessionId = none := by
      rw [outcome?, getElem?_insert_eq, if_pos rfl]
      rfl
    rw [waiting, List.filterMap_append]
    simp only [List.filterMap_cons, List.filterMap_nil, running, map_none, List.append_nil]
    refine waiting_congr fun b hb => ?_
    rw [outcome?, getElem?_insert_of_ne (other b hb)]
    rfl

/-- The task of an owned command ends, and its result waits. -/
theorem settle {joined : Joined} (settles : service.settle a joined = some service') :
    Owning service' owned ∧
      (waiting service' owned).Perm ((a, joined.result) :: waiting service owned) := by
  obtain ⟨running, rfl⟩ := settle_eq_some settles
  have ha : a ∈ owned := h.owner _ _ running
  refine ⟨⟨h.nodup, ?_, ?_⟩, ?_⟩
  · intro b hb
    rw [getElem?_insert_eq]
    split_ifs with same
    · obtain ⟨_, slot⟩ := h.slot b hb
      rw [same, running, some.injEq, JoinHandle.mk.injEq] at slot
      exact ⟨_, by rw [slot.1]⟩
    · exact h.slot b hb
  · intro session handle slot
    rw [getElem?_insert_eq] at slot
    split_ifs at slot with same
    · cases slot
      exact same ▸ ha
    · exact h.owner session handle slot
  · have before := waiting_perm service service ha fun _ _ => rfl
    refine (waiting_perm _ service ha fun b hb => ?_).trans ?_
    · rw [outcome?, outcome?,
        getElem?_insert_of_ne (h.ne_of_mem_erase ha hb)]
    · rw [outcome?, running] at before
      rw [outcome?, getElem?_insert_eq, if_pos rfl]
      exact .cons _ before.symm

/-- The poll of a ready command frees its slot and takes its result. -/
theorem report (ha : a ∈ owned) (ready : service.wait a.sessionId = some (result, service')) :
    Owning service' (owned.erase a) ∧
      (waiting service owned).Perm ((a, result) :: waiting service' (owned.erase a)) := by
  rw [h.wait_eq ha, map_eq_some_iff] at ready
  obtain ⟨_, outcome, rfl, rfl⟩ := ready
  have other (b : CommandAcceptance) (hb : b ∈ owned.erase a) :
      (service.runs.erase a.sessionId)[b.sessionId]? = service.runs[b.sessionId]? := by
    rw [getElem?_erase_eq, if_neg (h.ne_of_mem_erase ha hb)]
  refine ⟨⟨?_, ?_, ?_⟩, ?_⟩
  · exact h.nodup.sublist (List.erase_sublist.map _)
  · intro b hb
    rw [other b hb]
    exact h.slot b (List.mem_of_mem_erase hb)
  · intro session handle slot
    rw [getElem?_erase_eq] at slot
    split_ifs at slot with same
    refine (List.mem_erase_of_ne fun equal => same ?_).mpr (h.owner session handle slot)
    rw [← equal]
  · have perm := waiting_perm service ⟨service.runs.erase a.sessionId⟩ ha fun b hb => by
      rw [outcome?, other b hb, ← outcome?]
    rwa [outcome] at perm

end Owning

theorem ledger_nil : Ledger {} .fresh [] := ⟨owning_fresh, .rfl, .rfl⟩

/-- The ledger is balanced after every step. -/
theorem Ledger.step (h : Ledger tally service owned)
    (step : LedgerStep service owned new service' owned') :
    Ledger (tally ++ new) service' owned' := by
  obtain ⟨accepted, settled, reported⟩ := tally
  obtain ⟨owning, balanced, answered⟩ := h
  dsimp only at balanced answered
  cases step with
  | idle => exact ⟨owning, by simpa using balanced, by simpa using answered⟩
  | fresh => exact ⟨owning_fresh, by simpa using balanced, by simpa [waiting] using answered⟩
  | accept starts =>
    obtain ⟨owning, same⟩ := owning.accept starts
    refine ⟨owning, ?_, ?_⟩
    · simpa using balanced.append_right [_]
    · simpa [same] using answered
  | settle settles =>
    obtain ⟨owning, more⟩ := owning.settle settles
    refine ⟨owning, by simpa using balanced, ?_⟩
    have later := (List.perm_append_singleton _ _).trans (more.symm.append_left [])
    simpa using (answered.append_right [_]).trans (by simpa using later.append_left reported)
  | report mem ready =>
    obtain ⟨owning, fewer⟩ := owning.report mem ready
    refine ⟨owning, ?_, ?_⟩
    · simpa using balanced.trans ((List.perm_cons_erase mem).append_left _)
    · simpa using answered.trans (fewer.append_left _)

/-! ### What the messages show -/

/-- How inputs and outputs of a server show what happens to commands. -/
structure Wire (ι ο : Type) where
  acceptance : ο → Option CommandAcceptance
  isCompletion : ο → Bool
  completion : CommandAcceptance × CommandResult → ο
  settlement : ι → Option (CommandAcceptance × CommandResult)

namespace Wire

variable {ι ο : Type} (wire : Wire ι ο) (labels labels' : List (ι × List ο))

/-- The commands answered as accepted. -/
def accepted : List CommandAcceptance := (labels.flatMap (·.2)).filterMap wire.acceptance

/-- The completion messages. -/
def completions : List ο := (labels.flatMap (·.2)).filter wire.isCompletion

/-- The commands whose task ended. -/
def settled : List (CommandAcceptance × CommandResult) := labels.filterMap (wire.settlement ·.1)

/-- The labels show a tally. -/
structure Shows (tally : Tally) : Prop where
  accepted : wire.accepted labels = tally.accepted
  settled : wire.settled labels = tally.settled
  completed : wire.completions labels = tally.reported.map wire.completion

variable {wire labels labels'}

theorem Shows.append (h : wire.Shows labels tally) (h' : wire.Shows labels' new) :
    wire.Shows (labels ++ labels') (tally ++ new) where
  accepted := by
    rw [Wire.accepted, List.flatMap_append, List.filterMap_append]
    exact congrArg₂ _ h.accepted h'.accepted
  settled := by
    rw [Wire.settled, List.filterMap_append]
    exact congrArg₂ _ h.settled h'.settled
  completed := by
    rw [Wire.completions, List.flatMap_append, List.filter_append]
    exact (congrArg₂ _ h.completed h'.completed).trans List.map_append.symm

end Wire

/-! ### The `JSONL` server -/

inductive RpcErrorCode where
  | parseError | invalidRequest | unsupportedVersion | notFound | busy | policyDenied | persistence
  | provider | malformedResponse | cancelled | internal
  deriving DecidableEq, Repr

structure RpcError where
  code : RpcErrorCode
  message : String
  deriving DecidableEq, Repr

/-- `RpcError::from(CodingError)`. -/
def RpcError.ofCodingError (error : CodingError) : RpcError where
  code := match error.code with
    | .invalidInput | .invalidRequest => .invalidRequest
    | .notFound => .notFound
    | .projectNotTrusted | .policyDenied => .policyDenied
    | .persistence => .persistence
    | .credential | .authentication | .permissionDenied | .rateLimited | .contextOverflow
    | .unavailable | .transport => .provider
    | .malformedResponse => .malformedResponse
    | .cancelled => .cancelled
    | .runtime | .internal => .internal
  message := error.message

/-- What the select loop of the `JSONL` server receives, with what the service answers. -/
inductive RpcInput where
  /-- A frame that is no request. -/
  | malformed (error : RpcError)
  /-- `Prompt` and `ResolveApproval`. -/
  | command (built : Except CodingError CommandId)
  /-- `NewSession` and `OpenSession`. -/
  | select (opened subscribed : Except CodingError SessionId)
  | otherRequest (handled : Except RpcError Unit)
  /-- An event of the subscription, or its end. -/
  | event (received : Bool)
  /-- A future of an owned run is polled by the loop. -/
  | completed (a : CommandAcceptance)
  /-- The runtime ends the task of a command. -/
  | settles (a : CommandAcceptance) (joined : Joined)

inductive RpcOutput where
  | error (error : RpcError)
  | commandAccepted (a : CommandAcceptance)
  | response
  | event
  | resnapshotRequired (sessionId : SessionId)
  | commandFinished (commandId : CommandId) (sessionId : SessionId) (error : Option RpcError)
  deriving DecidableEq

/-- The state of the `JSONL` server. -/
structure RpcServer where
  service : CodingAgentService
  sessionId : SessionId
  ownedRuns : List CommandAcceptance

/-- The server as its select loop starts. -/
def RpcServer.start (sessionId : SessionId) : RpcServer := ⟨.fresh, sessionId, []⟩

/-- The message that reports a finished command. -/
def RpcOutput.finished (p : CommandAcceptance × CommandResult) : RpcOutput :=
  .commandFinished p.1.commandId p.1.sessionId
    (match p.2 with | .ok _ => none | .error e => some (.ofCodingError e))

/-- One turn of the select loop of `run_service`; `none` where the future polled is not ready. -/
def RpcServer.step (server : RpcServer) : RpcInput → Option (RpcServer × List RpcOutput)
  | .malformed error => some (server, [.error error])
  | .command built =>
    match server.service.submit server.sessionId built with
    | .error e => some (server, [.error (.ofCodingError e)])
    | .ok (a, service) =>
      some (⟨service, server.sessionId, server.ownedRuns ++ [a]⟩, [.commandAccepted a])
  | .select opened subscribed =>
    match opened >>= fun _ => subscribed with
    | .error e => some (server, [.error (.ofCodingError e)])
    | .ok sessionId => some ({ server with sessionId }, [.response])
  | .otherRequest (.error error) => some (server, [.error error])
  | .otherRequest (.ok ()) => some (server, [.response])
  | .event true => some (server, [.event])
  | .event false => some (server, [.resnapshotRequired server.sessionId])
  | .completed a =>
    if a ∈ server.ownedRuns then
      (server.service.wait a.sessionId).map fun (result, service) =>
        (⟨service, server.sessionId, server.ownedRuns.erase a⟩, [.finished (a, result)])
    else none
  | .settles a joined =>
    (server.service.settle a joined).map fun service => ({ server with service }, [])

/-- The steps of the `JSONL` server, labelled with what it receives and what it writes. -/
def RpcServer.Step (server : RpcServer) (label : RpcInput × List RpcOutput) (next : RpcServer) :
    Prop :=
  server.step label.1 = some (next, label.2)

/-- The messages of the `JSONL` server. -/
def rpcWire : Wire RpcInput RpcOutput where
  acceptance := fun | .commandAccepted a => some a | _ => none
  isCompletion := fun | .commandFinished .. => true | _ => false
  completion := .finished
  settlement := fun | .settles a joined => some (a, joined.result) | _ => none

/-- A step of the server does to its commands what its label shows. -/
theorem RpcServer.Step.ledgerStep {server next : RpcServer} {label : RpcInput × List RpcOutput}
    (step : server.Step label next) :
    ∃ new, LedgerStep server.service server.ownedRuns new next.service next.ownedRuns ∧
      rpcWire.Shows [label] new := by
  obtain ⟨input, outputs⟩ := label
  rw [RpcServer.Step] at step
  dsimp only at step
  cases input with
  | malformed error => cases step; exact ⟨_, .idle, rfl, rfl, rfl⟩
  | command built =>
    rw [RpcServer.step] at step
    split at step
    · cases step; exact ⟨_, .idle, rfl, rfl, rfl⟩
    · rename_i a service submitted
      obtain ⟨commandId, starts⟩ := submit_eq_ok submitted
      cases step
      exact ⟨_, .accept starts, rfl, rfl, rfl⟩
  | select opened subscribed =>
    rw [RpcServer.step] at step
    split at step <;> cases step <;> exact ⟨_, .idle, rfl, rfl, rfl⟩
  | otherRequest handled => cases handled <;> cases step <;> exact ⟨_, .idle, rfl, rfl, rfl⟩
  | event received => cases received <;> cases step <;> exact ⟨_, .idle, rfl, rfl, rfl⟩
  | completed a =>
    rw [RpcServer.step] at step
    split_ifs at step with mem
    obtain ⟨⟨result, service⟩, ready, same⟩ := map_eq_some_iff.mp step
    cases same
    exact ⟨_, .report mem ready, rfl, rfl, rfl⟩
  | settles a joined =>
    obtain ⟨service, settles, same⟩ := map_eq_some_iff.mp step
    cases same
    exact ⟨_, .settle settles, rfl, rfl, rfl⟩

/-- The ledger of a run of the `JSONL` server. -/
theorem RpcServer.ledger {sessionId : SessionId} {labels : List (RpcInput × List RpcOutput)}
    {server : RpcServer} (run : Run RpcServer.Step (.start sessionId) labels server) :
    ∃ tally, Ledger tally server.service server.ownedRuns ∧ rpcWire.Shows labels tally := by
  induction run with
  | nil => exact ⟨{}, ledger_nil, rfl, rfl, rfl⟩
  | snoc _ step ih =>
    obtain ⟨tally, ledger, shows_⟩ := ih
    obtain ⟨new, entry, shown⟩ := step.ledgerStep
    exact ⟨tally ++ new, ledger.step entry, shows_.append shown⟩

theorem RpcServer.step_completed {server : RpcServer} {p : CommandAcceptance × CommandResult}
    (owning : Owning server.service server.ownedRuns)
    (mem : p ∈ waiting server.service server.ownedRuns) :
    ∃ next, server.step (.completed p.1) = some (next, [.finished p]) := by
  obtain ⟨owned, outcome⟩ := mem_waiting.mp mem
  rw [RpcServer.step, if_pos owned, owning.wait_eq owned, outcome]
  exact ⟨_, rfl⟩

/-! ### The app server -/

structure AppServerError where
  code : Int
  message : String
  deriving DecidableEq, Repr

def AppServerError.invalidRequest (message : String) : AppServerError := ⟨-32600, message⟩

/-- `coding_error`. -/
def AppServerError.ofCodingError (error : CodingError) : AppServerError where
  code := match error.code with
    | .invalidInput => -32602
    | .cancelled => -32800
    | .policyDenied => -32003
    | .persistence => -32004
    | _ => -32000
  message := error.message

/-- The `status` of a completion message. -/
inductive TurnStatus where
  | awaitingApproval (approvalId : ApprovalId)
  | completed
  | cancelled (error : CodingError)
  | failed (error : CodingError)
  deriving DecidableEq, Repr

/-- The status of a command's result. -/
def TurnStatus.ofResult : CommandResult → TurnStatus
  | .ok (.runCompleted (some approvalId)) => .awaitingApproval approvalId
  | .ok _ => .completed
  | .error error => if error.code = .cancelled then .cancelled error else .failed error

/-- The requests to the app server, with what the service answers. -/
inductive AppServerRequest where
  /-- `server/initialize`, with whether the version is supported. -/
  | serverInitialize (supported : Bool)
  /-- `session/create`, `session/load` and `session/resume`: the parameters are refused, or the
  service is built anew and the session is attached or not. -/
  | attach (creates : Bool) (opened : Except AppServerError (Except AppServerError SessionId))
  /-- `session/list`, which builds the service if there is none. -/
  | list (listed : Except AppServerError (Except AppServerError Unit))
  | prompt (sessionId : SessionId) (built : Except CodingError CommandId)
  | approvalRespond (sessionId : SessionId) (built : Except CodingError CommandId)
  | other (handled : Except AppServerError Unit)

/-- What the select loop of the app server receives. -/
inductive AppServerInput where
  | malformed (error : AppServerError)
  /-- A request; without an identifier it is handled and not answered. -/
  | request (hasId : Bool) (request : AppServerRequest)
  | event (received : Bool)
  /-- The future of the owned run is polled by the loop. -/
  | completed
  | settles (a : CommandAcceptance) (joined : Joined)

inductive AppServerOutput where
  | error (error : AppServerError)
  | accepted (a : CommandAcceptance)
  | response
  | event
  | resyncRequired (sessionId : SessionId)
  | turnCompleted (status : TurnStatus) (sessionId : Option SessionId)
  deriving DecidableEq

/-- The state of the app server. -/
structure AppServer where
  service : Option CodingAgentService
  sessionId : Option SessionId
  ownedRun : Option CommandAcceptance
  initialized : Bool

namespace AppServer

/-- The server as its select loop starts. -/
def start : AppServer := ⟨none, none, none, false⟩

/-- The refusal of a request. -/
def refuse (server : AppServer) (message : String) : AppServer × AppServerOutput :=
  (server, .error (.invalidRequest message))

/-- A command is submitted and its future is kept. -/
def own (server : AppServer) (sessionId : SessionId) (built : Except CodingError CommandId) :
    AppServer × AppServerOutput :=
  match server.service with
  | none => server.refuse "session has not been created"
  | some service =>
    match service.submit sessionId built with
    | .error e => (server, .error (.ofCodingError e))
    | .ok (a, service) =>
      ({ server with service := some service, ownedRun := some a }, .accepted a)

/-- `session/create`, `session/load` and `session/resume`. -/
def attach (server : AppServer) (creates : Bool)
    (opened : Except AppServerError (Except AppServerError SessionId)) :
    AppServer × AppServerOutput :=
  if !server.initialized then server.refuse "server must be initialized first"
  else if server.sessionId.isSome then server.refuse "app-server session already exists"
  else if creates && server.ownedRun.isSome then server.refuse "app-server session is busy"
  else match opened with
    | .error e => (server, .error e)
    | .ok (.error e) => ({ server with service := none }, .error e)
    | .ok (.ok sessionId) =>
      ({ server with service := some .fresh, sessionId := some sessionId }, .response)

/-- `session/list`. -/
def list (server : AppServer) (listed : Except AppServerError (Except AppServerError Unit)) :
    AppServer × AppServerOutput :=
  if !server.initialized then server.refuse "server must be initialized first"
  else match listed with
    | .error e => (server, .error e)
    | .ok (.error e) => ({ server with service := some (server.service.getD .fresh) }, .error e)
    | .ok (.ok ()) => ({ server with service := some (server.service.getD .fresh) }, .response)

/-- `session/prompt`. -/
def prompt (server : AppServer) (sessionId : SessionId) (built : Except CodingError CommandId) :
    AppServer × AppServerOutput :=
  if server.service.isNone then server.refuse "session has not been created"
  else if server.sessionId ≠ some sessionId then server.refuse "session is not attached"
  else if server.ownedRun.isSome then server.refuse "session is busy"
  else server.own sessionId built

/-- A poll of the future that is kept, which gives it up when it is ready. -/
def takeOwned (server : AppServer) : Option (CommandResult × AppServer) := do
  let a ← server.ownedRun
  let service ← server.service
  let (result, service) ← service.wait a.sessionId
  return (result, { server with service := some service, ownedRun := none })

/-- `approval/respond`. The future that is kept is awaited first and its outcome dropped. -/
def approvalRespond (server : AppServer) (sessionId : SessionId)
    (built : Except CodingError CommandId) : Option (AppServer × AppServerOutput) :=
  if server.sessionId ≠ some sessionId then some (server.refuse "session is not attached")
  else if server.ownedRun.isNone then some (server.own sessionId built)
  else match server.takeOwned with
    | none => none
    | some (.error e, server) => some (server, .error (.ofCodingError e))
    | some (.ok _, server) => some (server.own sessionId built)

/-- `handle_request`, `none` where it would block. -/
def handleRequest (server : AppServer) : AppServerRequest → Option (AppServer × AppServerOutput)
  | .serverInitialize true => some ({ server with initialized := true }, .response)
  | .serverInitialize false => some (server.refuse "app-server version is unsupported")
  | .attach creates opened => some (server.attach creates opened)
  | .list listed => some (server.list listed)
  | .prompt sessionId built => some (server.prompt sessionId built)
  | .approvalRespond sessionId built => server.approvalRespond sessionId built
  | .other (.error error) => some (server, .error error)
  | .other (.ok ()) => some (server, .response)

/-- One turn of the select loop of `run_service`; `none` where it would block. -/
def step (server : AppServer) : AppServerInput → Option (AppServer × List AppServerOutput)
  | .malformed error => some (server, [.error error])
  | .request hasId request => (server.handleRequest request).map fun (next, output) =>
      (next, if hasId then [output] else [])
  | .event true => some (server, [.event])
  | .event false =>
    match server.sessionId, server.service with
    | some sessionId, some _ => some (server, [.resyncRequired sessionId])
    | _, _ => some (server, [])
  | .completed => server.takeOwned.map fun (result, next) =>
      (next, [.turnCompleted (.ofResult result) server.sessionId])
  | .settles a joined => do
    let service ← (← server.service).settle a joined
    return ({ server with service := some service }, [])

/-- The steps of the app server, labelled with what it receives and what it writes. -/
def Step (server : AppServer) (label : AppServerInput × List AppServerOutput) (next : AppServer) :
    Prop :=
  server.step label.1 = some (next, label.2)

/-- A command is sent as a request, and an approval is answered when no run is owned. -/
def Orderly (server : AppServer) : AppServerInput → Prop
  | .request hasId (.prompt _ _) => hasId = true
  | .request hasId (.approvalRespond sessionId _) =>
    hasId = true ∧ (server.sessionId = some sessionId → server.ownedRun = none)
  | _ => True

end AppServer

/-- The messages of the app server. -/
def appWire : Wire AppServerInput AppServerOutput where
  acceptance := fun | .accepted a => some a | _ => none
  isCompletion := fun | .turnCompleted .. => true | _ => false
  completion p := .turnCompleted (.ofResult p.2) (some p.1.sessionId)
  settlement := fun | .settles a joined => some (a, joined.result) | _ => none

namespace AppServer

/-- The service whose slots the owned run uses. -/
def slots (server : AppServer) : CodingAgentService := server.service.getD .fresh

/-- The owned run is one of the attached session. -/
def Attached (server : AppServer) : Prop :=
  ∀ a, server.ownedRun = some a → server.sessionId = some a.sessionId

/-- Commands are reported in the order in which they are accepted. -/
structure Books (server next : AppServer) (new : Tally) : Prop where
  entry : LedgerStep server.slots server.ownedRun.toList new next.slots next.ownedRun.toList
  order : new.reported.map (·.1) ++ next.ownedRun.toList =
    server.ownedRun.toList ++ new.accepted
  attached : next.Attached

variable {server next : AppServer} {hasId : Bool} {request : AppServerRequest}
  {built : Except CodingError CommandId}

theorem slots_eq {service : CodingAgentService} (present : server.service = some service) :
    server.slots = service := by
  rw [slots, present, getD_some]

theorem attached_of_none (free : server.ownedRun = none) : server.Attached := fun a owned => by
  rw [free] at owned
  cases owned

theorem books_idle (attached : server.Attached) (slots : next.slots = server.slots)
    (owned : next.ownedRun = server.ownedRun) (session : next.sessionId = server.sessionId) :
    Books server next {} := by
  refine ⟨by rw [slots, owned]; exact .idle, by rw [owned]; simp, fun a run => ?_⟩
  rw [session]
  exact attached a (owned ▸ run)

/-- The response to a request shows what happens to its command. -/
def Answers (server : AppServer) (hasId : Bool) (request : AppServerRequest)
    (out : AppServer × AppServerOutput) : Prop :=
  ∃ new, Books server out.1 new ∧
    appWire.Shows [(.request hasId request, if hasId then [out.2] else [])] new

theorem answers_books {output : AppServerOutput} (books : Books server next {})
    (silent : appWire.acceptance output = none) (response : appWire.isCompletion output = false) :
    server.Answers hasId request (next, output) := by
  refine ⟨{}, books, ?_, rfl, ?_⟩ <;> cases hasId <;>
    simp [Wire.accepted, Wire.completions, silent, response]

theorem answers_error {error : AppServerError} (attached : server.Attached) :
    server.Answers hasId request (server, .error error) :=
  answers_books (books_idle attached rfl rfl rfl) rfl rfl

theorem answers_own (free : server.ownedRun = none) (same : server.sessionId = some sessionId) :
    server.Answers true request (server.own sessionId built) := by
  have attached := attached_of_none free
  rw [own]
  split
  · exact answers_error attached
  · rename_i service present
    split
    · exact answers_error attached
    · rename_i a service' submitted
      obtain ⟨commandId, starts⟩ := submit_eq_ok submitted
      obtain ⟨-, rfl, -⟩ := startOwned_eq_ok starts
      refine ⟨{ accepted := [_] }, ⟨?_, by rw [free]; rfl, ?_⟩, rfl, rfl, rfl⟩
      · rw [slots_eq present, free]
        exact .accept starts
      · intro b owned
        cases owned
        exact same

theorem answers_attach {creates : Bool}
    {opened : Except AppServerError (Except AppServerError SessionId)}
    (attached : server.Attached) : 
    server.Answers hasId request (server.attach creates opened) := by
  unfold attach
  split_ifs with uninitialized present busy
  · exact answers_error attached
  · exact answers_error attached
  · exact answers_error attached
  · have free : server.ownedRun = none := by
      refine eq_none_iff_forall_ne_some.mpr fun a owned => present ?_
      rw [attached a owned]
      rfl
    -- the service is replaced: no run is owned in it
    have replaced (next : AppServer) (fresh : next.slots = .fresh) (owned : next.ownedRun = none) :
        Books server next {} := by
      refine ⟨?_, by rw [owned, free]; rfl, attached_of_none owned⟩
      rw [fresh, owned, free]
      exact .fresh
    rcases opened with e | e | sessionId
    · exact answers_error attached
    · exact answers_books (replaced _ rfl free) rfl rfl
    · exact answers_books (replaced _ rfl free) rfl rfl

theorem answers_list {listed : Except AppServerError (Except AppServerError Unit)}
    (attached : server.Attached) : 
    server.Answers hasId request (server.list listed) := by
  unfold list
  split_ifs
  · exact answers_error attached
  · rcases listed with e | e | _
    · exact answers_error attached
    · exact answers_books (books_idle attached rfl rfl rfl) rfl rfl
    · exact answers_books (books_idle attached rfl rfl rfl) rfl rfl

/-- A request that is handled in order is answered as what happens to its command. -/
theorem answers_request {out : AppServer × AppServerOutput} (attached : server.Attached)
    (orderly : server.Orderly (.request hasId request))
    (handled : server.handleRequest request = some out) : server.Answers hasId request out := by
  cases request with
  | serverInitialize supported =>
    cases supported <;> obtain rfl := some.inj handled
    · exact answers_error attached
    · exact answers_books (books_idle attached rfl rfl rfl) rfl rfl
  | attach creates opened =>
    obtain rfl := some.inj handled
    exact answers_attach attached
  | list listed =>
    obtain rfl := some.inj handled
    exact answers_list attached
  | prompt sessionId built =>
    obtain rfl := some.inj handled
    rw [prompt]
    split_ifs with absent other busy
    · exact answers_error attached
    · exact answers_error attached
    · exact answers_error attached
    · obtain rfl : hasId = true := orderly
      exact answers_own (not_isSome_iff_eq_none.mp busy) (not_not.mp other)
  | approvalRespond sessionId built =>
    obtain ⟨rfl, free⟩ := orderly
    rw [handleRequest, approvalRespond] at handled
    split_ifs at handled with other busy
    · obtain rfl := some.inj handled
      exact answers_error attached
    · obtain rfl := some.inj handled
      exact answers_own (isNone_iff_eq_none.mp busy) (not_not.mp other)
    · rw [free (not_not.mp other)] at busy
      exact (busy rfl).elim
  | other result =>
    cases result <;> obtain rfl := some.inj handled
    · exact answers_error attached
    · exact answers_books (books_idle attached rfl rfl rfl) rfl rfl

theorem Step.books {label : AppServerInput × List AppServerOutput} (step : server.Step label next)
    (attached : server.Attached) (orderly : server.Orderly label.1) :
    ∃ new, Books server next new ∧ appWire.Shows [label] new := by
  obtain ⟨input, outputs⟩ := label
  rw [Step] at step
  dsimp only at step orderly
  cases input with
  | malformed error =>
    cases step
    exact ⟨{}, books_idle attached rfl rfl rfl, rfl, rfl, rfl⟩
  | request hasId request =>
    obtain ⟨out, handled, same⟩ := map_eq_some_iff.mp step
    cases same
    exact answers_request attached orderly handled
  | event received =>
    cases received
    · rw [AppServer.step] at step
      split at step <;> cases step <;>
        exact ⟨{}, books_idle attached rfl rfl rfl, rfl, rfl, rfl⟩
    · cases step
      exact ⟨{}, books_idle attached rfl rfl rfl, rfl, rfl, rfl⟩
  | completed =>
    obtain ⟨⟨result, next⟩, taken, same⟩ := map_eq_some_iff.mp step
    cases same
    simp only [takeOwned, bind, bind_eq_some_iff] at taken
    obtain ⟨a, owned, service, present, ⟨result', service'⟩, ready, same⟩ := taken
    cases same
    refine ⟨{ reported := [(a, result')] }, ⟨?_, by rw [owned]; rfl, nofun⟩, rfl, rfl, ?_⟩
    · rw [slots_eq present, owned]
      have report := LedgerStep.report (List.mem_singleton_self a) ready
      rw [List.erase_cons_head] at report
      exact report
    · rw [attached a owned]
      rfl
  | settles a joined =>
    simp only [AppServer.step, bind, bind_eq_some_iff] at step
    obtain ⟨service, present, service', settles, same⟩ := step
    cases same
    refine ⟨{ settled := [(a, joined.result)] }, ⟨?_, (List.append_nil _).symm, attached⟩, rfl, rfl,
      rfl⟩
    rw [slots_eq present]
    exact .settle settles

/-- The steps that meet the condition. -/
def OrderlyStep (server : AppServer) (label : AppServerInput × List AppServerOutput)
    (next : AppServer) : Prop :=
  server.Step label next ∧ server.Orderly label.1

/-- The ledger of a run of orderly steps of the app server. -/
theorem ledger {labels : List (AppServerInput × List AppServerOutput)}
    (run : Run OrderlyStep start labels server) :
    server.Attached ∧ ∃ tally, Ledger tally server.slots server.ownedRun.toList ∧
      appWire.Shows labels tally ∧
      tally.accepted = tally.reported.map (·.1) ++ server.ownedRun.toList := by
  induction run with
  | nil => exact ⟨nofun, {}, ledger_nil, ⟨rfl, rfl, rfl⟩, rfl⟩
  | snoc _ step ih =>
    obtain ⟨attached, tally, ledger, shows_, order⟩ := ih
    obtain ⟨new, books, shown⟩ := step.1.books attached step.2
    refine ⟨books.attached, tally ++ new, ledger.step books.entry, shows_.append shown, ?_⟩
    change tally.accepted ++ new.accepted = (tally.reported ++ new.reported).map (·.1) ++ _
    rw [order, List.map_append, List.append_assoc, List.append_assoc, books.order]

theorem step_completed {p : CommandAcceptance × CommandResult} (attached : server.Attached)
    (owning : Owning server.slots server.ownedRun.toList)
    (mem : p ∈ waiting server.slots server.ownedRun.toList) :
    ∃ next, server.step .completed = some (next, [appWire.completion p]) := by
  obtain ⟨owned, outcome⟩ := mem_waiting.mp mem
  have ready := owning.wait_eq owned
  have run : server.ownedRun = some p.1 := mem_toList.mp owned
  cases present : server.service with
  | none =>
    rw [slots, present, getD_none, outcome?] at outcome
    simp [fresh] at outcome
  | some service =>
    rw [slots, present, getD_some] at ready outcome
    rw [outcome] at ready
    rw [AppServer.step, takeOwned, run, present]
    simp only [bind, bind_some, ready, map_some, attached p.1 run, pure]
    exact ⟨_, rfl⟩

end AppServer

/-! ### Completion messages over all runs -/

/-- In every run of the `JSONL` server and in every run of orderly steps of the app server there is
one completion message for each command reported, with the result its task ended with. The
commands accepted are those reported and those still owned, the tasks that ended are those reported
and those that wait, and what waits can be reported at once. The messages of the app server name no
command; they come in the order of acceptance. -/
theorem owned_commands_reported_once (sessionId : SessionId) :
    (∀ (labels : List (RpcInput × List RpcOutput)) (server : RpcServer),
      Run RpcServer.Step (.start sessionId) labels server →
      ∃ reported : List _, rpcWire.completions labels = reported.map rpcWire.completion ∧
        (rpcWire.accepted labels).Perm (reported.map (·.1) ++ server.ownedRuns) ∧
        (rpcWire.settled labels).Perm (reported ++ waiting server.service server.ownedRuns) ∧
        ∀ p ∈ waiting server.service server.ownedRuns,
          ∃ next, server.step (.completed p.1) = some (next, [rpcWire.completion p])) ∧
    ∀ (labels : List (AppServerInput × List AppServerOutput)) (server : AppServer),
      Run AppServer.OrderlyStep .start labels server →
      ∃ reported : List _, appWire.completions labels = reported.map appWire.completion ∧
        appWire.accepted labels = reported.map (·.1) ++ server.ownedRun.toList ∧
        (appWire.settled labels).Perm
          (reported ++ waiting server.slots server.ownedRun.toList) ∧
        ∀ p ∈ waiting server.slots server.ownedRun.toList,
          ∃ next, server.step .completed = some (next, [appWire.completion p]) := by
  constructor
  · intro labels server run
    obtain ⟨tally, ledger, shown⟩ := RpcServer.ledger run
    exact ⟨tally.reported, shown.completed, shown.accepted ▸ ledger.accepted,
      shown.settled ▸ ledger.settled, fun p mem => RpcServer.step_completed ledger.owning mem⟩
  · intro labels server run
    obtain ⟨attached, tally, ledger, shown, order⟩ := AppServer.ledger run
    exact ⟨tally.reported, shown.completed, shown.accepted.trans order,
      shown.settled ▸ ledger.settled,
      fun p mem => AppServer.step_completed attached ledger.owning mem⟩

/-- A session is attached and a prompt is accepted, as command `0` of session `0`. -/
def promptedLabels : List (AppServerInput × List AppServerOutput) :=
  [(.request true (.serverInitialize true), [.response]),
    (.request true (.attach true (.ok (.ok ⟨0⟩))), [.response]),
    (.request true (.prompt ⟨0⟩ (.ok ⟨0⟩)), [.accepted ⟨⟨0⟩, ⟨0⟩⟩])]

/-- A prompt to the `JSONL` server is accepted, its task panics, and that is reported. -/
def panickedLabels : List (RpcInput × List RpcOutput) :=
  [(.command (.ok ⟨0⟩), [.commandAccepted ⟨⟨0⟩, ⟨0⟩⟩]), (.settles ⟨⟨0⟩, ⟨0⟩⟩ .panicked, []),
    (.completed ⟨⟨0⟩, ⟨0⟩⟩, [.finished (⟨⟨0⟩, ⟨0⟩⟩, .error runtimeError)])]

theorem owned_commands_reported_once_prompted :
    (∃ server, Run RpcServer.Step (.start ⟨0⟩) panickedLabels server ∧
      ∃ reported : List _, rpcWire.completions panickedLabels = reported.map rpcWire.completion ∧
        (rpcWire.accepted panickedLabels).Perm (reported.map (·.1) ++ server.ownedRuns)) ∧
    ∃ server, Run AppServer.OrderlyStep .start promptedLabels server ∧
      ∃ reported : List _, appWire.completions promptedLabels = reported.map appWire.completion ∧
        appWire.accepted promptedLabels = reported.map (·.1) ++ server.ownedRun.toList := by
  have panicked : ∃ server, Run RpcServer.Step (.start ⟨0⟩) panickedLabels server := by
    simp only [panickedLabels, Run.cons_iff, Run.nil_iff]
    exact ⟨_, _, rfl, _, rfl, _, rfl, rfl⟩
  have prompted : ∃ server, Run AppServer.OrderlyStep .start promptedLabels server := by
    simp only [promptedLabels, Run.cons_iff, Run.nil_iff]
    exact ⟨_, _, ⟨rfl, trivial⟩, _, ⟨rfl, trivial⟩, _, ⟨rfl, rfl⟩, rfl⟩
  obtain ⟨rpc, rpcRun⟩ := panicked
  obtain ⟨app, appRun⟩ := prompted
  obtain ⟨finished, messages, commands, -⟩ := (owned_commands_reported_once _).1 _ _ rpcRun
  obtain ⟨reported, completions, accepted, -⟩ := (owned_commands_reported_once ⟨0⟩).2 _ _ appRun
  exact ⟨⟨rpc, rpcRun, finished, messages, commands⟩, app, appRun, reported, completions, accepted⟩

/-- The approval is answered while the run that waits for it is still owned: the end of that run is
never reported, although both commands were accepted and none is left. -/
theorem awaited_command_unreported :
    ∃ labels server, Run AppServer.Step .start (promptedLabels ++ labels) server ∧
      appWire.accepted (promptedLabels ++ labels) = [⟨⟨0⟩, ⟨0⟩⟩, ⟨⟨1⟩, ⟨0⟩⟩] ∧
      appWire.completions (promptedLabels ++ labels) = [.turnCompleted .completed (some ⟨0⟩)] ∧
      server.ownedRun = none := by
  refine ⟨[(.settles ⟨⟨0⟩, ⟨0⟩⟩ (.returned (.ok (.runCompleted (some ⟨0⟩)))), []),
    (.request true (.approvalRespond ⟨0⟩ (.ok ⟨1⟩)), [.accepted ⟨⟨1⟩, ⟨0⟩⟩]),
    (.settles ⟨⟨1⟩, ⟨0⟩⟩ (.returned (.ok (.runCompleted none))), []),
    (.completed, [.turnCompleted .completed (some ⟨0⟩)])], ?_⟩
  simp only [promptedLabels, List.cons_append, List.nil_append, Run.cons_iff, Run.nil_iff]
  exact ⟨_, ⟨_, rfl, _, rfl, _, rfl, _, rfl, _, rfl, _, rfl, _, rfl, rfl⟩, rfl, rfl, rfl⟩

end TeaRs.Cli
