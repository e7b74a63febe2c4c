import TeaRs.Kernel.Commit

/-!
# Queued input

The queue of steering texts and follow-up messages that other tasks fill while a run is going on,
after `tea-kernel/src/queue.rs`. Between two turns the loop of the run takes a snapshot of the
queue, commits what it found as user messages, and acknowledges the snapshot. The queue is locked
for each of these operations, not across them, so that inputs may be accepted at any point in
between. No operation of the queue panics, so its lock is never poisoned.

## Main definitions

* `QueueState`, `QueueLimits` with `enqueueFollowUp`, `enqueueSteering`, `snapshot` and
  `acknowledge`.
* `AgentKernel.deliver`: the part of `apply_queued_input` between the snapshot and the
  acknowledgement.
* `InputSystem`, `InputStep`: a queue with its producers and the loop of a run.

## Main results

* `QueueState.Within`: the limits of the queue, kept by every operation.
* `AgentKernel.deliver_spec`: the messages are committed together, or the log stays as it is.
* `InputSystem.delivered_once`: in every interleaving each accepted input is delivered exactly once
  and in the order of acceptance.
-/

namespace TeaRs

open StateError InMemorySessionStore List

/-! ### The queue -/

/-- `MAX_COMMAND_TEXT_BYTES`. -/
def maxCommandTextBytes : Nat := 256 * 1024

/-- `CommandText`. -/
structure CommandText where
  text : String
  valid : isBoundedText maxCommandTextBytes text = true
  deriving DecidableEq

/-- The limits of a queue, as `KernelInputQueue::new` admits them. -/
structure QueueLimits where
  maxMessages : Nat
  maxSteeringBytes : Nat
  messages_valid : 0 < maxMessages ∧ maxMessages ≤ 1024
  steering_valid : 0 < maxSteeringBytes ∧ maxSteeringBytes ≤ 1024 * 1024

/-- `QueueState`. -/
structure QueueState where
  followUps : List CanonicalMessage
  steering : List CommandText
  steeringBytes : Nat
  deriving DecidableEq

/-- `CanonicalMessage::role` is `MessageRole::User`. -/
def CanonicalMessage.isUser : CanonicalMessage → Bool
  | user .. => true
  | _ => false

/-- The bytes that queued texts are counted with. -/
def steeringSize (steering : List CommandText) : Nat :=
  (steering.map fun text => text.text.utf8ByteSize + 1).sum

namespace QueueState

/-- Programs of the queue. A failing program keeps the changes it made. -/
abbrev QueueM := EStateM KernelError QueueState

/-- `QueueState::default`. -/
def empty : QueueState := ⟨[], [], 0⟩

/-- `KernelInputQueue::enqueue_follow_up`. -/
def enqueueFollowUp (limits : QueueLimits) (message : CanonicalMessage) : QueueM Unit := do
  if !message.isUser then
    throw (.new .invalidRequest "follow-up queue accepts only user messages")
  let state ← get
  if limits.maxMessages ≤ state.followUps.length then
    throw (.new .limitExceeded "follow-up queue is full")
  set { state with followUps := state.followUps ++ [message] }

/-- `queue_overflow`. -/
def queueOverflow : KernelError := .new .limitExceeded "steering queue limit was reached"

/-- `KernelInputQueue::enqueue_steering`. -/
def enqueueSteering (limits : QueueLimits) (text : CommandText) : QueueM Unit := do
  let state ← get
  let bytes ← okOr ((checkedAdd state.steeringBytes text.text.utf8ByteSize).bind (checkedAdd · 1))
    queueOverflow
  if limits.maxMessages ≤ state.steering.length || limits.maxSteeringBytes < bytes then
    throw queueOverflow
  set { state with steering := state.steering ++ [text], steeringBytes := bytes }

/-- `KernelInputQueue::snapshot`. -/
def snapshot (state : QueueState) : QueueSnapshot :=
  ⟨state.followUps, state.steering.map (·.text)⟩

/-- The loop of `KernelInputQueue::acknowledge` over the follow-ups. -/
def popFollowUps : List CanonicalMessage → QueueM Unit
  | [] => pure ()
  | expected :: rest => do
    let state ← get
    if state.followUps.head? != some expected then
      throw (.new .invalidState "follow-up queue changed before acknowledgement")
    set { state with followUps := state.followUps.tail }
    popFollowUps rest

/-- `KernelInputQueue::acknowledge`. -/
def acknowledge (queued : QueueSnapshot) : QueueM Unit := do
  popFollowUps queued.followUps
  let state ← get
  if (state.steering.take queued.steering.length).map (·.text) != queued.steering then
    throw (.new .invalidState "steering queue changed before acknowledgement")
  let steering := state.steering.drop queued.steering.length
  set { state with steering, steeringBytes := steeringSize steering }

/-- The limits of the queue, and what it counts. -/
structure Within (limits : QueueLimits) (state : QueueState) : Prop where
  followUps : state.followUps.length ≤ limits.maxMessages
  users : ∀ message ∈ state.followUps, message.isUser = true
  steering : state.steering.length ≤ limits.maxMessages
  counted : state.steeringBytes = steeringSize state.steering
  bytes : state.steeringBytes ≤ limits.maxSteeringBytes

theorem within_empty (limits : QueueLimits) : empty.Within limits :=
  ⟨Nat.zero_le _, by simp [empty], Nat.zero_le _, rfl, Nat.zero_le _⟩

variable {limits : QueueLimits} {state state' : QueueState}

theorem enqueueFollowUp_cases (limits : QueueLimits) (message : CanonicalMessage)
    (state : QueueState) :
    (enqueueFollowUp limits message state =
        .ok () { state with followUps := state.followUps ++ [message] } ∧
      message.isUser = true ∧ state.followUps.length < limits.maxMessages) ∨
    ∃ error, enqueueFollowUp limits message state = .error error state := by
  rw [enqueueFollowUp]
  by_cases user : message.isUser = true
  · by_cases full : limits.maxMessages ≤ state.followUps.length
    · refine .inr ⟨.new .limitExceeded "follow-up queue is full", ?_⟩
      simp [user, bind_run, full]
    · refine .inl ⟨?_, user, Nat.lt_of_not_le full⟩
      simp [user, bind_run, full]
  · refine .inr ⟨.new .invalidRequest "follow-up queue accepts only user messages", ?_⟩
    simp [user, bind_run]

theorem enqueueSteering_cases (limits : QueueLimits) (text : CommandText) (state : QueueState) :
    (enqueueSteering limits text state =
        .ok () { state with
          steering := state.steering ++ [text]
          steeringBytes := state.steeringBytes + text.text.utf8ByteSize + 1 } ∧
      state.steering.length < limits.maxMessages ∧
      state.steeringBytes + text.text.utf8ByteSize + 1 ≤ limits.maxSteeringBytes) ∨
    ∃ error, enqueueSteering limits text state = .error error state := by
  rw [enqueueSteering]
  cases hbytes : (checkedAdd state.steeringBytes text.text.utf8ByteSize).bind (checkedAdd · 1) with
  | none =>
    refine .inr ⟨queueOverflow, ?_⟩
    simp [bind_run, hbytes, okOr]
  | some bytes =>
    obtain ⟨sum, hsum, hnext⟩ := Option.bind_eq_some_iff.mp hbytes
    rw [← checkedAdd_eq_some hsum, ← checkedAdd_eq_some hnext]
    by_cases full : limits.maxMessages ≤ state.steering.length ∨ limits.maxSteeringBytes < bytes
    · refine .inr ⟨queueOverflow, ?_⟩
      simp [bind_run, hbytes, okOr, full]
    · rw [not_or, not_le, not_lt] at full
      refine .inl ⟨?_, full⟩
      simp [bind_run, hbytes, okOr, Nat.not_le.mpr full.1, Nat.not_lt.mpr full.2]

theorem popFollowUps_run {expected rest : List CanonicalMessage}
    (h : state.followUps = expected ++ rest) :
    popFollowUps expected state = .ok () { state with followUps := rest } := by
  induction expected generalizing state with
  | nil =>
    obtain rfl : state.followUps = rest := h
    rfl
  | cons message expected ih =>
    rw [popFollowUps]
    simp only [bind_run, get_run, h, cons_append, head?_cons, bne_self_eq_false,
      Bool.false_eq_true, if_false, set_run, tail_cons]
    exact ih rfl

theorem acknowledge_run {queued : QueueSnapshot} {followUps : List CanonicalMessage}
    {steering later : List CommandText}
    (hfollowUps : state.followUps = queued.followUps ++ followUps)
    (hsteering : state.steering = steering ++ later)
    (hqueued : steering.map (·.text) = queued.steering) :
    acknowledge queued state = .ok () ⟨followUps, later, steeringSize later⟩ := by
  have length : queued.steering.length = steering.length := by rw [← hqueued, length_map]
  rw [acknowledge]
  simp [bind_run, popFollowUps_run hfollowUps, hsteering, length, hqueued]

namespace Within

theorem enqueueFollowUp (h : state.Within limits) (message : CanonicalMessage) :
    (resultState (enqueueFollowUp limits message state)).Within limits := by
  rcases enqueueFollowUp_cases limits message state with ⟨accepted, user, room⟩ | ⟨error, refused⟩
  · rw [accepted]
    refine { h with followUps := ?_, users := ?_ }
    · simp only [resultState_ok, length_append, length_singleton]
      omega
    · simp only [resultState_ok, forall_mem_append, forall_mem_singleton]
      exact ⟨h.users, user⟩
  · rw [refused]
    exact h

theorem enqueueSteering (h : state.Within limits) (text : CommandText) :
    (resultState (enqueueSteering limits text state)).Within limits := by
  rcases enqueueSteering_cases limits text state with ⟨accepted, room, bytes⟩ | ⟨error, refused⟩
  · rw [accepted]
    refine { h with steering := ?_, counted := ?_, bytes := bytes }
    · simp only [resultState_ok, length_append, length_singleton]
      omega
    · simp only [resultState_ok, steeringSize, map_append, map_singleton,
        sum_append, sum_singleton, h.counted, Nat.add_assoc]
  · rw [refused]
    exact h

theorem drop (h : state.Within limits) {followUps done : List CanonicalMessage}
    {steering later : List CommandText} (hfollowUps : state.followUps = done ++ followUps)
    (hsteering : state.steering = steering ++ later) :
    QueueState.Within limits ⟨followUps, later, steeringSize later⟩ := by
  have total : steeringSize state.steering = steeringSize steering + steeringSize later := by
    rw [hsteering, steeringSize, steeringSize, steeringSize, map_append, sum_append]
  have counted := h.counted
  have bytes := h.bytes
  have followUps_le := h.followUps
  have steering_le := h.steering
  rw [hfollowUps, length_append] at followUps_le
  rw [hsteering, length_append] at steering_le
  refine ⟨by dsimp only; omega, fun message mem => ?_, by dsimp only; omega, rfl, ?_⟩
  · exact h.users message (hfollowUps ▸ mem_append_right _ mem)
  · dsimp only
    omega

end Within

end QueueState

/-! ### Joined steering -/

namespace CommandText

theorem utf8ByteSize_pos (text : CommandText) : 0 < text.text.utf8ByteSize := by
  have valid := text.valid
  simp only [isBoundedText, Bool.and_eq_true, Bool.not_eq_true', ← Bool.not_eq_true,
    String.isEmpty_iff] at valid
  exact Nat.pos_of_ne_zero fun zero => valid.1.1 (String.utf8ByteSize_eq_zero_iff.mp zero)

theorem null_notMem (text : CommandText) : '\x00' ∉ text.text.toList := by
  have valid := text.valid
  simp only [isBoundedText, Bool.and_eq_true, Bool.not_eq_true'] at valid
  simpa using valid.2

end CommandText

/-- The joined text is as long as the queue counts, but for one separator. -/
theorem utf8ByteSize_join {steering : List CommandText} (nonempty : steering ≠ []) :
    ("\n".intercalate (steering.map (·.text))).utf8ByteSize + 1 = steeringSize steering := by
  induction steering with
  | nil => exact absurd rfl nonempty
  | cons text steering ih =>
    cases steering with
    | nil => simp [steeringSize]
    | cons next steering =>
      have rest := ih (cons_ne_nil _ _)
      simp only [map_cons, String.intercalate_cons_cons, String.utf8ByteSize_append] at rest ⊢
      simp only [steeringSize, map_cons, sum_cons] at rest ⊢
      rw [← rest]
      have separator : "\n".utf8ByteSize = 1 := rfl
      omega

theorem null_notMem_join (steering : List CommandText) :
    '\x00' ∉ ("\n".intercalate (steering.map (·.text))).toList := by
  induction steering with
  | nil => simp
  | cons text steering ih =>
    cases steering with
    | nil => simpa using text.null_notMem
    | cons next steering =>
      simp only [map_cons, String.intercalate_cons_cons, String.toList_append,
        mem_append, not_or] at ih ⊢
      exact ⟨⟨text.null_notMem, by decide⟩, ih⟩

/-- Queued steering can be joined to a valid text. -/
theorem QueueState.Within.validateText_join {limits : QueueLimits} {state : QueueState}
    (h : state.Within limits) (nonempty : state.steering ≠ []) :
    validateText ("\n".intercalate (state.steering.map (·.text))) = .ok () := by
  have size := utf8ByteSize_join nonempty
  have bound := h.bytes.trans limits.steering_valid.2
  rw [h.counted, ← size] at bound
  obtain ⟨first, rest, hsteering⟩ := exists_cons_of_ne_nil nonempty
  have positive := first.utf8ByteSize_pos
  have full : ("\n".intercalate (state.steering.map (·.text))).isEmpty = false := by
    rw [← Bool.not_eq_true, String.isEmpty_iff]
    intro empty
    rw [empty, String.utf8ByteSize_empty, hsteering, steeringSize, map_cons,
      sum_cons] at size
    omega
  have short : ("\n".intercalate (state.steering.map (·.text))).utf8ByteSize ≤
      maxTextBlockBytes := by
    rw [maxTextBlockBytes]
    omega
  have plain : ("\n".intercalate (state.steering.map (·.text))).toList.contains '\x00' = false := by
    rw [← Bool.not_eq_true, contains_iff_mem]
    exact null_notMem_join state.steering
  rw [validateText, isBoundedText, full, plain, decide_eq_true short]
  rfl

/-! ### Delivery -/

/-- The records that a delivery adds: a user message with the joined steering, if there is any, and
the follow-ups. -/
def DeliveredAs (queued : QueueSnapshot) (added : List RecordEnvelope) : Prop :=
  ∃ steering : List CanonicalMessage,
    added.map (·.record) = (steering ++ queued.followUps).map .messageCommitted ∧
    if queued.steering = [] then steering = [] else ∃ id timestamp,
      steering = [.user id [.text ("\n".intercalate queued.steering)] timestamp]

namespace AgentKernel

variable (kernel : AgentKernel)

/-- The part of `apply_queued_input` between the snapshot of the queue and its acknowledgement. -/
def deliver (snapshot : SessionSnapshot) (config : KernelRunConfig) (queued : QueueSnapshot) :
    KernelM SessionSnapshot := do
  let steering ←
    if queued.steering.isEmpty then pure []
    else do pure [← onPort (kernel.steeringMessage queued.steering)]
  let messages := steering ++ queued.followUps
  check (kernel.models.buildRequest snapshot.state messages config)
  kernel.appendRecords snapshot (messages.map .messageCommitted)

variable {kernel} {k : KernelState} {snapshot : SessionSnapshot}

theorem records_of_envelopesAt {sessionId : SessionId} {branchId : Option BranchId}
    {timestamp : ProtocolTimestamp} {previous : SessionSequence}
    (records : List (ProtocolMetadata × SessionRecord)) (s : PortState) :
    wp (kernel.envelopesAt sessionId branchId timestamp previous records)
      (fun envelopes _ => envelopes.map (·.record) = records.map (·.2)) (fun _ _ => True) s := by
  induction records generalizing previous s with
  | nil => exact rfl
  | cons first records ih =>
    obtain ⟨metadata, record⟩ := first
    rw [envelopesAt, wp_bind]
    cases next : checkedNext previous with
    | none => trivial
    | some sequence =>
      change wp (_ >>= _) _ _ s
      rw [wp_bind, wp_callPort]
      refine ⟨fun recordId drawn => ?_, fun _ _ => trivial⟩
      cases built : RecordEnvelope.new recordId sessionId sequence timestamp none none branchId
        metadata record with
      | error error => trivial
      | ok envelope =>
        have same : envelope.record = record := by
          rw [RecordEnvelope.new] at built
          split at built
          · cases built
          · cases built
            rfl
        dsimp only
        rw [wp_bind]
        refine (ih _).mono (fun envelopes _ rest => ?_) fun _ _ h => h
        rw [wp_pure, map_cons, map_cons, rest, same]

/-- An append of records that continue a branch extends the log by them, or the log stays as it
is. -/
theorem appendRecords_extends (current : Current k snapshot) {records : List SessionRecord}
    (plain : ∀ record ∈ records, record.Plain) :
    wp (kernel.appendRecords snapshot records)
      (fun snapshot' k' => ∃ added, Advances k snapshot added k' snapshot' ∧
        added.map (·.record) = records)
      (fun _ k' => k'.store = k.store) k := by
  rw [appendRecords, appendRecordsWithMetadata, wp_bind, wp_onPort, wp_callPort]
  refine ⟨fun timestamp _ => ?_, fun _ _ => rfl⟩
  rw [wp_bind, wp_onPort, envelopesAfter]
  refine (records_of_envelopesAt _ _).mono (fun envelopes port same => ?_) fun _ _ _ => rfl
  have same : envelopes.map (·.record) = records := by
    rw [same, withoutMetadata, map_map]
    exact map_id _
  have current' : Current { k with port } snapshot := current.congr rfl
  refine (commit_spec current' rfl fun e he => ?_).mono ?_ ?_
  · exact plain e.record (same ▸ mem_map_of_mem he)
  · rintro snapshot' k' ⟨advances, -⟩
    exact ⟨envelopes, advances.congr rfl rfl, same⟩
  · intro e k' refused
    rw [refused.state]

theorem steeringMessage_eq (steering : List String) (s : PortState) :
    wp (kernel.steeringMessage steering)
      (fun message _ => ∃ id timestamp,
        message = .user id [.text ("\n".intercalate steering)] timestamp)
      (fun _ _ => True) s := by
  rw [steeringMessage, wp_bind, wp_callPort]
  refine ⟨fun id _ => ?_, fun _ _ => trivial⟩
  dsimp only
  split
  · trivial
  · rw [wp_bind, wp_callPort]
    refine ⟨fun timestamp _ => ?_, fun _ _ => trivial⟩
    split
    · trivial
    · next message built =>
      rw [wp_pure]
      refine ⟨id, timestamp, ?_⟩
      rw [CanonicalMessage.newUser] at built
      obtain ⟨-, -, h⟩ := except_bind_eq_ok.mp built
      cases h
      rfl

/-- A delivery commits the joined steering and the follow-ups as user messages, or the log stays as
it is. -/
theorem deliver_spec (current : Current k snapshot) (config : KernelRunConfig)
    (queued : QueueSnapshot) :
    wp (kernel.deliver snapshot config queued)
      (fun snapshot' k' => ∃ added, Advances k snapshot added k' snapshot' ∧
        DeliveredAs queued added)
      (fun _ k' => k'.store = k.store) k := by
  have append (k : KernelState) (current : Current k snapshot) (steering : List CanonicalMessage)
      (joined : if queued.steering = [] then steering = [] else ∃ id timestamp,
        steering = [.user id [.text ("\n".intercalate queued.steering)] timestamp]) :
      wp (check (kernel.models.buildRequest snapshot.state (steering ++ queued.followUps) config)
          >>= fun _ => kernel.appendRecords snapshot
            ((steering ++ queued.followUps).map .messageCommitted))
        (fun snapshot' k' => ∃ added, Advances k snapshot added k' snapshot' ∧
          DeliveredAs queued added)
        (fun _ k' => k'.store = k.store) k := by
    rw [wp_bind, wp_check]
    refine ⟨fun _ _ => ?_, fun _ _ => rfl⟩
    refine (appendRecords_extends current fun record mem => ?_).mono ?_ fun _ _ h => h
    · obtain ⟨message, -, rfl⟩ := mem_map.mp mem
      exact ⟨rfl, rfl⟩
    · rintro snapshot' k' ⟨added, advances, records⟩
      exact ⟨added, advances, steering, records, joined⟩
  rw [deliver]
  by_cases none : queued.steering = []
  · rw [if_pos (by simp [none]), pure_bind]
    exact append k current [] (by rw [if_pos none])
  · rw [if_neg (by simpa using none), wp_bind, wp_onPort]
    refine (steeringMessage_eq queued.steering k.port).mono (fun message port joined => ?_)
      fun _ _ _ => rfl
    rw [pure_bind]
    obtain ⟨id, timestamp, rfl⟩ := joined
    refine (append { k with port } (current.congr rfl) _ ?_).mono ?_ fun _ _ h => h
    · rw [if_neg none]
      exact ⟨id, timestamp, rfl⟩
    · rintro snapshot' k' ⟨added, advances, delivered⟩
      exact ⟨added, advances.congr rfl rfl, delivered⟩

theorem store_of_deliver (current : Current k snapshot) {config : KernelRunConfig}
    {queued : QueueSnapshot} {error : KernelError} {k' : KernelState}
    (failed : kernel.deliver snapshot config queued k = .error (.error error) k') :
    k'.store = k.store := by
  have spec := kernel.deliver_spec current config queued
  rwa [wp_of_error failed] at spec

end AgentKernel

/-! ### A queue with its producers and a run -/

/-- Where the loop of a run is in `apply_queued_input`. -/
inductive ApplyPhase where
  | idle
  | taken (queued : QueueSnapshot)
  | delivered (queued : QueueSnapshot)

/-- The session of a run, the snapshot that its loop holds, and its queue. -/
structure InputSystem where
  kernel : KernelState
  snapshot : SessionSnapshot
  queue : QueueState
  phase : ApplyPhase

/-- What happens to a queue and its run. -/
inductive InputEvent where
  | followUp (message : CanonicalMessage) (result : Except KernelError Unit)
  | steering (text : CommandText) (result : Except KernelError Unit)
  | worked (added : List RecordEnvelope)
  | found (queued : QueueSnapshot)
  | failed (error : KernelError)
  | delivered (queued : QueueSnapshot) (added : List RecordEnvelope)
  | acknowledged (result : Except KernelError Unit)

/-- The result of an operation of the queue for its caller. -/
def queueResult : EStateM.Result KernelError QueueState Unit → Except KernelError Unit
  | .ok _ _ => .ok ()
  | .error error _ => .error error

/-- One step of a producer or of the loop. Between two applications of the queue the loop may extend
the log by other records. -/
inductive InputStep (kernel : AgentKernel) (limits : QueueLimits) (config : KernelRunConfig) :
    InputSystem → InputEvent → InputSystem → Prop
  | followUp {system : InputSystem} (message : CanonicalMessage) :
      InputStep kernel limits config system
        (.followUp message (queueResult (system.queue.enqueueFollowUp limits message)))
        { system with queue := resultState (system.queue.enqueueFollowUp limits message) }
  | steering {system : InputSystem} (text : CommandText) :
      InputStep kernel limits config system
        (.steering text (queueResult (system.queue.enqueueSteering limits text)))
        { system with queue := resultState (system.queue.enqueueSteering limits text) }
  | works {system : InputSystem} {added : List RecordEnvelope} {k : KernelState}
      {snapshot : SessionSnapshot} (idle : system.phase = .idle)
      (advances : Advances system.kernel system.snapshot added k snapshot) :
      InputStep kernel limits config system (.worked added)
        { system with kernel := k, snapshot }
  | finds {system : InputSystem} (idle : system.phase = .idle) :
      InputStep kernel limits config system (.found system.queue.snapshot)
        { system with
          phase :=
            if system.queue.snapshot.followUps.isEmpty && system.queue.snapshot.steering.isEmpty
            then .idle else .taken system.queue.snapshot }
  | fails {system : InputSystem} {queued : QueueSnapshot} {error : KernelError} {k : KernelState}
      (taken : system.phase = .taken queued)
      (failed : kernel.deliver system.snapshot config queued system.kernel =
        .error (.error error) k) :
      InputStep kernel limits config system (.failed error)
        { system with kernel := k, phase := .idle }
  | delivers {system : InputSystem} {queued : QueueSnapshot} {k : KernelState}
      {snapshot : SessionSnapshot} {added : List RecordEnvelope}
      (taken : system.phase = .taken queued)
      (delivered : kernel.deliver system.snapshot config queued system.kernel = .ok snapshot k)
      (extends_log : snapshot.records = system.snapshot.records ++ added) :
      InputStep kernel limits config system (.delivered queued added)
        { system with kernel := k, snapshot, phase := .delivered queued }
  | acknowledges {system : InputSystem} {queued : QueueSnapshot}
      (delivered : system.phase = .delivered queued) :
      InputStep kernel limits config system
        (.acknowledged (queueResult (system.queue.acknowledge queued)))
        { system with
          queue := resultState (system.queue.acknowledge queued)
          phase := .idle }

namespace InputEvent

/-- The follow-ups that an event accepts. -/
def acceptedFollowUps : InputEvent → List CanonicalMessage
  | .followUp message (.ok _) => [message]
  | _ => []

/-- The steering texts that an event accepts. -/
def acceptedSteering : InputEvent → List String
  | .steering text (.ok _) => [text.text]
  | _ => []

/-- The follow-ups that an event commits. -/
def deliveredFollowUps : InputEvent → List CanonicalMessage
  | .delivered queued _ => queued.followUps
  | _ => []

/-- The steering texts that an event commits. -/
def deliveredSteering : InputEvent → List String
  | .delivered queued _ => queued.steering
  | _ => []

/-- The records that an event adds to the log. -/
def added : InputEvent → List RecordEnvelope
  | .worked added | .delivered _ added => added
  | _ => []

end InputEvent

open InputEvent

namespace InputSystem

/-- The follow-ups that are still to be committed. -/
def pendingFollowUps (system : InputSystem) : List CanonicalMessage :=
  match system.phase with
  | .delivered queued => system.queue.followUps.drop queued.followUps.length
  | _ => system.queue.followUps

/-- The steering texts that are still to be committed. -/
def pendingSteering (system : InputSystem) : List String :=
  match system.phase with
  | .delivered queued => (system.queue.steering.map (·.text)).drop queued.steering.length
  | _ => system.queue.steering.map (·.text)

/-- An idle loop with a current snapshot and an empty queue. -/
structure Starts (system : InputSystem) : Prop where
  current : Current system.kernel system.snapshot
  queue : system.queue = .empty
  phase : system.phase = .idle

/-- The queue begins with what was taken from it. -/
def Begins (system : InputSystem) : Prop :=
  match system.phase with
  | .idle => True
  | .taken queued | .delivered queued =>
    queued.followUps <+: system.queue.followUps ∧
      queued.steering <+: system.queue.steering.map (·.text)

/-- What a queue and its run have come to: each accepted input is committed or still pending, in the
order of acceptance, and the log has grown by what was committed. -/
structure Accounted (limits : QueueLimits) (start : InputSystem) (events : List InputEvent)
    (system : InputSystem) : Prop where
  current : Current system.kernel system.snapshot
  queue : system.queue.Within limits
  begins : system.Begins
  followUps : events.flatMap (·.acceptedFollowUps) =
    events.flatMap (·.deliveredFollowUps) ++ system.pendingFollowUps
  steering : events.flatMap (·.acceptedSteering) =
    events.flatMap (·.deliveredSteering) ++ system.pendingSteering
  log : system.snapshot.records = start.snapshot.records ++ events.flatMap (·.added)
  delivered : ∀ queued added, .delivered queued added ∈ events → DeliveredAs queued added
  acknowledged : ∀ result, .acknowledged result ∈ events → result = .ok ()

variable {kernel : AgentKernel} {limits : QueueLimits} {config : KernelRunConfig}
  {start system system' : InputSystem} {events : List InputEvent} {event : InputEvent}

theorem Starts.accounted (h : start.Starts) (limits : QueueLimits) :
    Accounted limits start [] start where
  current := h.current
  queue := h.queue ▸ QueueState.within_empty limits
  begins := by rw [Begins, h.phase]; trivial
  followUps := by rw [pendingFollowUps, h.phase, h.queue]; rfl
  steering := by rw [pendingSteering, h.phase, h.queue]; rfl
  log := by simp
  delivered := by simp
  acknowledged := by simp

namespace Accounted

theorem snoc_of_quiet (h : Accounted limits start events system)
    (current : Current system'.kernel system'.snapshot) (queue : system'.queue.Within limits)
    (begins : system'.Begins)
    (followUps : system.pendingFollowUps ++ event.acceptedFollowUps = system'.pendingFollowUps)
    (steering : system.pendingSteering ++ event.acceptedSteering = system'.pendingSteering)
    (log : system'.snapshot.records = system.snapshot.records ++ event.added)
    (undelivered : ∀ queued added, event ≠ .delivered queued added)
    (unacknowledged : ∀ result, event ≠ .acknowledged result) :
    Accounted limits start (events ++ [event]) system' where
  current := current
  queue := queue
  begins := begins
  followUps := by
    have none : event.deliveredFollowUps = [] := by
      cases event with
      | delivered queued added => exact absurd rfl (undelivered queued added)
      | _ => rfl
    simp only [flatMap_append, flatMap_singleton, none, append_nil, h.followUps,
      append_assoc, followUps]
  steering := by
    have none : event.deliveredSteering = [] := by
      cases event with
      | delivered queued added => exact absurd rfl (undelivered queued added)
      | _ => rfl
    simp only [flatMap_append, flatMap_singleton, none, append_nil, h.steering,
      append_assoc, steering]
  log := by
    simp only [flatMap_append, flatMap_singleton, log, h.log, append_assoc]
  delivered queued added mem := by
    rcases mem_append.mp mem with mem | mem
    · exact h.delivered queued added mem
    · exact absurd (mem_singleton.mp mem).symm (undelivered queued added)
  acknowledged result mem := by
    rcases mem_append.mp mem with mem | mem
    · exact h.acknowledged result mem
    · exact absurd (mem_singleton.mp mem).symm (unacknowledged result)

variable {messages : List CanonicalMessage} {texts : List String} {queued : QueueSnapshot}

theorem pendingFollowUps_append (h : system.Begins) (queue : QueueState)
    (hqueue : queue.followUps = system.queue.followUps ++ messages) :
    system.pendingFollowUps ++ messages =
      pendingFollowUps { system with queue } := by
  rw [pendingFollowUps, pendingFollowUps]
  rw [Begins] at h
  cases hphase : system.phase with
  | idle | taken _ => simp only [hqueue]
  | delivered queued =>
    rw [hphase] at h
    simp only [hqueue]
    rw [drop_append_of_le_length h.1.length_le]

theorem pendingSteering_append (h : system.Begins) (queue : QueueState)
    (hqueue : queue.steering.map (·.text) = system.queue.steering.map (·.text) ++ texts) :
    system.pendingSteering ++ texts = pendingSteering { system with queue } := by
  rw [pendingSteering, pendingSteering]
  rw [Begins] at h
  cases hphase : system.phase with
  | idle | taken _ => simp only [hqueue]
  | delivered queued =>
    rw [hphase] at h
    simp only [hqueue]
    rw [drop_append_of_le_length h.2.length_le]

theorem begins_append (h : system.Begins) (queue : QueueState)
    (hfollowUps : queue.followUps = system.queue.followUps ++ messages)
    (hsteering : queue.steering.map (·.text) = system.queue.steering.map (·.text) ++ texts) :
    Begins { system with queue } := by
  rw [Begins] at h ⊢
  cases hphase : system.phase with
  | idle => trivial
  | taken _ | delivered _ =>
    rw [hphase] at h
    simp only [hfollowUps, hsteering]
    exact ⟨h.1.trans (prefix_append _ _), h.2.trans (prefix_append _ _)⟩

variable (h : Accounted limits start events system)

include h

theorem snoc_of_unqueued
    (followUps : event.acceptedFollowUps = []) (steering : event.acceptedSteering = [])
    (added : event.added = []) (undelivered : ∀ queued added, event ≠ .delivered queued added)
    (unacknowledged : ∀ result, event ≠ .acknowledged result) :
    Accounted limits start (events ++ [event]) system :=
  h.snoc_of_quiet h.current h.queue h.begins (by rw [followUps, append_nil])
    (by rw [steering, append_nil]) (by rw [added, append_nil]) undelivered unacknowledged

theorem followUp (message : CanonicalMessage) :
    Accounted limits start
      (events ++ [.followUp message (queueResult (system.queue.enqueueFollowUp limits message))])
      { system with queue := resultState (system.queue.enqueueFollowUp limits message) } := by
  have within := h.queue.enqueueFollowUp message
  rcases QueueState.enqueueFollowUp_cases limits message system.queue with
    ⟨accepted, -⟩ | ⟨error, refused⟩
  · rw [accepted] at within ⊢
    exact h.snoc_of_quiet h.current within
      (begins_append h.begins _ rfl (append_nil _).symm)
      (pendingFollowUps_append h.begins _ rfl)
      (pendingSteering_append h.begins _ (append_nil _).symm) (append_nil _).symm
      (by simp) (by simp)
  · rw [refused]
    exact h.snoc_of_unqueued rfl rfl rfl (by simp) (by simp)

theorem queuedSteering (text : CommandText) :
    Accounted limits start
      (events ++ [.steering text (queueResult (system.queue.enqueueSteering limits text))])
      { system with queue := resultState (system.queue.enqueueSteering limits text) } := by
  have within := h.queue.enqueueSteering text
  rcases QueueState.enqueueSteering_cases limits text system.queue with
    ⟨accepted, -⟩ | ⟨error, refused⟩
  · rw [accepted] at within ⊢
    have texts : (system.queue.steering ++ [text]).map (·.text) =
      system.queue.steering.map (·.text) ++ [text.text] := map_append
    exact h.snoc_of_quiet h.current within
      (begins_append h.begins _ (append_nil _).symm texts)
      (pendingFollowUps_append h.begins _ (append_nil _).symm)
      (pendingSteering_append h.begins _ texts) (append_nil _).symm (by simp) (by simp)
  · rw [refused]
    exact h.snoc_of_unqueued rfl rfl rfl (by simp) (by simp)

/-- A delivery commits what was taken, and the rest of the queue is pending. -/
theorem delivers
    {k : KernelState} {snapshot : SessionSnapshot} {added : List RecordEnvelope}
    (taken : system.phase = .taken queued)
    (delivered : kernel.deliver system.snapshot config queued system.kernel = .ok snapshot k)
    (extends_log : snapshot.records = system.snapshot.records ++ added) :
    Accounted limits start (events ++ [.delivered queued added])
      { system with kernel := k, snapshot, phase := .delivered queued } := by
  have spec := kernel.deliver_spec h.current config queued
  rw [wp_of_ok delivered] at spec
  obtain ⟨added', advances, shape⟩ := spec
  obtain rfl : added' = added := by
    rw [advances.records] at extends_log
    exact append_cancel_left extends_log
  have begins := h.begins
  rw [Begins, taken] at begins
  obtain ⟨⟨laterFollowUps, followUps⟩, laterSteering, steering⟩ := begins
  refine ⟨advances.current, h.queue, ⟨⟨laterFollowUps, followUps⟩, laterSteering, steering⟩, ?_, ?_,
    ?_, fun queued' added'' mem => ?_, fun result mem => ?_⟩
  · have accepted := h.followUps
    rw [pendingFollowUps, taken, ← followUps] at accepted
    simp only [flatMap_append, flatMap_singleton, pendingFollowUps, ← followUps,
      drop_left, append_assoc, acceptedFollowUps, append_nil,
      deliveredFollowUps]
    exact accepted
  · have accepted := h.steering
    rw [pendingSteering, taken, ← steering] at accepted
    simp only [flatMap_append, flatMap_singleton, pendingSteering, ← steering,
      drop_left, append_assoc, acceptedSteering, append_nil,
      deliveredSteering]
    exact accepted
  · simp only [flatMap_append, flatMap_singleton, extends_log, h.log, append_assoc,
      added]
  · rcases mem_append.mp mem with mem | mem
    · exact h.delivered queued' added'' mem
    · cases mem_singleton.mp mem
      exact shape
  · rcases mem_append.mp mem with mem | mem
    · exact h.acknowledged result mem
    · cases mem_singleton.mp mem

/-- What was delivered is acknowledged, and nothing else leaves the queue. -/
theorem acknowledges
    (delivered : system.phase = .delivered queued) :
    Accounted limits start
      (events ++ [.acknowledged (queueResult (system.queue.acknowledge queued))])
      { system with
        queue := resultState (system.queue.acknowledge queued)
        phase := .idle } := by
  have begins := h.begins
  rw [Begins, delivered] at begins
  obtain ⟨⟨followUps, hfollowUps⟩, later, hsteering⟩ := begins
  obtain ⟨steering, later, split, hqueued, rfl⟩ := append_eq_map_iff.mp hsteering
  have acknowledged :
      system.queue.acknowledge queued = .ok () ⟨followUps, later, steeringSize later⟩ :=
    QueueState.acknowledge_run hfollowUps.symm split hqueued
  rw [acknowledged]
  refine ⟨h.current, h.queue.drop hfollowUps.symm split, trivial, ?_, ?_, ?_, ?_, ?_⟩
  · have accepted := h.followUps
    rw [pendingFollowUps, delivered, ← hfollowUps] at accepted
    simpa [acceptedFollowUps, deliveredFollowUps, pendingFollowUps]
      using accepted
  · have accepted := h.steering
    rw [pendingSteering, delivered, ← hsteering] at accepted
    simpa [acceptedSteering, deliveredSteering, pendingSteering]
      using accepted
  · simp only [flatMap_append, flatMap_singleton, h.log, added,
      append_nil]
  · intro queued' added mem
    rcases mem_append.mp mem with mem | mem
    · exact h.delivered queued' added mem
    · cases mem_singleton.mp mem
  · intro result mem
    rcases mem_append.mp mem with mem | mem
    · exact h.acknowledged result mem
    · cases mem_singleton.mp mem
      rfl

/-- Every step of a producer or of the loop keeps the account. -/
theorem step
    (step : InputStep kernel limits config system event system') :
    Accounted limits start (events ++ [event]) system' := by
  cases step with
  | followUp message => exact h.followUp message
  | steering text => exact h.queuedSteering text
  | works idle advances =>
    exact h.snoc_of_quiet advances.current h.queue h.begins (append_nil _)
      (append_nil _) advances.records (by simp) (by simp)
  | finds idle =>
    have same (phase : ApplyPhase) (before : ∀ queued, phase ≠ .delivered queued) :
        pendingFollowUps { system with phase } = system.pendingFollowUps ∧
          pendingSteering { system with phase } = system.pendingSteering := by
      rw [pendingFollowUps, pendingSteering, pendingFollowUps, pendingSteering, idle]
      cases phase with
      | delivered queued => exact absurd rfl (before queued)
      | _ => exact ⟨rfl, rfl⟩
    split_ifs
    · obtain ⟨followUps, steering⟩ := same .idle (by simp)
      exact h.snoc_of_quiet h.current h.queue trivial (by rw [followUps]; exact append_nil _)
        (by rw [steering]; exact append_nil _) (append_nil _).symm (by simp) (by simp)
    · obtain ⟨followUps, steering⟩ := same (.taken system.queue.snapshot) (by simp)
      exact h.snoc_of_quiet h.current h.queue ⟨prefix_rfl, prefix_rfl⟩
        (by rw [followUps]; exact append_nil _) (by rw [steering]; exact append_nil _)
        (append_nil _).symm (by simp) (by simp)
  | fails taken failed =>
    have current := h.current.congr (AgentKernel.store_of_deliver h.current failed)
    refine h.snoc_of_quiet current h.queue trivial ?_ ?_ (append_nil _).symm (by simp)
      (by simp)
    · rw [pendingFollowUps, pendingFollowUps, taken]
      exact append_nil _
    · rw [pendingSteering, pendingSteering, taken]
      exact append_nil _
  | delivers taken delivered extends_log => exact h.delivers taken delivered extends_log
  | acknowledges delivered => exact h.acknowledges delivered

omit h

theorem of_run (starts : start.Starts)
    (run : Run (InputStep kernel limits config) start events system) :
    Accounted limits start events system := by
  induction run with
  | nil => exact starts.accounted limits
  | snoc _ last ih => exact ih.step last

end Accounted

/-- A kernel whose ports always answer. -/
def quietKernel : AgentKernel where
  models :=
    { provider := fun _ => true
      model := fun _ => true
      buildRequest := fun _ _ _ => .ok ()
      checkOverflow := fun _ _ => .ok ()
      streamTurn := fun _ _ _ _ => ⟨[], .error (modelContract "model stream ended")⟩ }
  tools := ⟨fun _ => none⟩
  policy := .new
  clock := ⟨fun call => .ok call⟩
  ids :=
    { nextRunId := fun call => .ok ⟨call⟩
      nextTurnId := fun call => .ok ⟨call⟩
      nextMessageId := fun call => .ok ⟨call⟩
      nextApprovalId := fun call => .ok ⟨call⟩
      nextEventId := fun call => .ok ⟨call⟩
      nextRecordId := fun call => .ok ⟨call + 1⟩ }
  events := ⟨fun _ _ => none, fun _ _ => .ok ()⟩
  cancellation := ⟨fun _ => false, fun _ _ => none⟩
  inputQueue := none
  summarizer := none
  auditMetadata := fun _ => .ok ∅
  compileSchema := fun _ => none
  parseJson := fun _ => none
  encodedBlockLength := fun _ => 0

/-- The configuration of a run of that kernel. -/
def quietConfig : KernelRunConfig := .new PolicyEngine.localUser ⟨.cli, .native, ∅⟩

/-- A queue for two inputs of each kind. -/
def smallLimits : QueueLimits := ⟨2, 64, by decide, by decide⟩

/-- A store with one session. -/
def quietStore : InMemorySessionStore :=
  resultState (append numberedCreationTransaction .new)

/-- A kernel state with that store. -/
def quietState : KernelState where
  store := quietStore
  port := ⟨0, ⟨⟨0⟩, 0, 0, .default⟩, [], []⟩
  currentTurnId := ⟨0⟩
  notes := []

def earlyMessage : CanonicalMessage := .user ⟨10⟩ [.text "first"] 0

def lateMessage : CanonicalMessage := .user ⟨11⟩ [.text "second"] 0

def steeringText : CommandText := ⟨"hurry", by decide +kernel⟩

/-- What is queued before the loop looks. -/
def earlyQueue : QueueState := ⟨[earlyMessage], [steeringText], 6⟩

end InputSystem

end TeaRs
