import TeaRs.Lib.Run
import TeaRs.Mcp.Connection

/-!
# Traffic between an MCP client and its server

The transport checks every message that passes it (`tea-mcp/src/transport.rs`): the identifiers of
requests that wait for an answer, in both directions, and the number of notifications in a row. What
does not fit is recorded as a failure, and the connection ends. Messages travel in two queues, so that
an answer and the cancellation of its request can cross.

## Main definitions

* `TransportState.validateOutbound`, `TransportState.validateInbound`.
* `Wire`: client, server and the messages between them; `Wire.step`.
* `Wire.Met`: the condition under which a step fits.

## Main results

* `Wire.step_spec`: a step from a state without failure records one exactly if it does not fit.
* `Wire.traffic_accepted_iff`: a run records no failure exactly if all its steps fit.
-/

namespace TeaRs.Mcp

open List

/-- `RequestId`. -/
inductive RequestId where
  | number (value : Int)
  | text (value : String)
  deriving DecidableEq, Repr

/-- `ClientJsonRpcMessage`, as far as the transport reads it. -/
inductive ClientMessage where
  | request (id : RequestId)
  | response (id : RequestId)
  | error (id : Option RequestId)
  | cancelled (id : Option RequestId)
  | notification
  deriving DecidableEq, Repr

/-- `ServerJsonRpcMessage`, as far as the transport reads it. -/
inductive ServerMessage where
  | response (id : RequestId)
  | error (id : Option RequestId)
  | request (id : RequestId)
  | notification (toolListChanged : Bool)
  deriving DecidableEq, Repr

/-- The request that a message of the server answers. -/
def ServerMessage.answers : ServerMessage → Option RequestId
  | response id => some id
  | error id => id
  | _ => none

/-- The request that a message of the server makes. -/
def ServerMessage.requests : ServerMessage → Option RequestId
  | request id => some id
  | _ => none

/-- `TransportState`. -/
structure TransportState where
  outboundRequests : Finset RequestId
  inboundRequests : Finset RequestId
  notificationStreak : Nat
  maxInFlight : Nat
  maxNotifications : Nat
  failure : Option McpErrorCode
  catalogStale : Bool
  deriving DecidableEq

namespace TransportState

/-- `TransportShared::new`. -/
def new (maxInFlight maxNotifications : Nat) : TransportState :=
  ⟨∅, ∅, 0, maxInFlight, maxNotifications, none, false⟩

/-- Record a failure and refuse the message. -/
def refuse {α : Type} (state : TransportState) : Except McpErrorCode α × TransportState :=
  (.error .transport, { state with failure := some .transport })

/-- Settle a request of the server, or refuse. -/
def settleInbound (state : TransportState) (id : RequestId) :
    Except McpErrorCode (Option RequestId) × TransportState :=
  if id ∈ state.inboundRequests then
    (.ok none, { state with inboundRequests := state.inboundRequests.erase id })
  else state.refuse

/-- Settle a request of the client, or refuse. -/
def settleOutbound (state : TransportState) (id : RequestId) :
    Except McpErrorCode Unit × TransportState :=
  if id ∈ state.outboundRequests then
    (.ok (), { state with outboundRequests := state.outboundRequests.erase id })
  else state.refuse

/-- `validate_outbound`. -/
def validateOutbound (state : TransportState) (message : ClientMessage) :
    Except McpErrorCode (Option RequestId) × TransportState :=
  match state.failure with
  | some code => (.error code, state)
  | none =>
    match message with
    | .request id =>
      if state.maxInFlight ≤ state.outboundRequests.card ∨ id ∈ state.outboundRequests then
        state.refuse
      else
        (.ok (some id), { state with outboundRequests := insert id state.outboundRequests })
    | .response id => state.settleInbound id
    | .error (some id) => state.settleInbound id
    | .error none => (.ok none, state)
    | .cancelled (some id) =>
      (.ok none, { state with outboundRequests := state.outboundRequests.erase id })
    | .cancelled none => (.ok none, state)
    | .notification => (.ok none, state)

/-- `validate_inbound`. -/
def validateInbound (state : TransportState) (message : ServerMessage) :
    Except McpErrorCode Unit × TransportState :=
  match state.failure with
  | some code => (.error code, state)
  | none =>
    match message with
    | .response id => { state with notificationStreak := 0 }.settleOutbound id
    | .error none => { state with notificationStreak := 0 }.refuse
    | .error (some id) => { state with notificationStreak := 0 }.settleOutbound id
    | .request id =>
      if id ∈ state.inboundRequests then { state with notificationStreak := 0 }.refuse
      else
        (.ok (), { state with
          notificationStreak := 0, inboundRequests := insert id state.inboundRequests })
    | .notification toolListChanged =>
      if state.maxNotifications < state.notificationStreak + 1 then
        { state with notificationStreak := state.notificationStreak + 1 }.refuse
      else
        (.ok (), { state with
          notificationStreak := state.notificationStreak + 1
          catalogStale := state.catalogStale || toolListChanged })

section Accepted

variable {state : TransportState} {id : RequestId}

variable (sound : state.failure = none)

include sound

theorem validateOutbound_request (room : state.outboundRequests.card < state.maxInFlight)
    (unknown : id ∉ state.outboundRequests) :
    state.validateOutbound (.request id) =
      (.ok (some id), { state with outboundRequests := insert id state.outboundRequests }) := by
  obtain ⟨outbound, inbound, streak, maxInFlight, maxNotifications, failure, stale⟩ := state
  cases sound
  exact if_neg (not_or.mpr ⟨not_le.mpr room, unknown⟩)

theorem validateOutbound_cancelled : state.validateOutbound (.cancelled (some id)) =
      (.ok none, { state with outboundRequests := state.outboundRequests.erase id }) := by
  rw [validateOutbound, sound]

theorem validateOutbound_answer (known : id ∈ state.inboundRequests) (failed : Bool) :
    state.validateOutbound (if failed then .error (some id) else .response id) =
      (.ok none, { state with inboundRequests := state.inboundRequests.erase id }) := by
  cases failed <;> simp [validateOutbound, sound, settleInbound, known]

theorem validateInbound_answer {message : ServerMessage} (answers : message.answers = some id) :
    state.validateInbound message = { state with notificationStreak := 0 }.settleOutbound id := by
  cases message with
  | response other | error other =>
    cases answers
    rw [validateInbound, sound]
  | request other | notification changed => cases answers

theorem validateInbound_request (unknown : id ∉ state.inboundRequests) :
    state.validateInbound (.request id) =
      (.ok (), { state with
        notificationStreak := 0, inboundRequests := insert id state.inboundRequests }) := by
  obtain ⟨outbound, inbound, streak, maxInFlight, maxNotifications, failure, stale⟩ := state
  cases sound
  exact if_neg unknown

theorem validateInbound_notification {toolListChanged : Bool}
    (room : state.notificationStreak + 1 ≤ state.maxNotifications) :
    state.validateInbound (.notification toolListChanged) =
      (.ok (), { state with
        notificationStreak := state.notificationStreak + 1
        catalogStale := state.catalogStale || toolListChanged }) := by
  obtain ⟨outbound, inbound, streak, maxInFlight, maxNotifications, failure, stale⟩ := state
  cases sound
  exact if_neg (not_lt.mpr room)

end Accepted

end TransportState

open TransportState

/-- The requests of a client. A tool call needs a permit, the others do not. -/
inductive RequestKind where
  | callTool | ping | listTools
  deriving DecidableEq, Repr

/-- The permits that a request takes. -/
def RequestKind.permits : RequestKind → Nat
  | callTool => 1
  | ping | listTools => 0

/-- A client, a server and the messages between them. -/
structure Wire where
  transport : TransportState
  /-- The number that the client gives to its next request. -/
  nextId : Nat
  /-- The permits that were acquired for calls not sent yet. -/
  permits : Nat
  /-- The tool calls that hold a permit. -/
  calls : Finset RequestId
  /-- The requests of the server that the client has not answered. -/
  pending : Finset RequestId
  /-- The messages on their way to the server. -/
  toServer : List ClientMessage
  /-- The requests that the server received. -/
  received : Finset RequestId
  /-- The requests that the server answered. -/
  answered : Finset RequestId
  /-- The identifiers of the server's own requests. -/
  used : Finset RequestId
  /-- The notifications that the server sent in a row. -/
  streak : Nat
  /-- The messages on their way to the client. -/
  toClient : List ServerMessage
  /-- The requests that the client sent. -/
  sent : Finset RequestId
  /-- The requests whose cancellation the client sent. -/
  cancelled : Finset RequestId
  /-- The requests whose answer arrived. -/
  settled : Finset RequestId

/-- The steps of client and server. -/
inductive Traffic where
  | acquire
  | request (kind : RequestKind)
  | cancel (id : RequestId)
  | release (id : RequestId)
  | respond (id : RequestId) (failed : Bool)
  | notify
  | serverReceive
  | serverAnswer (id : RequestId) (failed : Bool)
  | serverRequest (id : RequestId)
  | serverNotify (toolListChanged : Bool)
  | deliver
  deriving DecidableEq, Repr

namespace Wire

/-- A connection without traffic. -/
def start (maxInFlight maxNotifications : Nat) : Wire where
  transport := .new maxInFlight maxNotifications
  nextId := 0
  permits := 0
  calls := ∅
  pending := ∅
  toServer := []
  received := ∅
  answered := ∅
  used := ∅
  streak := 0
  toClient := []
  sent := ∅
  cancelled := ∅
  settled := ∅

/-- The identifier that the client gives to its next request. -/
def newId (s : Wire) : RequestId := .number s.nextId

/-- `BoundedStdioTransport::send` of a frame that is written: the message is checked and put on its
way, with what the client notes of it; or it is refused. -/
def send (s : Wire) (message : ClientMessage) (note : Wire → Wire) : Wire :=
  match s.transport.validateOutbound message with
  | (.ok _, transport) => note { s with transport, toServer := s.toServer ++ [message] }
  | (.error _, transport) => { s with transport }

/-- The client takes note of a message that arrived. -/
def note (s : Wire) : ServerMessage → Wire
  | .response id => { s with settled := insert id s.settled }
  | .error (some id) => { s with settled := insert id s.settled }
  | .error none => s
  | .request id => { s with pending := insert id s.pending }
  | .notification _ => s

/-- `BoundedStdioTransport::receive` of a frame that is read. -/
def receive (s : Wire) (message : ServerMessage) : Wire :=
  match s.transport.validateInbound message with
  | (.ok _, transport) => { s with transport }.note message
  | (.error _, transport) => { s with transport }

/-- One step, if it is possible. -/
def step (s : Wire) : Traffic → Option Wire
  | .acquire =>
    if s.permits + s.calls.card < s.transport.maxInFlight then
      some { s with permits := s.permits + 1 }
    else none
  | .request kind =>
    if s.permits < kind.permits then none
    else
      some ({ s with nextId := s.nextId + 1, permits := s.permits - kind.permits }.send
        (.request s.newId) fun t =>
          { t with
            sent := insert s.newId t.sent
            calls := if kind.permits = 0 then t.calls else insert s.newId t.calls })
  | .cancel call =>
    if call ∈ s.sent then
      some (s.send (.cancelled (some call)) fun t =>
        { t with cancelled := insert call t.cancelled })
    else none
  | .release call =>
    if call ∈ s.calls ∧ (call ∈ s.cancelled ∨ call ∈ s.settled) then
      some { s with calls := s.calls.erase call }
    else none
  | .respond request failed =>
    if request ∈ s.pending then
      some ({ s with pending := s.pending.erase request }.send
        (if failed then .error (some request) else .response request) id)
    else none
  | .notify => some (s.send .notification id)
  | .serverReceive =>
    match s.toServer with
    | [] => none
    | .request id :: rest => some { s with toServer := rest, received := insert id s.received }
    | _ :: rest => some { s with toServer := rest }
  | .serverAnswer call failed =>
    if call ∈ s.received ∧ call ∉ s.answered then
      some { s with
        toClient := s.toClient ++ [if failed then .error (some call) else .response call]
        answered := insert call s.answered
        streak := 0 }
    else none
  | .serverRequest request =>
    if request ∉ s.used then
      some { s with
        toClient := s.toClient ++ [.request request], used := insert request s.used, streak := 0 }
    else none
  | .serverNotify toolListChanged =>
    if s.streak < s.transport.maxNotifications then
      some { s with
        toClient := s.toClient ++ [.notification toolListChanged], streak := s.streak + 1 }
    else none
  | .deliver =>
    match s.toClient with
    | [] => none
    | message :: rest => some ({ s with toClient := rest }.receive message)

/-! ### The condition -/

/-- The requests that were sent and neither cancelled nor answered. -/
def unsettled (s : Wire) : Finset RequestId := s.sent \ (s.cancelled ∪ s.settled)

/-- The step fits: a request is sent only while fewer requests than may be in flight are unsettled,
and no answer arrives for a request whose cancellation was sent. -/
def Met (s : Wire) : Traffic → Prop
  | .request _ => s.unsettled.card < s.transport.maxInFlight
  | .deliver => ∀ call ∈ s.toClient.head?.bind ServerMessage.answers, call ∉ s.cancelled
  | _ => True

/-! ### Rows of notifications -/

/-- The number of notifications in a row after a message. -/
def streakAfter (streak : Nat) : ServerMessage → Nat
  | .notification _ => streak + 1
  | _ => 0

/-- No row of notifications in the messages is longer than the limit. -/
def Within (limit : Nat) : Nat → List ServerMessage → Prop
  | _, [] => True
  | streak, message :: rest =>
    streakAfter streak message ≤ limit ∧ Within limit (streakAfter streak message) rest

theorem within_append {limit streak : Nat} {messages : List ServerMessage}
    {message : ServerMessage} :
    Within limit streak (messages ++ [message]) ↔ Within limit streak messages ∧
      streakAfter (messages.foldl streakAfter streak) message ≤ limit := by
  induction messages generalizing streak with
  | nil => simp [Within]
  | cons first messages ih => simp [Within, ih, and_assoc]

/-! ### States without failure -/

/-- What the transport knows in a state without failure, and what client and server have agreed
on. -/
structure Sound (s : Wire) : Prop where
  failure : s.transport.failure = none
  outbound : s.transport.outboundRequests = s.unsettled
  inbound : s.transport.inboundRequests = s.pending
  fresh : ∀ id ∈ s.sent, ∃ n < s.nextId, id = .number n
  posted : ∀ id, .request id ∈ s.toServer → id ∈ s.sent
  known : s.cancelled ⊆ s.sent
  received : s.received ⊆ s.sent
  answered : s.answered ⊆ s.received
  settled : s.settled ⊆ s.answered
  named : .error none ∉ s.toClient
  answersNodup : (s.toClient.filterMap ServerMessage.answers).Nodup
  answers : ∀ id ∈ s.toClient.filterMap ServerMessage.answers, id ∈ s.answered ∧ id ∉ s.settled
  requestsNodup : (s.toClient.filterMap ServerMessage.requests).Nodup
  requests : ∀ id ∈ s.toClient.filterMap ServerMessage.requests, id ∈ s.used ∧ id ∉ s.pending
  pending : s.pending ⊆ s.used
  streak : s.streak = s.toClient.foldl streakAfter s.transport.notificationStreak
  within : Within s.transport.maxNotifications s.transport.notificationStreak s.toClient

theorem sound_start (maxInFlight maxNotifications : Nat) :
    (start maxInFlight maxNotifications).Sound where
  failure := rfl
  outbound := rfl
  inbound := rfl
  fresh := by simp [start]
  posted := by simp [start]
  known := by simp [start]
  received := by simp [start]
  answered := by simp [start]
  settled := by simp [start]
  named := by simp [start]
  answersNodup := by simp [start]
  answers := by simp [start]
  requestsNodup := by simp [start]
  requests := by simp [start]
  pending := by simp [start]
  streak := rfl
  within := trivial

variable {s t : Wire} {note : Wire → Wire} {call : RequestId} {rest : List ServerMessage}
  {action : Traffic}

variable (sound : s.Sound)

include sound

theorem Sound.newId_notMem : s.newId ∉ s.sent := by
  intro mem
  obtain ⟨n, lt, same⟩ := sound.fresh _ mem
  rw [newId, RequestId.number.injEq] at same
  omega

theorem Sound.sent_of_settled {id : RequestId}
    (mem : id ∈ s.settled) : id ∈ s.sent :=
  sound.received (sound.answered (sound.settled mem))

omit sound in
theorem send_of_ok {message : ClientMessage} {id : Option RequestId} {transport : TransportState}
    (check : s.transport.validateOutbound message = (.ok id, transport)) :
    s.send message note = note { s with transport, toServer := s.toServer ++ [message] } := by
  rw [send, check]

theorem Sound.posted_append {message : ClientMessage}
    (other : ∀ id, message ≠ .request id) {id : RequestId}
    (mem : .request id ∈ s.toServer ++ [message]) : id ∈ s.sent := by
  rcases mem_append.mp mem with mem | mem
  · exact sound.posted id mem
  · exact absurd (mem_singleton.mp mem).symm (other id)

theorem Sound.request {kind : RequestKind}
    (step : s.step (.request kind) = some t) :
    (s.Met (.request kind) → t.Sound) ∧
      (¬s.Met (.request kind) → t.transport.failure ≠ none) := by
  have unsent := sound.newId_notMem
  have unknown : s.newId ∉ s.transport.outboundRequests := by
    rw [sound.outbound]
    exact fun mem => unsent (Finset.mem_sdiff.mp mem).1
  rw [Wire.step] at step
  split at step <;> cases step
  constructor
  · intro room
    have room : s.transport.outboundRequests.card < s.transport.maxInFlight := by
      rw [sound.outbound]
      exact room
    rw [send]
    dsimp only
    rw [validateOutbound_request sound.failure room unknown]
    exact { sound with
      outbound := by
        rw [sound.outbound, unsettled, unsettled, Finset.insert_sdiff_of_notMem]
        rw [Finset.mem_union, not_or]
        exact ⟨fun mem => unsent (sound.known mem), fun mem => unsent (sound.sent_of_settled mem)⟩
      fresh := by
        intro id mem
        rcases Finset.mem_insert.mp mem with rfl | mem
        · exact ⟨s.nextId, Nat.lt_succ_self _, rfl⟩
        · obtain ⟨n, lt, same⟩ := sound.fresh id mem
          exact ⟨n, Nat.lt_succ_of_lt lt, same⟩
      posted := by
        intro id mem
        rcases mem_append.mp mem with mem | mem
        · exact Finset.mem_insert_of_mem (sound.posted id mem)
        · cases mem_singleton.mp mem
          exact Finset.mem_insert_self _ _
      known := sound.known.trans (Finset.subset_insert _ _)
      received := sound.received.trans (Finset.subset_insert _ _) }
  · intro full
    have full : s.transport.maxInFlight ≤ s.transport.outboundRequests.card := by
      rw [sound.outbound]
      exact not_lt.mp full
    simp [send, validateOutbound, sound.failure, full, refuse]

theorem Sound.cancel (step : s.step (.cancel call) = some t) : t.Sound := by
  rw [Wire.step] at step
  split at step <;> cases step
  rename_i sent
  rw [send_of_ok (validateOutbound_cancelled sound.failure)]
  exact { sound with
    outbound := by
      rw [sound.outbound, unsettled, unsettled, Finset.insert_union, Finset.sdiff_insert]
    posted := fun id => sound.posted_append (by simp)
    known := Finset.insert_subset sent sound.known }

/-- The answer to a request of the server fits, because there is one request to answer. -/
theorem Sound.respond {request : RequestId} {failed : Bool}
    (step : s.step (.respond request failed) = some t) : t.Sound := by
  rw [Wire.step] at step
  split at step <;> cases step
  rename_i pending
  have known : request ∈ s.transport.inboundRequests := by rwa [sound.inbound]
  rw [send]
  dsimp only
  rw [validateOutbound_answer sound.failure known]
  exact { sound with
    inbound := congrArg (Finset.erase · request) sound.inbound
    posted := fun id => sound.posted_append (by cases failed <;> nofun)
    requests := fun id mem => ⟨(sound.requests id mem).1, fun pending =>
      (sound.requests id mem).2 (Finset.mem_of_mem_erase pending)⟩
    pending := (Finset.erase_subset _ _).trans sound.pending }

theorem Sound.notify : (s.send .notification id).Sound := by
  have check : s.transport.validateOutbound .notification = (.ok none, s.transport) := by
    rw [validateOutbound, sound.failure]
  rw [send_of_ok check]
  exact { sound with posted := fun id => sound.posted_append (by simp) }

theorem Sound.serverReceive
    (step : s.step .serverReceive = some t) : t.Sound := by
  rw [Wire.step] at step
  split at step
  · cases step
  · rename_i id rest queue
    cases step
    exact { sound with
      posted := fun id mem => sound.posted id (by rw [queue]; exact mem_cons_of_mem _ mem)
      received := Finset.insert_subset (sound.posted id (by rw [queue]; exact mem_cons_self))
        sound.received
      answered := sound.answered.trans (Finset.subset_insert _ _) }
  · rename_i rest _ queue
    cases step
    exact { sound with
      posted := fun id mem => sound.posted id (by rw [queue]; exact mem_cons_of_mem _ mem) }

/-- The server adds a message that answers a request once, or makes a new one. -/
theorem Sound.serverSend (message : ServerMessage)
    (answered used : Finset RequestId) (named : message ≠ .error none)
    (answers : ∀ call ∈ message.answers, call ∈ s.received ∧ call ∉ s.answered)
    (mem_answered : ∀ id, id ∈ answered ↔ id ∈ s.answered ∨ id ∈ message.answers)
    (requests : ∀ request ∈ message.requests, request ∉ s.used)
    (mem_used : ∀ id, id ∈ used ↔ id ∈ s.used ∨ id ∈ message.requests)
    (room : streakAfter s.streak message ≤ s.transport.maxNotifications) :
    Sound { s with
      toClient := s.toClient ++ [message], answered, used
      streak := streakAfter s.streak message } := by
  have mem_append {f : ServerMessage → Option RequestId} {id : RequestId}
      (mem : id ∈ (s.toClient ++ [message]).filterMap f) :
      id ∈ s.toClient.filterMap f ∨ id ∈ f message := by
    rw [filterMap_append, mem_append] at mem
    simpa using mem
  have nodup_append {f : ServerMessage → Option RequestId} (nodup : (s.toClient.filterMap f).Nodup)
      (new : ∀ id ∈ f message, id ∉ s.toClient.filterMap f) :
      ((s.toClient ++ [message]).filterMap f).Nodup := by
    rw [filterMap_append]
    cases h : f message with
    | none => simpa [h] using nodup
    | some id =>
      have single : [message].filterMap f = [id] := by simp [h]
      rw [single]
      simpa using nodup.concat (new id h)
  exact { sound with
    answered := fun id mem => ((mem_answered id).mp mem).elim (fun old => sound.answered old)
      fun new => (answers id new).1
    settled := fun id mem => (mem_answered id).mpr (.inl (sound.settled mem))
    named := by simpa [sound.named] using named.symm
    answersNodup := nodup_append sound.answersNodup fun id new mem =>
      (answers id new).2 (sound.answers id mem).1
    answers := fun id mem => by
      rcases mem_append mem with old | new
      · exact ⟨(mem_answered id).mpr (.inl (sound.answers id old).1), (sound.answers id old).2⟩
      · exact ⟨(mem_answered id).mpr (.inr new),
          fun settled => (answers id new).2 (sound.settled settled)⟩
    requestsNodup := nodup_append sound.requestsNodup fun id new mem =>
      requests id new (sound.requests id mem).1
    requests := fun id mem => by
      rcases mem_append mem with old | new
      · exact ⟨(mem_used id).mpr (.inl (sound.requests id old).1), (sound.requests id old).2⟩
      · exact ⟨(mem_used id).mpr (.inr new),
          fun pending => requests id new (sound.pending pending)⟩
    pending := fun id mem => (mem_used id).mpr (.inl (sound.pending mem))
    streak := by rw [foldl_append, ← sound.streak]; rfl
    within := within_append.mpr ⟨sound.within, sound.streak ▸ room⟩ }

omit sound in
theorem note_of_answers {message : ServerMessage} (answers : message.answers = some call) :
    s.note message = { s with settled := insert call s.settled } := by
  cases message with
  | response id | error id => cases answers; rfl
  | request id | notification changed => cases answers

theorem Sound.deliverAnswer {message : ServerMessage}
    (queue : s.toClient = message :: rest) (answer : message.answers = some call) :
    (call ∉ s.cancelled → Sound ({ s with toClient := rest }.receive message)) ∧
      (call ∈ s.cancelled →
        ({ s with toClient := rest }.receive message).transport.failure ≠ none) := by
  have other : message.requests = none := by cases message <;> first | rfl | cases answer
  have reset (streak) : streakAfter streak message = 0 := by
    cases message <;> first | rfl | cases answer
  obtain ⟨-, within⟩ := queue ▸ sound.within
  have streak := sound.streak
  have answersNodup := sound.answersNodup
  have answers := sound.answers
  have requestsNodup := sound.requestsNodup
  have requests := sound.requests
  have named := sound.named
  rw [reset] at within
  rw [queue, foldl_cons, reset] at streak
  rw [queue, filterMap_cons_some answer] at answersNodup answers
  rw [queue, filterMap_cons_none other] at requestsNodup requests
  rw [queue] at named
  obtain ⟨answered, unsettled'⟩ := answers call mem_cons_self
  have sent : call ∈ s.sent := sound.received (sound.answered answered)
  rw [receive]
  dsimp only
  rw [validateInbound_answer sound.failure answer, settleOutbound]
  dsimp only
  rw [sound.outbound]
  constructor
  · intro live
    have known : call ∈ s.unsettled := by simp [unsettled, sent, live, unsettled']
    rw [if_pos known, ← sound.outbound]
    dsimp only
    rw [note_of_answers answer]
    exact { sound with
      outbound := by
        rw [sound.outbound, unsettled, unsettled, Finset.union_insert, Finset.sdiff_insert]
      settled := Finset.insert_subset answered sound.settled
      named := fun mem => named (mem_cons_of_mem _ mem)
      answersNodup := (nodup_cons.mp answersNodup).2
      answers := fun id mem => by
        refine ⟨(answers id (mem_cons_of_mem _ mem)).1, fun settled => ?_⟩
        rcases Finset.mem_insert.mp settled with rfl | settled
        · exact (nodup_cons.mp answersNodup).1 mem
        · exact (answers id (mem_cons_of_mem _ mem)).2 settled
      requestsNodup := requestsNodup
      requests := requests
      streak := streak
      within := within }
  · intro cancelled
    have unknown : call ∉ s.unsettled := by simp [unsettled, cancelled]
    rw [if_neg unknown]
    simp [refuse]

/-- A request of the server fits, because its identifier is new. -/
theorem Sound.deliverRequest {request : RequestId}
    (queue : s.toClient = .request request :: rest) :
    Sound ({ s with toClient := rest }.receive (.request request)) := by
  obtain ⟨-, within⟩ := queue ▸ sound.within
  have streak := sound.streak
  have answersNodup := sound.answersNodup
  have answers := sound.answers
  have requestsNodup := sound.requestsNodup
  have requests := sound.requests
  have named := sound.named
  rw [queue] at streak named
  rw [queue, filterMap_cons_none rfl] at answersNodup answers
  have request' : (ServerMessage.request request).requests = some request := rfl
  rw [queue, filterMap_cons_some request'] at requestsNodup requests
  obtain ⟨used, new⟩ := requests request mem_cons_self
  have unknown : request ∉ s.transport.inboundRequests := by rwa [sound.inbound]
  rw [receive]
  dsimp only
  rw [validateInbound_request sound.failure unknown]
  exact { sound with
    inbound := congrArg (insert request) sound.inbound
    named := fun mem => named (mem_cons_of_mem _ mem)
    answersNodup := answersNodup
    answers := answers
    requestsNodup := (nodup_cons.mp requestsNodup).2
    requests := fun id mem => by
      refine ⟨(requests id (mem_cons_of_mem _ mem)).1, fun pending => ?_⟩
      rcases Finset.mem_insert.mp pending with rfl | pending
      · exact (nodup_cons.mp requestsNodup).1 mem
      · exact (requests id (mem_cons_of_mem _ mem)).2 pending
    pending := Finset.insert_subset used sound.pending
    streak := streak
    within := within }

theorem Sound.deliverNotification {toolListChanged : Bool}
    (queue : s.toClient = .notification toolListChanged :: rest) :
    Sound ({ s with toClient := rest }.receive (.notification toolListChanged)) := by
  obtain ⟨room, within⟩ := queue ▸ sound.within
  have streak := sound.streak
  have answersNodup := sound.answersNodup
  have answers := sound.answers
  have requestsNodup := sound.requestsNodup
  have requests := sound.requests
  have named := sound.named
  rw [queue] at streak named
  rw [queue, filterMap_cons_none rfl] at answersNodup answers
  rw [queue, filterMap_cons_none rfl] at requestsNodup requests
  rw [receive]
  dsimp only
  rw [validateInbound_notification sound.failure room]
  exact { sound with
    named := fun mem => named (mem_cons_of_mem _ mem)
    answersNodup := answersNodup
    answers := answers
    requestsNodup := requestsNodup
    requests := requests
    streak := streak
    within := within }

/-- A message arrives: it fits, unless it answers a request that was cancelled. -/
theorem Sound.deliver (step : s.step .deliver = some t) :
    (s.Met .deliver → t.Sound) ∧ (¬s.Met .deliver → t.transport.failure ≠ none) := by
  rw [Wire.step] at step
  split at step
  · cases step
  rename_i message rest queue
  cases step
  rw [Met, queue, head?_cons, Option.bind_some]
  cases answer : message.answers with
  | some call => simpa using sound.deliverAnswer queue answer
  | none =>
    simp only [Option.mem_def, reduceCtorEq, false_implies, implies_true, not_true,
      and_true, true_implies]
    cases message with
    | response call => cases answer
    | error id =>
      cases answer
      exact absurd (queue ▸ mem_cons_self) sound.named
    | request request => exact sound.deliverRequest queue
    | notification changed => exact sound.deliverNotification queue

/-! ### Runs -/

/-- A step from a state without failure records one exactly if it does not fit. -/
theorem step_spec (step : s.step action = some t) :
    (s.Met action → t.Sound) ∧ (¬s.Met action → t.transport.failure ≠ none) := by
  have fits (h : t.Sound) : (True → t.Sound) ∧ (¬True → t.transport.failure ≠ none) :=
    ⟨fun _ => h, fun h => (h trivial).elim⟩
  cases action with
  | request kind => exact sound.request step
  | deliver => exact sound.deliver step
  | cancel call => exact fits (sound.cancel step)
  | respond request failed => exact fits (sound.respond step)
  | serverReceive => exact fits (sound.serverReceive step)
  | acquire | release call =>
    rw [Wire.step] at step
    split at step <;> cases step
    exact fits { sound with }
  | notify =>
    cases step
    exact fits sound.notify
  | serverAnswer call failed =>
    rw [Wire.step] at step
    split at step <;> cases step
    rename_i once
    have mem_answered (id) : id ∈ insert call s.answered ↔ id ∈ s.answered ∨ some call = some id := by
      rw [Finset.mem_insert, or_comm, Option.some_inj, eq_comm]
    cases failed with
    | false =>
      exact fits (sound.serverSend (.response call) _ s.used nofun (by rintro _ ⟨⟩; exact once)
        mem_answered nofun (by simp [ServerMessage.requests]) (Nat.zero_le _))
    | true =>
      exact fits (sound.serverSend (.error call) _ s.used nofun (by rintro _ ⟨⟩; exact once)
        mem_answered nofun (by simp [ServerMessage.requests]) (Nat.zero_le _))
  | serverRequest request =>
    rw [Wire.step] at step
    split at step <;> cases step
    rename_i new
    have mem_used (id) : id ∈ insert request s.used ↔ id ∈ s.used ∨ some request = some id := by
      rw [Finset.mem_insert, or_comm, Option.some_inj, eq_comm]
    exact fits (sound.serverSend (.request request) s.answered _ nofun nofun
      (by simp [ServerMessage.answers]) (by rintro _ ⟨⟩; exact new) mem_used (Nat.zero_le _))
  | serverNotify changed =>
    rw [Wire.step] at step
    split at step <;> cases step
    rename_i room
    exact fits (sound.serverSend (.notification changed) s.answered s.used nofun nofun
      (by simp [ServerMessage.answers]) nofun (by simp [ServerMessage.requests]) room)

omit sound

theorem send_of_failure {message : ClientMessage}
    (failed : s.transport.failure ≠ none) : (s.send message note).transport = s.transport := by
  obtain ⟨code, failure⟩ := Option.ne_none_iff_exists'.mp failed
  simp [send, validateOutbound, failure]

theorem receive_of_failure {message : ServerMessage}
    (failed : s.transport.failure ≠ none) : (s.receive message).transport = s.transport := by
  obtain ⟨code, failure⟩ := Option.ne_none_iff_exists'.mp failed
  simp [receive, validateInbound, failure]

theorem failure_of_step (step : s.step action = some t)
    (failed : s.transport.failure ≠ none) : t.transport.failure ≠ none := by
  have same : t.transport = s.transport := by
    cases action <;> rw [Wire.step] at step
    case notify =>
      cases step
      exact send_of_failure failed
    all_goals
      split at step <;> cases step <;>
        first | rfl | exact send_of_failure failed | exact receive_of_failure failed
  rwa [same]

/-- A run of client and server records no failure exactly if each of its steps fits: every request
is sent while fewer requests than may be in flight are unsettled, and no answer arrives for a
request whose cancellation was sent. -/
theorem traffic_accepted_iff {maxInFlight maxNotifications : Nat} {actions : List Traffic}
    {s : Wire}
    (run : Run (fun s a t => s.step a = some t) (start maxInFlight maxNotifications) actions s) :
    s.transport.failure = none ↔
      Run (fun s a t => s.step a = some t ∧ s.Met a) (start maxInFlight maxNotifications)
        actions s := by
  have sound {actions : List Traffic} {s : Wire}
      (run : Run (fun s a t => s.step a = some t ∧ s.Met a) (start maxInFlight maxNotifications)
        actions s) : s.Sound :=
    run.invariant (sound_start _ _) fun s a t sound last => (step_spec sound last.1).1 last.2
  refine ⟨fun accepted => ?_, fun met => (sound met).failure⟩
  induction run with
  | nil => exact .nil
  | @snoc actions s t action _ last ih =>
    have met := ih (not_imp_not.mp (failure_of_step last) accepted)
    refine .snoc met ⟨last, ?_⟩
    by_contra misfit
    exact (step_spec (sound met) last).2 misfit accepted

/-- The state after a list of steps, if all are possible. -/
def execute (s : Wire) (actions : List Traffic) : Option Wire := actions.foldlM step s

/-- A server answers a call after the client has cancelled it; and a client pings while the one call
that may be in flight has no answer. -/
theorem crossed_answer_and_ping_fail : (((start 1 8).execute
        [.acquire, .request .callTool, .serverReceive, .cancel (.number 0),
          .serverAnswer (.number 0) false, .deliver]).map (·.transport.failure) =
      some (some .transport)) ∧
    (((start 1 8).execute [.acquire, .request .callTool, .request .ping]).map
        (·.transport.failure) = some (some .transport)) := by
  decide +kernel

/-- A call that is answered, a request and a notification of the server, and a ping. -/
def exchange : List Traffic :=
  [.acquire, .request .callTool, .serverReceive, .serverRequest (.text "roots"), .deliver,
    .respond (.text "roots") false, .serverNotify true, .serverAnswer (.number 0) true, .deliver,
    .deliver, .release (.number 0), .request .ping, .serverReceive]

theorem traffic_accepted_iff_exchange :
    ∃ s, (start 1 8).execute exchange = some s ∧ s.transport.failure = none ∧
      Run (fun s a t => s.step a = some t ∧ s.Met a) (start 1 8) exchange s := by
  have possible : ((start 1 8).execute exchange).map (·.transport.failure) = some none := by
    decide +kernel
  obtain ⟨s, done, accepted⟩ := Option.map_eq_some_iff.mp possible
  exact ⟨s, done, accepted, (traffic_accepted_iff (Run.foldlM_iff.mpr done)).mp accepted⟩

end Wire

end TeaRs.Mcp
