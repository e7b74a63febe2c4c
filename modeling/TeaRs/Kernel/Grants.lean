import TeaRs.Kernel.Redirects
import TeaRs.Session.Journals
import TeaRs.Session.Memory

/-!
# Grants of other sessions

A policy input lists all active grants of the actor, from every session of the store, and there is a
bound on their number. A grant that names another session never covers an input, so what other
sessions were granted has no influence on a call, except through the bound, and through grants that
another session issued for the session of the call.

## Main definitions

* `InMemorySessionStore.activeIn`, `InMemorySessionStore.activeGrants`: the active grants of a
  session and of an actor.
* `Verdict`, `verdictWith`: how the kernel classifies a validated invocation.
* `InMemorySessionStore.SameButForeign`: two stores that differ in session grants of other sessions.
* `InMemorySessionStore.Crowded`, `InMemorySessionStore.Covered`, `InMemorySessionStore.Intruded`.

## Main results

* `PolicyEngine.decideByRules_withGrants`: rules that ignore the grants decide the same for all
  grants.
* `InMemorySessionStore.granted_iff`: a grant covers an input if and only if one of the session or
  one of another session does.
* `InMemorySessionStore.verdict_eq_iff`: when the verdicts in two such stores are the same.
-/

namespace TeaRs

open PolicyEngine List

/-! ### Active grants -/

variable {store store' : InMemorySessionStore} {Client : Type}

namespace InMemorySessionStore

/-- The active grants that a session issued. -/
def activeIn (store : InMemorySessionStore) (sessionId : SessionId) : List PolicyGrant :=
  (store.storedOf sessionId).artifacts.activeGrants

/-- The active grants of an actor, as `active_grants_for_actor` returns them. -/
def activeGrants (store : InMemorySessionStore) (actorId : ActorId) : List PolicyGrant :=
  activeGrantsOf (BTreeMap.valueList store.sessions) actorId

namespace GrantsIndexed

theorem mem_activeIn_iff (h : store.GrantsIndexed) {sessionId : SessionId} {grant : PolicyGrant} :
    grant ∈ store.activeIn sessionId ↔
      (store.storedOf sessionId).artifacts.grants[grant.id]? = some grant ∧
        grant.revokedAt.isNone = true := by
  rw [activeIn, ArtifactState.activeGrants, mem_filter, BTreeMap.mem_valueList]
  refine and_congr_left fun _ => ⟨?_, fun hlookup => ⟨grant.id, hlookup⟩⟩
  rintro ⟨id, hlookup⟩
  rwa [(h.indexed sessionId).keyed id grant hlookup]

theorem pairwise_activeGrants (h : store.GrantsIndexed) (actorId : ActorId) :
    (store.activeGrants actorId).Pairwise fun a b => compare a.id b.id = .lt := by
  have sorted := pairwise_sortByKey (h.nodup_activeGrants.sublist
    ((filter_sublist (p := (·.actorId == actorId))).map _))
  rw [activeGrants, activeGrantsOf, destutter_key_eq sorted]
  exact sorted

theorem mem_activeGrants (h : store.GrantsIndexed) {actorId : ActorId} {grant : PolicyGrant} :
    grant ∈ store.activeGrants actorId ↔
      (∃ sessionId, grant ∈ store.activeIn sessionId) ∧ grant.actorId = actorId := by
  have sorted := pairwise_sortByKey (h.nodup_activeGrants.sublist
    ((filter_sublist (p := (·.actorId == actorId))).map _))
  rw [activeGrants, activeGrantsOf, destutter_key_eq sorted, mem_sortByKey, h.mem_activeGrants_iff]
  simp only [h.mem_activeIn_iff, exists_and_right, and_assoc]

theorem grantCandidates_activeGrants (h : store.GrantsIndexed) (actorId : ActorId) :
    grantCandidates (store.activeGrants actorId) = store.activeGrants actorId := by
  have sorted := h.pairwise_activeGrants actorId
  have same : sortByKey PolicyGrant.id (store.activeGrants actorId) = store.activeGrants actorId :=
    sortByKey_eq_self_iff.mpr (sorted.imp fun lt => by rw [lt]; rfl)
  rw [grantCandidates, same, destutter_key_eq sorted]

end GrantsIndexed

end InMemorySessionStore

/-! ### Verdicts -/

/-- The classification of a validated invocation, without the values that are passed on. -/
inductive Verdict where
  | allowed (target : ExecutionTarget)
  | denied (reason : String)
  | asks (reason : String)
  | failed (error : KernelError)
  deriving DecidableEq

/-- The verdict of a decision. -/
def Verdict.ofDecision (configured : PolicyExecutionTarget) (source : ToolSourceKind) :
    Policy.PolicyDecision → Verdict
  | .allow => .allowed (selectedTarget .allow configured source)
  | .redirect target => .allowed (selectedTarget (.redirect target) configured source)
  | .deny reason | .hardDeny reason => .denied reason.text
  | .ask reason => .asks reason.text

/-- The verdict on a validated invocation of a run, given the active grants of the actor. -/
def verdictWith (policy : PolicyEngine) (config : KernelRunConfig)
    (state : MaterializedSessionState) (runId : RunId) (invocation : ValidatedToolInvocation)
    (now : ProtocolTimestamp) (grants : List PolicyGrant) : Verdict :=
  match evaluateInvocation policy config state runId invocation grants now with
  | .error error => .failed error
  | .ok (_, decision) =>
    .ofDecision config.environment.target invocation.source.kind decision

/-- The input of an invocation, without grants. -/
def invocationInput (config : KernelRunConfig) (state : MaterializedSessionState) (runId : RunId)
    (invocation : ValidatedToolInvocation) (now : ProtocolTimestamp) : PolicyInput where
  actorId := config.actorId
  profileId := state.configuration.profileId
  sessionId := state.sessionId
  runId := some runId
  workspaceId := config.workspaceId
  toolCallId := invocation.toolCallId
  toolName := invocation.name
  toolVersion := invocation.spec.version
  toolSource := invocation.source
  arguments := invocation.arguments
  effects := invocation.spec.effects
  resources := invocation.resources
  environment := config.environment
  now := now
  grants := []

/-- The input with the given grants. -/
def PolicyInput.withGrants (input : PolicyInput) (grants : List PolicyGrant) : PolicyInput :=
  { input with grants }

variable {policy : PolicyEngine} {input : PolicyInput}

namespace PolicyEngine

/-- No rule looks at the grants of an input. -/
def IgnoresGrants (policy : PolicyEngine) : Prop :=
  ∀ rule ∈ policy.rules, ∀ input grants,
    rule.evaluate (PolicyInput.withGrants input grants) = rule.evaluate input

/-- Rules that ignore the grants decide the same for all grants. -/
theorem decideByRules_withGrants (ignores : policy.IgnoresGrants)
    (input : PolicyInput) (grants : List PolicyGrant) :
    policy.decideByRules (input.withGrants grants) = policy.decideByRules input := by
  have loop (rules : List PolicyRule) (hrules : ∀ rule ∈ rules,
      rule.evaluate (input.withGrants grants) = rule.evaluate input)
      (current : Option Policy.PolicyDecision) :
      evaluateRules (input.withGrants grants) current rules =
        evaluateRules input current rules := by
    induction rules generalizing current with
    | nil => rfl
    | cons rule rules ih =>
      have rest := ih fun rule hmem => hrules rule (mem_cons_of_mem _ hmem)
      simp only [evaluateRules, hrules rule mem_cons_self, rest]
  rw [decideByRules, decideByRules, loop _ fun rule hmem => ignores rule hmem input grants]

theorem decision_of_ask (ignores : policy.IgnoresGrants) {reason : PolicyReason}
    (asks : policy.decideByRules input = .ask reason) (grants : List PolicyGrant) :
    (policy.evaluate (input.withGrants grants)).decision =
      if ∃ grant ∈ grants, grant.matchesInput input = true then .allow else .ask reason := by
  have asked := (decideByRules_withGrants ignores input grants).trans asks
  rcases evaluate_cases policy (input.withGrants grants) with ⟨same, open_⟩ | ⟨-, allowed, granted⟩
  · rw [same, asked, if_neg]
    exact open_ ⟨reason, asked⟩
  · rw [allowed, if_pos]
    exact granted

theorem decision_of_not_ask (ignores : policy.IgnoresGrants)
    (settled : ∀ reason, policy.decideByRules input ≠ .ask reason) (grants : List PolicyGrant) :
    (policy.evaluate (input.withGrants grants)).decision = policy.decideByRules input := by
  have decided := decideByRules_withGrants ignores input grants
  rcases evaluate_cases policy (input.withGrants grants) with ⟨same, -⟩ | ⟨⟨reason, asked⟩, -⟩
  · rw [same, decided]
  · exact absurd (decided.symm.trans asked) (settled reason)

end PolicyEngine

variable {config : KernelRunConfig} {state : MaterializedSessionState} {runId : RunId}
  {invocation : ValidatedToolInvocation} {now : ProtocolTimestamp}

section Verdicts

variable {grants : List PolicyGrant}

theorem verdictWith_of_lt (crowded : maxPolicyGrants < (grantCandidates grants).length) :
    verdictWith policy config state runId invocation now grants =
      .failed (.new .policyFailure PolicyInputError.tooManyGrants.text) := by
  rw [verdictWith, evaluateInvocation, PolicyInput.fromValidated, if_pos crowded]

theorem verdictWith_of_le (room : (grantCandidates grants).length ≤ maxPolicyGrants) :
    verdictWith policy config state runId invocation now grants =
      .ofDecision config.environment.target invocation.source.kind
        (policy.evaluate ((invocationInput config state runId invocation now).withGrants
          (grantCandidates grants))).decision := by
  rw [verdictWith, evaluateInvocation, PolicyInput.fromValidated, if_neg (Nat.not_lt.mpr room)]
  rfl

theorem Verdict.ofDecision_ne_failed (configured : PolicyExecutionTarget) (source : ToolSourceKind)
    (decision : Policy.PolicyDecision) (error : KernelError) :
    ofDecision configured source decision ≠ .failed error := by
  cases decision <;> simp [ofDecision]

end Verdicts

/-! ### Two stores -/

/-- The grant is for one session. -/
def PolicyGrant.SessionScoped (grant : PolicyGrant) : Prop :=
  ∃ sessionId, grant.scope = .sessionResource sessionId

namespace InMemorySessionStore

/-- The stores have the same active grants, but for session grants that sessions other than the
given one issued. -/
def SameButForeign (sessionId : SessionId) (store store' : InMemorySessionStore) : Prop :=
  ∀ other grant, other = sessionId ∨ ¬grant.SessionScoped →
    (grant ∈ store.activeIn other ↔ grant ∈ store'.activeIn other)

/-- The actor has more active grants than a policy input may list. -/
def Crowded (store : InMemorySessionStore) (actorId : ActorId) : Prop :=
  maxPolicyGrants < (store.activeGrants actorId).length

instance (store : InMemorySessionStore) (actorId : ActorId) : Decidable (store.Crowded actorId) :=
  inferInstanceAs (Decidable (_ < _))

/-- A grant that the session of the input issued, or one that is not for a session, covers it. -/
def Covered (store : InMemorySessionStore) (input : PolicyInput) : Prop :=
  ∃ other, ∃ grant ∈ store.activeIn other, (other = input.sessionId ∨ ¬grant.SessionScoped) ∧
    grant.matchesInput input = true

/-- A grant that another session issued for the session of the input covers it. -/
def Intruded (store : InMemorySessionStore) (input : PolicyInput) : Prop :=
  ∃ other, other ≠ input.sessionId ∧ ∃ grant ∈ store.activeIn other,
    grant.scope = .sessionResource input.sessionId ∧ grant.matchesInput input = true

variable {grant : PolicyGrant} {n count : Nat}

theorem scope_eq_of_matchesInput
    (covers : grant.matchesInput input = true) (forSession : grant.SessionScoped) :
    grant.scope = .sessionResource input.sessionId := by
  obtain ⟨sessionId, scope⟩ := forSession
  rw [PolicyGrant.matchesInput, scope, Bool.and_eq_true, beq_iff_eq] at covers
  rw [scope, covers.2]

theorem actorId_eq_of_matchesInput
    (covers : grant.matchesInput input = true) : grant.actorId = input.actorId := by
  rw [PolicyGrant.matchesInput, Bool.and_eq_true] at covers
  simp only [Bool.not_eq_true', Bool.or_eq_false_iff, bne_eq_false_iff_eq] at covers
  exact covers.1.1.1.1.1.1.1.2

/-- A stored grant of the actor covers an input if and only if one of the session or one of another
session does. -/
theorem granted_iff (h : store.GrantsIndexed) (input : PolicyInput) :
    (∃ grant ∈ store.activeGrants input.actorId, grant.matchesInput input = true) ↔
      store.Covered input ∨ store.Intruded input := by
  constructor
  · rintro ⟨grant, hgrant, covers⟩
    obtain ⟨⟨other, hactive⟩, -⟩ := h.mem_activeGrants.mp hgrant
    by_cases own : other = input.sessionId ∨ ¬grant.SessionScoped
    · exact .inl ⟨other, grant, hactive, own, covers⟩
    · rw [not_or, not_not] at own
      exact .inr ⟨other, own.1, grant, hactive, scope_eq_of_matchesInput covers own.2, covers⟩
  · rintro (⟨other, grant, hactive, -, covers⟩ | ⟨other, -, grant, hactive, -, covers⟩)
    · exact ⟨grant, h.mem_activeGrants.mpr ⟨⟨other, hactive⟩, actorId_eq_of_matchesInput covers⟩,
        covers⟩
    · exact ⟨grant, h.mem_activeGrants.mpr ⟨⟨other, hactive⟩, actorId_eq_of_matchesInput covers⟩,
        covers⟩

theorem SameButForeign.covered_iff (same : SameButForeign input.sessionId store store') :
    store.Covered input ↔ store'.Covered input := by
  constructor
  · rintro ⟨other, grant, hactive, own, covers⟩
    exact ⟨other, grant, (same other grant own).mp hactive, own, covers⟩
  · rintro ⟨other, grant, hactive, own, covers⟩
    exact ⟨other, grant, (same other grant own).mpr hactive, own, covers⟩

/-- The verdict on an invocation with the grants of a store. -/
def verdict (store : InMemorySessionStore) (policy : PolicyEngine) (config : KernelRunConfig)
    (state : MaterializedSessionState) (runId : RunId) (invocation : ValidatedToolInvocation)
    (now : ProtocolTimestamp) : Verdict :=
  verdictWith policy config state runId invocation now (store.activeGrants config.actorId)

theorem verdict_of_crowded (h : store.GrantsIndexed) (crowded : store.Crowded config.actorId) :
    store.verdict policy config state runId invocation now =
      .failed (.new .policyFailure PolicyInputError.tooManyGrants.text) :=
  verdictWith_of_lt (by rwa [h.grantCandidates_activeGrants])

theorem verdict_of_not_crowded (h : store.GrantsIndexed) (room : ¬store.Crowded config.actorId) :
    store.verdict policy config state runId invocation now =
      .ofDecision config.environment.target invocation.source.kind
        (policy.evaluate ((invocationInput config state runId invocation now).withGrants
          (store.activeGrants config.actorId))).decision := by
  have candidates := h.grantCandidates_activeGrants config.actorId
  rw [verdict, verdictWith_of_le (by rw [candidates]; exact Nat.not_lt.mp room), candidates]

/-- The verdicts in two stores that are not crowded are the same unless the rules ask, no grant of
the session answers, and a grant of another session answers in one store only. -/
theorem verdict_eq_iff_of_not_crowded (h : store.GrantsIndexed) (h' : store'.GrantsIndexed)
    (same : SameButForeign state.sessionId store store') (ignores : policy.IgnoresGrants)
    (room : ¬store.Crowded config.actorId) (room' : ¬store'.Crowded config.actorId) :
    store.verdict policy config state runId invocation now =
        store'.verdict policy config state runId invocation now ↔
      ((∃ reason, policy.decideByRules (invocationInput config state runId invocation now) =
          .ask reason) →
        ¬store.Covered (invocationInput config state runId invocation now) →
          (store.Intruded (invocationInput config state runId invocation now) ↔
            store'.Intruded (invocationInput config state runId invocation now))) := by
  rw [verdict_of_not_crowded h room, verdict_of_not_crowded h' room']
  have covered : store.Covered (invocationInput config state runId invocation now) ↔
    store'.Covered (invocationInput config state runId invocation now) := same.covered_iff
  have granted : (∃ grant ∈ store.activeGrants config.actorId, grant.matchesInput _ = true) ↔ _ :=
    granted_iff h (invocationInput config state runId invocation now)
  have granted' : (∃ grant ∈ store'.activeGrants config.actorId, grant.matchesInput _ = true) ↔ _ :=
    granted_iff h' (invocationInput config state runId invocation now)
  generalize invocationInput config state runId invocation now = input at *
  by_cases asks : ∃ reason, policy.decideByRules input = .ask reason
  · obtain ⟨reason, asked⟩ := asks
    rw [decision_of_ask ignores asked, decision_of_ask ignores asked]
    have settles : Verdict.ofDecision config.environment.target invocation.source.kind .allow ≠
        .ofDecision config.environment.target invocation.source.kind (.ask reason) := by
      simp [Verdict.ofDecision]
    have answer : ((∃ grant ∈ store.activeGrants config.actorId, grant.matchesInput input = true) ↔
        ∃ grant ∈ store'.activeGrants config.actorId, grant.matchesInput input = true) ↔
          (¬store.Covered input → (store.Intruded input ↔ store'.Intruded input)) := by
      rw [granted, granted', ← covered]
      by_cases covers : store.Covered input <;> simp [covers]
    refine Iff.trans ?_ (answer.trans ⟨fun open_ _ => open_, fun open_ => open_ ⟨reason, asked⟩⟩)
    split_ifs with covers covers' covers'
    · exact iff_of_true rfl (iff_of_true covers covers')
    · exact iff_of_false settles fun both => covers' (both.mp covers)
    · exact iff_of_false settles.symm fun both => covers (both.mpr covers')
    · exact iff_of_true rfl (iff_of_false covers covers')
  · have settled := not_exists.mp asks
    rw [decision_of_not_ask ignores settled,
      decision_of_not_ask ignores settled]
    exact iff_of_true rfl fun asked => absurd asked asks

/-- In two reachable stores that differ in session grants of other sessions only, an invocation gets
the same verdict if and only if the actor has too many grants in both stores or in none, and, where
the rules ask and no grant of the session answers, a grant that another session issued for this one
answers in both stores or in none. -/
theorem verdict_eq_iff {events events' : List (StoreEvent Client)} (run : History events store)
    (run' : History events' store') (same : SameButForeign state.sessionId store store')
    (ignores : policy.IgnoresGrants) :
    store.verdict policy config state runId invocation now =
        store'.verdict policy config state runId invocation now ↔
      (store.Crowded config.actorId ↔ store'.Crowded config.actorId) ∧
        (¬store.Crowded config.actorId →
          (∃ reason, policy.decideByRules (invocationInput config state runId invocation now) =
            .ask reason) →
          ¬store.Covered (invocationInput config state runId invocation now) →
            (store.Intruded (invocationInput config state runId invocation now) ↔
              store'.Intruded (invocationInput config state runId invocation now))) := by
  have h := run.grantsIndexed
  have h' := run'.grantsIndexed
  by_cases crowded : store.Crowded config.actorId <;>
    by_cases crowded' : store'.Crowded config.actorId
  · rw [verdict_of_crowded h crowded, verdict_of_crowded h' crowded']
    exact iff_of_true rfl ⟨iff_of_true crowded crowded', fun room => absurd crowded room⟩
  · rw [verdict_of_crowded h crowded, verdict_of_not_crowded h' crowded']
    exact iff_of_false (Verdict.ofDecision_ne_failed _ _ _ _).symm
      fun both => crowded' (both.1.mp crowded)
  · rw [verdict_of_not_crowded h crowded, verdict_of_crowded h' crowded']
    exact iff_of_false (Verdict.ofDecision_ne_failed _ _ _ _)
      fun both => crowded (both.1.mpr crowded')
  · rw [verdict_eq_iff_of_not_crowded h h' same ignores crowded crowded']
    exact ⟨fun open_ => ⟨iff_of_false crowded crowded', fun _ => open_⟩, fun both => both.2 crowded⟩

/-! ### Sessions that were granted reading -/

open StateError

/-- The commands that create the sessions with the numbers from one on, each with its grant. -/
def grantingCommands (count : Nat) : List (Unit × StoreCommand) :=
  (range count).map fun n => ((), .append (grantingTransaction ⟨n + 1⟩ ⟨n⟩))

/-- The store after the commands. -/
def grantedStore (count : Nat) : InMemorySessionStore := (replies (grantingCommands count) new).2

theorem activeIn_new (sessionId : SessionId) : new.activeIn sessionId = [] := by
  have missing : new.sessions[sessionId]? = none := by simp [new]
  rw [activeIn, storedOf_eq_of_none missing]
  rfl

theorem ignoresGrants_constantEngine (decision : Option Policy.PolicyDecision) :
    (constantEngine decision).IgnoresGrants := by
  intro rule hrule input grants
  rw [mem_singleton.mp hrule]

/-- What the transaction of one session does to the empty session. -/
def grantedAlone (n : Nat) : EStateM.Result (Abort SessionStoreError) StoredSession AppendOutcome :=
  applyTransactionInPlace (grantingTransaction ⟨n + 1⟩ ⟨n⟩) false (fun _ => false) .empty

/-- Whether the transaction succeeds and its grant is the only one of the session. -/
def issuesAlone (n : Nat) : Bool :=
  match grantedAlone n with
  | .ok _ stored => stored.artifacts.activeGrants == [readGrant ⟨n⟩ ⟨n + 1⟩] &&
      stored.grantJournal.map (·.grantId) == [⟨n⟩]
  | .error _ _ => false

set_option maxRecDepth 100000 in
-- One evaluation for all sessions would keep the states of all of them in memory.
theorem issuesAlone_of_lt (h : n < 129) : issuesAlone n = true := by
  have first : ∀ n < 43, issuesAlone n = true := by decide +kernel
  have second : ∀ n < 43, issuesAlone (n + 43) = true := by decide +kernel
  have third : ∀ n < 43, issuesAlone (n + 86) = true := by decide +kernel
  rcases Nat.lt_or_ge n 43 with low | low
  · exact first n low
  rcases Nat.lt_or_ge n 86 with middle | high
  · simpa [Nat.sub_add_cancel low] using second (n - 43) (by omega)
  · simpa [Nat.sub_add_cancel high] using third (n - 86) (by omega)

theorem exists_grantedAlone_eq (h : n < 129) :
    ∃ outcome stored, grantedAlone n = .ok outcome stored ∧
      stored.artifacts.activeGrants = [readGrant ⟨n⟩ ⟨n + 1⟩] ∧
      stored.grantJournal.map (·.grantId) = [⟨n⟩] := by
  have issues := issuesAlone_of_lt h
  unfold issuesAlone at issues
  split at issues
  case h_1 outcome stored done => exact ⟨outcome, stored, done, by simpa using issues⟩
  case h_2 => cases issues

theorem grantedStore_succ (count : Nat) : grantedStore (count + 1) =
      resultState (append (grantingTransaction ⟨count + 1⟩ ⟨count⟩) (grantedStore count)) := by
  have after (commands : List (Unit × StoreCommand)) (transaction : AppendTransaction)
      (store : InMemorySessionStore) :
      (replies (commands ++ [((), .append transaction)]) store).2 =
        resultState (append transaction (replies commands store).2) := by
    induction commands generalizing store with
    | nil => rfl
    | cons head commands ih => exact ih _
  rw [grantedStore, grantingCommands, range_succ, map_append]
  exact after _ _ _

/-- The sessions of the store are those of the transactions, each as on its own. -/
theorem sessions_grantedStore (h : count ≤ 129) :
    (grantedStore count).poisoned = false ∧ ∀ (sessionId : SessionId) (stored : StoredSession),
      (grantedStore count).sessions[sessionId]? = some stored ↔
        ∃ n < count, ⟨n + 1⟩ = sessionId ∧ resultState (grantedAlone n) = stored := by
  induction count with
  | zero => simp [grantedStore, grantingCommands, replies, new]
  | succ count ih =>
    obtain ⟨healthy, sessions⟩ := ih (by omega)
    obtain ⟨outcome, stored, alone, -⟩ := exists_grantedAlone_eq h
    have missing : (grantedStore count).sessions[(⟨count + 1⟩ : SessionId)]? = none := by
      refine Option.eq_none_iff_forall_ne_some.mpr fun stored found => ?_
      obtain ⟨n, below, same, -⟩ := (sessions _ _).mp found
      have number := congrArg (·.value) same
      simp only at number
      omega
    have unused : (grantedStore count).grantIdInUse ⟨count⟩ = false := by
      rw [grantIdInUse, any_eq_false]
      intro stored member
      obtain ⟨sessionId, found⟩ := BTreeMap.mem_valueList.mp member
      obtain ⟨n, below, -, rfl⟩ := (sessions _ _).mp found
      obtain ⟨_, stored, done, -, journal⟩ := exists_grantedAlone_eq (n := n) (by omega)
      rw [done, any_eq_true]
      rintro ⟨entry, mentions, same⟩
      have mentioned := mem_map_of_mem (f := (·.grantId)) mentions
      rw [resultState, journal, mem_singleton, beq_iff_eq.mp same] at mentioned
      have number := congrArg (·.value) mentioned
      simp only at number
      omega
    have applied : applyTransactionInPlace (grantingTransaction ⟨count + 1⟩ ⟨count⟩) false
        (grantedStore count).grantIdInUse .empty = .ok outcome stored := by
      rw [← alone, grantedAlone]
      refine congrFun (applyTransactionInPlace_congr fun entry hentry _ => ?_) _
      rw [mem_singleton.mp hentry]
      exact unused
    have existed := BTreeMap.contains_eq_false_iff.mpr
      (BTreeMap.getElem?_eq_none_iff_notMem.mp missing)
    have next : grantedStore (count + 1) =
        ⟨(grantedStore count).sessions.insert ⟨count + 1⟩ stored, false⟩ := by
      have session : (grantingTransaction ⟨count + 1⟩ ⟨count⟩).sessionId = ⟨count + 1⟩ := rfl
      rw [grantedStore_succ, append, healthy, session, existed, storedOf_eq_of_none missing]
      simp only [applied]
      rfl
    rw [next]
    refine ⟨rfl, fun sessionId other => ?_⟩
    rw [BTreeMap.getElem?_insert_eq]
    split_ifs with same
    · subst same
      constructor
      · intro found
        exact ⟨count, by omega, rfl, by rw [alone]; exact Option.some.inj found⟩
      · rintro ⟨n, -, number, rfl⟩
        obtain rfl : n = count := by simpa using number
        rw [alone]
        rfl
    · rw [sessions]
      refine exists_congr fun n => and_congr_left ?_
      rintro ⟨rfl, -⟩
      have distinct : n ≠ count := fun number => same (by rw [number])
      omega

/-- What session zero is asked about does not depend on the grants of the other sessions. -/
theorem sameButForeign_grantedStore (h : count ≤ 129) :
    SameButForeign ⟨0⟩ new (grantedStore count) := by
  intro other grant own
  rw [activeIn_new]
  refine iff_of_false not_mem_nil fun active => ?_
  cases found : (grantedStore count).sessions[other]? with
  | none =>
    rw [activeIn, storedOf_eq_of_none found] at active
    cases active
  | some stored =>
    obtain ⟨n, below, rfl, rfl⟩ := ((sessions_grantedStore h).2 _ _).mp found
    obtain ⟨_, stored, done, issued, -⟩ := exists_grantedAlone_eq (Nat.lt_of_lt_of_le below h)
    rw [activeIn, storedOf_eq_of_some found, done, resultState, issued] at active
    rw [mem_singleton.mp active] at own
    exact own.elim (by simp) fun unscoped => unscoped ⟨_, rfl⟩

/-- A grant of another session does not change what session zero may read. -/
theorem verdict_eq_iff_one :
    new.verdict (constantEngine (some .allow)) localConfig (freshState ⟨0⟩) ⟨0⟩
        (readInvocation ⟨0⟩) 10 =
      (grantedStore 1).verdict (constantEngine (some .allow)) localConfig
        (freshState ⟨0⟩) ⟨0⟩ (readInvocation ⟨0⟩) 10 := by
  have same := sameButForeign_grantedStore (show 1 ≤ 129 by decide)
  have start : History ([] : List (StoreEvent Unit)) new := .nil
  refine (verdict_eq_iff start (run_replies (grantingCommands 1) new) same
    (ignoresGrants_constantEngine _)).mpr ⟨by decide +kernel, fun _ asks => ?_⟩
  obtain ⟨reason, asked⟩ := asks
  have allows : (constantEngine (some .allow)).decideByRules
      (invocationInput localConfig (freshState ⟨0⟩) ⟨0⟩ (readInvocation ⟨0⟩) 10) = .allow := by
    decide +kernel
  rw [allows] at asked
  cases asked

/-- The grants that 129 other sessions issued for themselves are too many for a policy input. -/
theorem crowded_grantedStore : (grantedStore 129).Crowded localUser := by
  have indexed : (grantedStore 129).GrantsIndexed :=
    History.grantsIndexed (run_replies (grantingCommands 129) new)
  let grants := (range 129).map fun n => readGrant ⟨n⟩ ⟨n + 1⟩
  have distinct : grants.Nodup := by
    refine nodup_range.map fun n m same => ?_
    exact congrArg (·.id.value) same
  have listed : grants ⊆ (grantedStore 129).activeGrants localUser := by
    intro grant member
    obtain ⟨n, below, rfl⟩ := mem_map.mp member
    obtain ⟨_, stored, done, active, -⟩ := exists_grantedAlone_eq (mem_range.mp below)
    have found := ((sessions_grantedStore le_rfl).2 ⟨n + 1⟩ stored).mpr
      ⟨n, mem_range.mp below, rfl, by rw [done]; rfl⟩
    refine indexed.mem_activeGrants.mpr ⟨⟨⟨n + 1⟩, ?_⟩, rfl⟩
    rw [activeIn, storedOf_eq_of_some found, active]
    exact mem_singleton_self _
  have size := (subperm_of_subset distinct listed).length_le
  rw [length_map, length_range] at size
  exact size

/-- With grants of 129 other sessions the kernel fails on a call that it allows without them. -/
theorem foreign_grants_fail_call :
    History (replies (grantingCommands 129) new).1 (grantedStore 129) ∧
      SameButForeign ⟨0⟩ new (grantedStore 129) ∧
      new.verdict (constantEngine (some .allow)) localConfig (freshState ⟨0⟩) ⟨0⟩
        (readInvocation ⟨0⟩) 10 = .allowed .native ∧
      (grantedStore 129).verdict (constantEngine (some .allow)) localConfig
        (freshState ⟨0⟩) ⟨0⟩ (readInvocation ⟨0⟩) 10 =
          .failed (.new .policyFailure "policy input contains too many grants") := by
  have run : History (replies (grantingCommands 129) new).1 (grantedStore 129) := run_replies _ _
  exact ⟨run, sameButForeign_grantedStore le_rfl, by decide +kernel,
    verdict_of_crowded run.grantsIndexed crowded_grantedStore⟩

end InMemorySessionStore

end TeaRs
