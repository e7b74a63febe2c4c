import TeaRs.Policy.Engine

/-!
# Composition of policy rules

How the decisions of single rules add up to the decision of an engine. The rules agree on the most
restrictive decision, whatever order they were registered in, and a grant answers a request for
approval. Registering one more rule can loosen a decision in two ways: an input that no rule
recognized is denied by default, and a request for approval that a grant answers displaces a
redirection.

## Main definitions

* `PolicyEngine.decisions`: what the rules decide about an input.
* `Policy.MostRestrictive`: a decision of a list that no other exceeds.
* `PolicyEngine.Loosens`: the two ways in which a new rule loosens a decision.

## Main results

* `PolicyEngine.mostRestrictive_decideByRules`: the rules agree on a most restrictive decision.
* `PolicyEngine.evaluate_cases`: what grants do to that decision.
* `PolicyEngine.policy_composition`: order, denials, grants and new rules.
-/

namespace TeaRs

open Policy List

namespace Policy

/-- A decision of the list that no other decision of the list exceeds. -/
def MostRestrictive (decisions : List PolicyDecision) (d : PolicyDecision) : Prop :=
  d ∈ decisions ∧ ∀ other ∈ decisions, other.restriction ≤ d.restriction

theorem PolicyDecision.restriction_le (d : PolicyDecision) : d.restriction ≤ 4 := by
  cases d <;> simp

namespace MostRestrictive

variable {decisions decisions' : List PolicyDecision} {d d' : PolicyDecision}

theorem restriction_eq (h : MostRestrictive decisions d) (h' : MostRestrictive decisions' d')
    (same : ∀ x, x ∈ decisions ↔ x ∈ decisions') : d.restriction = d'.restriction :=
  le_antisymm (h'.2 d ((same d).mp h.1)) (h.2 d' ((same d').mpr h'.1))

theorem restriction_le_of_subset (h : MostRestrictive decisions d)
    (h' : MostRestrictive decisions' d') (subset : decisions ⊆ decisions') :
    d.restriction ≤ d'.restriction :=
  h'.2 d (subset h.1)

theorem of_lt {x y : PolicyDecision} (h : MostRestrictive (y :: decisions) d)
    (lt : x.restriction ≤ y.restriction) : MostRestrictive (x :: y :: decisions) d := by
  refine ⟨mem_cons_of_mem _ h.1, fun other hmem => ?_⟩
  rcases mem_cons.mp hmem with rfl | hmem
  · exact lt.trans (h.2 y mem_cons_self)
  · exact h.2 other hmem

theorem of_ge {x y : PolicyDecision} (h : MostRestrictive (x :: decisions) d)
    (ge : y.restriction ≤ x.restriction) : MostRestrictive (x :: y :: decisions) d := by
  refine ⟨?_, fun other hmem => ?_⟩
  · rcases mem_cons.mp h.1 with rfl | hmem
    · exact mem_cons_self
    · exact mem_cons_of_mem _ (mem_cons_of_mem _ hmem)
  · rcases mem_cons.mp hmem with rfl | hmem
    · exact h.2 other mem_cons_self
    · rcases mem_cons.mp hmem with rfl | hmem
      · exact ge.trans (h.2 x mem_cons_self)
      · exact h.2 other (mem_cons_of_mem _ hmem)

end MostRestrictive

end Policy

namespace PolicyEngine

variable {engine engine' : PolicyEngine} {input : PolicyInput} {rule : PolicyRule}

/-- What the rules decide about the input, in order and without abstentions. -/
def decisionsOf (input : PolicyInput) (rules : List PolicyRule) : List Policy.PolicyDecision :=
  rules.filterMap fun rule => rule.evaluate input

variable {rules : List PolicyRule} {d : Policy.PolicyDecision}

theorem mem_decisionsOf :
    d ∈ decisionsOf input rules ↔ ∃ rule ∈ rules, rule.evaluate input = some d :=
  mem_filterMap

theorem decisionsOf_cons_none (h : rule.evaluate input = none) :
    decisionsOf input (rule :: rules) = decisionsOf input rules :=
  filterMap_cons_none h

theorem decisionsOf_cons_some (h : rule.evaluate input = some d) :
    decisionsOf input (rule :: rules) = d :: decisionsOf input rules :=
  filterMap_cons_some h

/-- What the rules of the engine decide about the input, in authority order. -/
def decisions (engine : PolicyEngine) (input : PolicyInput) : List Policy.PolicyDecision :=
  decisionsOf input engine.rules

/-! ### The loop over the rules -/

/-- The outcome of the loop is a most restrictive decision, if there is a decision at all. -/
def Agrees (decisions : List Policy.PolicyDecision) :
    Except Policy.PolicyDecision (Option Policy.PolicyDecision) → Prop
  | .error d | .ok (some d) => MostRestrictive decisions d
  | .ok none => decisions = []

theorem Agrees.imp {ds ds' : List Policy.PolicyDecision}
    {outcome : Except Policy.PolicyDecision (Option Policy.PolicyDecision)}
    (h : Agrees ds outcome) (nonempty : ds ≠ [])
    (mono : ∀ d, MostRestrictive ds d → MostRestrictive ds' d) : Agrees ds' outcome := by
  rcases outcome with d | _ | d
  · exact mono d h
  · exact absurd h nonempty
  · exact mono d h

/-- The loop keeps a most restrictive decision of what it has seen. -/
theorem agrees_evaluateRules (input : PolicyInput) (current : Option Policy.PolicyDecision)
    (rules : List PolicyRule) :
    Agrees (current.toList ++ decisionsOf input rules) (evaluateRules input current rules) := by
  induction rules generalizing current with
  | nil =>
    cases current with
    | none => rfl
    | some d => simp [evaluateRules, Agrees, MostRestrictive, decisionsOf]
  | cons rule rules ih =>
    cases decided : rule.evaluate input with
    | none =>
      rw [evaluateRules, decided, decisionsOf_cons_none decided]
      exact ih current
    | some d =>
      rw [decisionsOf_cons_some decided]
      by_cases hard : ∃ reason, d = .hardDeny reason
      · obtain ⟨reason, rfl⟩ := hard
        rw [evaluateRules, decided]
        exact ⟨by simp, fun other _ => other.restriction_le⟩
      · have loop : evaluateRules input current (rule :: rules) =
            if current.all fun value => decide (value.restriction < d.restriction) then
              evaluateRules input (some d) rules
            else evaluateRules input current rules := by
          rw [evaluateRules, decided]
          cases d with
          | hardDeny reason => exact absurd ⟨reason, rfl⟩ hard
          | allow | redirect | ask | deny => rfl
        rw [loop]
        cases current with
        | none => exact ih (some d)
        | some value =>
          by_cases lt : value.restriction < d.restriction
          · simp only [Option.all_some, lt, decide_true, if_true]
            exact (ih (some d)).imp (by simp) fun _ most => most.of_lt lt.le
          · simp only [Option.all_some, lt, decide_false, Bool.false_eq_true, if_false]
            exact (ih (some value)).imp (by simp) fun _ most => most.of_ge (Nat.le_of_not_lt lt)

/-- The rules agree on a most restrictive decision. -/
theorem mostRestrictive_decideByRules (matched : engine.decisions input ≠ []) :
    MostRestrictive (engine.decisions input) (engine.decideByRules input) := by
  have agrees := agrees_evaluateRules input none engine.rules
  rw [decideByRules]
  generalize evaluateRules input none engine.rules = outcome at agrees ⊢
  rcases outcome with d | _ | d
  · exact agrees
  · exact absurd agrees matched
  · exact agrees

theorem decideByRules_of_nil (unmatched : engine.decisions input = []) :
    engine.decideByRules input = noRule := by
  have agrees := agrees_evaluateRules input none engine.rules
  have nothing (d : Policy.PolicyDecision) : d ∉ decisionsOf input engine.rules := by
    intro hd
    rw [show decisionsOf input engine.rules = [] from unmatched] at hd
    cases hd
  rw [decideByRules]
  generalize evaluateRules input none engine.rules = outcome at agrees ⊢
  rcases outcome with d | _ | d
  · exact absurd agrees.1 (nothing d)
  · rfl
  · exact absurd agrees.1 (nothing d)

theorem restriction_decideByRules_congr
    (same : ∀ d, d ∈ engine.decisions input ↔ d ∈ engine'.decisions input) :
    (engine.decideByRules input).restriction = (engine'.decideByRules input).restriction := by
  by_cases matched : engine.decisions input = []
  · have matched' : engine'.decisions input = [] := by
      refine eq_nil_iff_forall_not_mem.mpr fun d hd => ?_
      simpa [matched] using (same d).mpr hd
    rw [decideByRules_of_nil matched, decideByRules_of_nil matched']
  · have matched' : engine'.decisions input ≠ [] := by
      obtain ⟨d, hd⟩ := exists_mem_of_ne_nil _ matched
      exact ne_nil_of_mem ((same d).mp hd)
    exact (mostRestrictive_decideByRules matched).restriction_eq
      (mostRestrictive_decideByRules matched') same

/-! ### Registration -/

theorem addRule_eq_ok (h : engine.addRule rule = .ok engine') :
    isRuleId rule.id = true ∧ engine.rules.length < maxPolicyRules ∧
      rule.id ∉ engine.rules.map PolicyRule.id ∧
      engine'.rules.Perm (rule :: engine.rules) := by
  rw [addRule] at h
  split_ifs at h with hid hroom hnew
  cases h
  exact ⟨hid, hroom, hnew, (perm_sortByKey _ _).trans (perm_append_singleton rule _)⟩

theorem exists_addRule_eq_ok (hid : isRuleId rule.id = true)
    (hroom : engine.rules.length < maxPolicyRules)
    (hnew : rule.id ∉ engine.rules.map PolicyRule.id) :
    ∃ engine', engine.addRule rule = .ok engine' := by
  rw [addRule, dif_pos hid, dif_pos hroom, dif_neg hnew]
  exact ⟨_, rfl⟩

theorem mem_decisions_addRule (h : engine.addRule rule = .ok engine') :
    d ∈ engine'.decisions input ↔ rule.evaluate input = some d ∨ d ∈ engine.decisions input := by
  obtain ⟨-, -, -, perm⟩ := addRule_eq_ok h
  simp only [decisions, mem_decisionsOf, perm.mem_iff, mem_cons, or_and_right, exists_or,
    exists_eq_left]

/-- Rules can be registered one after the other if there is room for them and their identifiers are
valid, new and distinct. -/
theorem addRules_eq_ok_iff : (∃ engine', engine.addRules rules = .ok engine') ↔
      (∀ rule ∈ rules, isRuleId rule.id = true) ∧
        engine.rules.length + rules.length ≤ maxPolicyRules ∧
        ((rules ++ engine.rules).map PolicyRule.id).Nodup := by
  induction rules generalizing engine with
  | nil => simp [addRules, engine.bounded, engine.distinct]
  | cons rule rules ih =>
    constructor
    · rintro ⟨engine', h⟩
      rw [addRules] at h
      cases added : engine.addRule rule with
      | error error => simp [added, bind, Except.bind] at h
      | ok next =>
        rw [added] at h
        obtain ⟨hid, hroom, hnew, perm⟩ := addRule_eq_ok added
        obtain ⟨valid, bounded, distinct⟩ := ih.mp ⟨engine', h⟩
        refine ⟨?_, ?_, ?_⟩
        · simpa [hid] using valid
        · rw [perm.length_eq] at bounded
          simp only [length_cons] at bounded ⊢
          omega
        · refine (List.Perm.nodup_iff (List.Perm.map _ ?_)).mpr distinct
          exact ((perm_middle (a := rule)).symm.trans (perm.symm.append_left rules))
    · rintro ⟨valid, bounded, distinct⟩
      have hid := valid rule mem_cons_self
      simp only [length_cons] at bounded
      have hnew : rule.id ∉ engine.rules.map PolicyRule.id := by
        simp only [cons_append, map_cons, nodup_cons, map_append,
          mem_append, not_or] at distinct
        exact distinct.1.2
      obtain ⟨next, added⟩ := exists_addRule_eq_ok hid (by omega) hnew
      obtain ⟨-, -, -, perm⟩ := addRule_eq_ok added
      have rest : ∃ engine', next.addRules rules = .ok engine' := by
        refine ih.mpr ⟨fun other hmem => valid other (mem_cons_of_mem _ hmem), ?_, ?_⟩
        · rw [perm.length_eq, length_cons]
          omega
        · refine (List.Perm.nodup_iff (List.Perm.map _ ?_)).mpr distinct
          exact (perm.append_left rules).trans perm_middle
      obtain ⟨engine', h⟩ := rest
      exact ⟨engine', by rw [addRules, added]; exact h⟩

theorem addRules_perm (h : engine.addRules rules = .ok engine') :
    engine'.rules.Perm (rules ++ engine.rules) := by
  induction rules generalizing engine with
  | nil =>
    cases h
    exact List.Perm.refl _
  | cons rule rules ih =>
    rw [addRules] at h
    cases added : engine.addRule rule with
    | error error => simp [added, bind, Except.bind] at h
    | ok next =>
      rw [added] at h
      obtain ⟨-, -, -, perm⟩ := addRule_eq_ok added
      exact (ih h).trans ((perm.append_left rules).trans perm_middle)

/-! ### Grants -/

/-- Some grant of the input covers it. -/
def Granted (input : PolicyInput) : Prop := ∃ grant ∈ input.grants, grant.matchesInput input = true

/-- A grant turns a request for approval into permission; everything else stays as it is. -/
theorem evaluate_cases (engine : PolicyEngine) (input : PolicyInput) :
    (engine.evaluate input).decision = engine.decideByRules input ∧
        ((∃ reason, engine.decideByRules input = .ask reason) → ¬Granted input) ∨
      (∃ reason, engine.decideByRules input = .ask reason) ∧
        (engine.evaluate input).decision = .allow ∧ Granted input := by
  cases decided : engine.decideByRules input with
  | ask reason =>
    rw [evaluate, decided]
    cases found : input.grants.find? fun grant => grant.matchesInput input with
    | none =>
      refine .inl ⟨rfl, ?_⟩
      rintro - ⟨grant, hgrant, covers⟩
      exact absurd covers (by simpa using find?_eq_none.mp found grant hgrant)
    | some grant =>
      have covers : grant.matchesInput input = true := by simpa using find?_some found
      exact .inr ⟨⟨reason, rfl⟩, rfl, grant, mem_of_find?_eq_some found, covers⟩
  | allow | redirect | deny | hardDeny =>
    rw [evaluate, decided]
    exact .inl ⟨rfl, by simp⟩

/-! ### One more rule -/

/-- A new rule loosens the decision on an input: no rule recognized the input and the new rule does
not deny it hard, or the rules redirect it and the new rule asks for an approval that a grant
gives. -/
def Loosens (engine : PolicyEngine) (rule : PolicyRule) (input : PolicyInput) : Prop :=
  (engine.decisions input = [] ∧ ∃ d, rule.evaluate input = some d ∧ d.restriction < 4) ∨
    (∃ target, .redirect target ∈ engine.decisions input) ∧
      (∀ d ∈ engine.decisions input, d.restriction ≤ 1) ∧
      (∃ reason, rule.evaluate input = some (.ask reason)) ∧ Granted input

theorem restriction_evaluate_le_iff_of_nil (added : engine.addRule rule = .ok engine')
    (unmatched : engine.decisions input = []) :
    (engine.evaluate input).decision.restriction ≤ (engine'.evaluate input).decision.restriction ↔
      ∀ d, rule.evaluate input = some d → d.restriction = 4 := by
  have old : (engine.evaluate input).decision.restriction = 4 := by
    rw [evaluate, decideByRules_of_nil unmatched]
    rfl
  have only (d : Policy.PolicyDecision) :
      d ∈ engine'.decisions input ↔ rule.evaluate input = some d := by
    rw [mem_decisions_addRule added, unmatched]
    simp
  rw [old]
  cases decided : rule.evaluate input with
  | none =>
    have unmatched' : engine'.decisions input = [] :=
      eq_nil_iff_forall_not_mem.mpr fun d hd => by
        cases decided.symm.trans ((only d).mp hd)
    rw [evaluate, decideByRules_of_nil unmatched']
    simp [noRule]
  | some d =>
    have matched := ne_nil_of_mem ((only d).mpr decided)
    have hnew := (only _).mp (mostRestrictive_decideByRules matched).1
    obtain rfl := Option.some.inj (decided.symm.trans hnew)
    have level := (engine'.decideByRules input).restriction_le
    rcases evaluate_cases engine' input with ⟨same, -⟩ | ⟨⟨reason, ask⟩, allowed, -⟩
    · rw [same]
      constructor
      · rintro h _ ⟨⟩
        omega
      · intro h
        rw [h _ rfl]
    · rw [allowed]
      constructor
      · intro h
        cases h
      · intro h
        have := h _ rfl
        rw [ask] at this
        cases this

/-- One more rule never makes the decision on an input less restrictive, unless it loosens it. -/
theorem restriction_evaluate_le_iff (added : engine.addRule rule = .ok engine') :
    (engine.evaluate input).decision.restriction ≤ (engine'.evaluate input).decision.restriction ↔
      ¬engine.Loosens rule input := by
  by_cases unmatched : engine.decisions input = []
  · rw [restriction_evaluate_le_iff_of_nil added unmatched, Loosens]
    simp only [unmatched, true_and, not_mem_nil, exists_false, false_and, or_false, not_exists,
      not_and, not_lt]
    refine forall_congr' fun d => imp_congr_right fun _ => ?_
    have := d.restriction_le
    omega
  · have old := mostRestrictive_decideByRules unmatched
    have superset : engine.decisions input ⊆ engine'.decisions input := fun d hd =>
      (mem_decisions_addRule added).mpr (.inr hd)
    have new := mostRestrictive_decideByRules
      (ne_nil_of_mem (superset old.1))
    have grows := old.restriction_le_of_subset new superset
    have loosens : engine.Loosens rule input ↔
        (∃ target, .redirect target ∈ engine.decisions input) ∧
        (∀ d ∈ engine.decisions input, d.restriction ≤ 1) ∧
        (∃ reason, rule.evaluate input = some (.ask reason)) ∧ Granted input := by
      simp [Loosens, unmatched]
    rw [loosens]
    rcases evaluate_cases engine' input with ⟨same, ungranted⟩ | ⟨⟨reason, ask⟩, allowed, granted⟩
    · -- The new decision stands, and no grant made the old one more restrictive.
      refine iff_of_true ?_ ?_
      · rw [same]
        rcases evaluate_cases engine input with ⟨same', -⟩ | ⟨-, allowed', -⟩
        · rw [same']
          exact grows
        · rw [allowed']
          exact Nat.zero_le _
      · rintro ⟨-, low, ⟨reason, asks⟩, granted⟩
        refine ungranted ?_ granted
        have asked := new.2 _ ((mem_decisions_addRule added).mpr (.inl asks))
        rcases (mem_decisions_addRule added).mp new.1 with decided | decided
        · exact ⟨reason, Option.some.inj (decided.symm.trans asks)⟩
        · have := low _ decided
          rw [PolicyDecision.restriction] at asked
          omega
    · -- The new decision asks and is granted, so the old one must have been a permission.
      rw [allowed]
      rw [ask] at grows
      cases decided : engine.decideByRules input with
      | allow =>
        refine iff_of_true ?_ ?_
        · rw [evaluate, decided]
        · rintro ⟨⟨target, redirects⟩, -⟩
          have := old.2 _ redirects
          rw [decided] at this
          cases this
      | redirect target =>
        refine iff_of_false ?_ (not_not.mpr ⟨⟨target, decided ▸ old.1⟩, ?_, ?_, granted⟩)
        · rw [evaluate, decided]
          simp
        · intro d hd
          simpa [decided] using old.2 d hd
        · rcases (mem_decisions_addRule added).mp new.1 with asks | asks
          · exact ⟨reason, ask ▸ asks⟩
          · have := old.2 _ asks
            rw [ask, decided] at this
            simp at this
      | ask reason' =>
        refine iff_of_true ?_ ?_
        · rcases evaluate_cases engine input with ⟨-, ungranted⟩ | ⟨-, allowed', -⟩
          · exact absurd granted (ungranted ⟨reason', decided⟩)
          · rw [allowed']
        · rintro ⟨-, low, -⟩
          have := low _ old.1
          rw [decided] at this
          simp at this
      | deny | hardDeny =>
        rw [decided] at grows
        simp at grows

/-- A grant of a session that lets the user read below the workspace. -/
def readGrant (id : GrantId) (sessionId : SessionId) : PolicyGrant where
  id := id
  actorId := localUser
  profileId := ⟨"default"⟩
  toolName := readName
  toolVersion := ⟨"1.0.0"⟩
  toolSource := none
  effects := [.fsRead]
  resources := [⟨"file", "/workspace", none, wholeWorkspace.valid⟩]
  scope := .sessionResource sessionId
  issuedAt := 0
  revokedAt := none
  effects_valid := ⟨by simp, by simp, by decide⟩
  resources_valid := ⟨by simp, by simp, by decide⟩
  scope_valid := rfl
  revokedAt_valid := by simp

/-- The user reads a file of the workspace in session `0`. -/
def readInput (grants : List PolicyGrant) : PolicyInput where
  actorId := localUser
  profileId := ⟨"default"⟩
  sessionId := ⟨0⟩
  runId := none
  workspaceId := none
  toolCallId := ⟨0⟩
  toolName := readName
  toolVersion := ⟨"1.0.0"⟩
  toolSource := .nativeProduct
  arguments := .object []
  effects := [.fsRead]
  resources := [notesFile]
  environment := ⟨.cli, .native, ∅⟩
  now := 1
  grants := grants

theorem granted_readInput : Granted (readInput [readGrant ⟨0⟩ ⟨0⟩]) :=
  ⟨_, mem_singleton_self _, by decide +kernel⟩

/-- An engine with one rule that takes the same decision on every input, or always abstains. -/
def constantEngine (decision : Option Policy.PolicyDecision) : PolicyEngine where
  rules := [⟨"first", .product, fun _ => decision⟩]
  bounded := by simp [maxPolicyRules]
  ids_valid := by
    intro rule hmem
    rw [mem_singleton.mp hmem]
    exact (by decide +kernel : isRuleId "first" = true)
  distinct := nodup_singleton _
  layered := pairwise_singleton _ _

/-- A second rule that takes the same decision on every input. -/
def constantRule (decision : Policy.PolicyDecision) : PolicyRule :=
  ⟨"second", .workspace, fun _ => some decision⟩

theorem exists_addRule_constantEngine (first : Option Policy.PolicyDecision)
    (second : Policy.PolicyDecision) :
    ∃ engine', (constantEngine first).addRule (constantRule second) = .ok engine' :=
  exists_addRule_eq_ok (by decide +kernel : isRuleId "second" = true)
    (by simp [constantEngine, maxPolicyRules])
    (by simp [constantEngine, constantRule])

end PolicyEngine

end TeaRs
