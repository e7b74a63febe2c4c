import TeaRs.Mcp.Catalog
import TeaRs.Mcp.Lifecycle

/-!
# Reconnected tools are the frozen ones

A server is identified by a snapshot of its protocol version, of the digest of its implementation and
of the digests of its bindings (`tea-mcp/src/server.rs`). A reconnect puts a new connection into the
slot only if the snapshot of its discovery is the frozen one (`tea-mcp/src/manager.rs`). The
snapshots of two discoveries are equal exactly if the discoveries offer equal tools under the same
aliases, so every call reaches a server that offered the tool as it was frozen.

## Main definitions

* `McpServerSnapshot`, `McpServerSnapshot.new`, `McpServerSnapshot.freeze`.
* `Discovery`: what a server answers to a handshake and to the requests of a discovery.
* `Discovery.Agrees`: two discoveries offer equal tools under the same aliases.
* `System.Judges`: a reconnect compares the snapshot of its candidate with the frozen one.

## Main results

* `Discovery.snapshot_eq_iff`: snapshots are equal exactly if the discoveries agree.
* `frozen_tools`: for every server and every run, this holds of every connection in the slot.
-/

namespace TeaRs.Mcp

open StateError List

/-! ### Snapshots -/

/-- The check of `McpProtocolVersion::from_str`. -/
def isProtocolVersion (value : String) : Bool :=
  !value.isEmpty && decide (value.utf8ByteSize ≤ 64) &&
    value.toList.all fun c => decide (33 ≤ c.toNat ∧ c.toNat ≤ 126)

/-- `McpServerSnapshot`. -/
structure McpServerSnapshot where
  serverId : McpServerId
  implementationDigest : McpDescriptorDigest
  protocolVersion : String
  catalogDigest : McpDescriptorDigest
  bindingDigests : BTreeMap ToolName McpDescriptorDigest

/-- `catalog_digest`. -/
def catalogDigest (libraries : Libraries) (bindings : BTreeMap ToolName McpDescriptorDigest) :
    Except McpErrorCode McpDescriptorDigest :=
  digestValue libraries "tea-mcp-catalog-v1\x00" (.object (bindings.toList.map fun binding =>
    (binding.1.asStr, .string binding.2.asStr)))

/-- A turn of the loop in `McpServerSnapshot::new`. -/
def addDigest (digests : BTreeMap ToolName McpDescriptorDigest)
    (binding : ToolName × McpDescriptorDigest) :
    Except McpErrorCode (BTreeMap ToolName McpDescriptorDigest) :=
  if 256 ≤ digests.size ∨ binding.1 ∈ digests then .error .descriptor
  else .ok (digests.insert binding.1 binding.2)

/-- `McpServerSnapshot::new`. -/
def McpServerSnapshot.new (libraries : Libraries) (serverId : McpServerId)
    (implementationDigest : McpDescriptorDigest) (protocolVersion : String)
    (bindings : List (ToolName × McpDescriptorDigest)) : Except McpErrorCode McpServerSnapshot := do
  let bindingDigests ← bindings.foldlM addDigest ∅
  let digest ← Mcp.catalogDigest libraries bindingDigests
  return ⟨serverId, implementationDigest, protocolVersion, digest, bindingDigests⟩

/-- The alias and the digest of a binding. -/
def bindingDigest (binding : McpToolBinding) :
    Except McpErrorCode (ToolName × McpDescriptorDigest) := do
  let digest ← McpDescriptorDigest.ofString binding.spec.source.descriptorDigest
  return (binding.spec.name, digest)

/-- What a server answers: its version and implementation in the handshake, and pages of tools. -/
structure Discovery where
  protocolVersion : String
  implementation : Value
  pages : List (Except McpErrorCode ToolsPage)
  distinct : implementation.DistinctKeys

/-- `McpServerSnapshot::freeze`, with `McpHandshakeSnapshot::freeze` of the answers. -/
def McpServerSnapshot.freeze (libraries : Libraries) (config : McpServerConfig)
    (discovery : Discovery) (catalog : McpToolCatalog) : Except McpErrorCode McpServerSnapshot := do
  let implementationDigest ← digestValue libraries "tea-mcp-implementation-v1\x00"
    discovery.implementation
  if !isProtocolVersion discovery.protocolVersion then .error .descriptor
  else
    let bindings ← catalog.bindings.valueList.mapM bindingDigest
    McpServerSnapshot.new libraries config.id implementationDigest discovery.protocolVersion bindings

/-- The snapshot of a discovery, as `initialize_restart` makes it. -/
def Discovery.snapshot (libraries : Libraries) (config : McpServerConfig) (trust : ToolTrust)
    (discovery : Discovery) : Except McpErrorCode McpServerSnapshot := do
  let catalog ← discover libraries config trust discovery.pages
  McpServerSnapshot.freeze libraries config discovery catalog

variable {aliasName : ToolName} {digest : McpDescriptorDigest}

/-- What the loop of `McpServerSnapshot::new` collects. -/
theorem addDigest_foldlM {bindings : List (ToolName × McpDescriptorDigest)}
    {digests digests' : BTreeMap ToolName McpDescriptorDigest}
    (ok : bindings.foldlM addDigest digests = .ok digests') :
    digests'[aliasName]? = some digest ↔
      digests[aliasName]? = some digest ∨ (aliasName, digest) ∈ bindings := by
  induction bindings generalizing digests with
  | nil =>
    cases ok
    simp
  | cons binding bindings ih =>
    rw [foldlM_cons] at ok
    obtain ⟨next, first, ok⟩ := except_bind_eq_ok.mp ok
    rw [addDigest] at first
    split_ifs at first with full
    cases first
    rw [ih ok, mem_cons, BTreeMap.getElem?_insert_eq]
    split_ifs with here
    · have absent : digests[binding.1]? = none :=
        BTreeMap.getElem?_eq_none_iff_notMem.mpr fun mem => full (.inr mem)
      simp [here, absent, Prod.ext_iff, eq_comm]
    · simp [here, Prod.ext_iff]

theorem bindingDigest_eq_ok {binding : McpToolBinding}
    (ok : bindingDigest binding = .ok (aliasName, digest)) :
    binding.spec.name = aliasName ∧ binding.spec.source.descriptorDigest = digest.asStr := by
  obtain ⟨other, parsed, ok⟩ := except_bind_eq_ok.mp ok
  cases ok
  rw [McpDescriptorDigest.ofString] at parsed
  split_ifs at parsed
  cases parsed
  exact ⟨rfl, rfl⟩

/-! ### Equality of snapshots -/

namespace Discovery

variable {libraries : Libraries} {config : McpServerConfig} {trust : ToolTrust}

/-- The tools that are bound, each with its alias and its declaration. -/
def enabledTools (config : McpServerConfig) (discovery : Discovery) :
    List (ToolName × McpToolDeclaration × Tool) :=
  (offered discovery.pages).filterMap fun tool =>
    match config.enabledAlias tool.name, config.declaration tool.name with
    | some aliasName, some declaration => some (aliasName, declaration, tool)
    | _, _ => none

/-- The values of the server that are printed to be hashed. -/
def printed (config : McpServerConfig) (discovery : Discovery) : List Value :=
  discovery.implementation.sortKeys ::
    (discovery.enabledTools config).map fun (_, _, tool) => tool.toValue.sortKeys

/-- The inputs of the hash that identify the implementation and the tools. -/
def hashed (libraries : Libraries) (config : McpServerConfig) (trust : ToolTrust)
    (discovery : Discovery) : List (List UInt8) :=
  valuePreimage "tea-mcp-implementation-v1\x00"
      (libraries.canonicalText discovery.implementation) ::
    (discovery.enabledTools config).map fun (aliasName, declaration, tool) =>
      toolPreimage libraries config trust aliasName declaration tool.toToolFields

/-- Two discoveries agree: on the protocol version, the implementation, the aliases that are bound,
and the tools that are bound to them. -/
structure Agrees (config : McpServerConfig) (discovery other : Discovery) : Prop where
  protocolVersion : discovery.protocolVersion = other.protocolVersion
  implementation : discovery.implementation.jsonEq other.implementation = true
  aliases : ∀ aliasName, (bound config discovery.pages aliasName).isSome =
    (bound config other.pages aliasName).isSome
  tools : ∀ aliasName tool tool', bound config discovery.pages aliasName = some tool →
    bound config other.pages aliasName = some tool' → tool.toValue.jsonEq tool'.toValue = true

/-- What a snapshot says of its discovery. -/
structure Summarizes (libraries : Libraries) (config : McpServerConfig) (trust : ToolTrust)
    (discovery : Discovery) (snapshot : McpServerSnapshot) : Prop where
  serverId : snapshot.serverId = config.id
  protocolVersion : snapshot.protocolVersion = discovery.protocolVersion
  implementation : snapshot.implementationDigest.asStr =
    hexText (libraries.sha256 (valuePreimage "tea-mcp-implementation-v1\x00"
      (libraries.canonicalText discovery.implementation))).toList
  length : (libraries.canonicalText discovery.implementation).length < 2 ^ 64
  catalog : catalogDigest libraries snapshot.bindingDigests = .ok snapshot.catalogDigest
  unbound : ∀ aliasName, bound config discovery.pages aliasName = none →
    snapshot.bindingDigests[aliasName]? = none
  tools : ∀ aliasName tool, bound config discovery.pages aliasName = some tool →
    ∃ declaration digest binding, snapshot.bindingDigests[aliasName]? = some digest ∧
      digest.asStr = binding.spec.source.descriptorDigest ∧
      BoundTo libraries config trust aliasName tool declaration binding

variable {discovery : Discovery} {snapshot : McpServerSnapshot}

theorem summarizes (ok : discovery.snapshot libraries config trust = .ok snapshot) :
    discovery.Summarizes libraries config trust snapshot := by
  obtain ⟨catalog, discovered, ok⟩ := except_bind_eq_ok.mp ok
  obtain ⟨implementationDigest, implementation, ok⟩ := except_bind_eq_ok.mp ok
  split_ifs at ok
  obtain ⟨bindings, digests, ok⟩ := except_bind_eq_ok.mp ok
  obtain ⟨bindingDigests, collected, ok⟩ := except_bind_eq_ok.mp ok
  obtain ⟨catalogDigest, digest, ok⟩ := except_bind_eq_ok.mp ok
  cases ok
  obtain ⟨canonical, printed, implementation⟩ := except_bind_eq_ok.mp implementation
  obtain ⟨_, short, implementation⟩ := except_bind_eq_ok.mp implementation
  obtain ⟨rfl, -⟩ := canonicalJson_eq_ok printed
  have lookup {aliasName : ToolName} {digest : McpDescriptorDigest} :
      bindingDigests[aliasName]? = some digest ↔
        ∃ binding ∈ catalog.bindings.valueList, bindingDigest binding = .ok (aliasName, digest) := by
    rw [addDigest_foldlM collected, mem_mapM_iff digests]
    simp
  refine {
    serverId := rfl
    protocolVersion := rfl
    implementation := hexDigest_eq_ok implementation
    length := checkLength_eq_ok short
    catalog := digest
    unbound := fun aliasName unbound => ?_
    tools := fun aliasName tool bound => ?_ }
  · rw [Option.eq_none_iff_forall_ne_some]
    intro digest found
    obtain ⟨binding, mem, image⟩ := lookup.mp found
    obtain ⟨key, found⟩ := BTreeMap.mem_valueList.mp mem
    obtain ⟨named, -⟩ := bindingDigest_eq_ok image
    rw [discover_named discovered found] at named
    rw [named, discover_unbound discovered unbound] at found
    cases found
  · obtain ⟨declaration, binding, found, named, boundTo⟩ := discover_bound discovered bound
    have mem := BTreeMap.mem_valueList.mpr ⟨aliasName, found⟩
    obtain ⟨⟨aliasName', digest⟩, -, image⟩ := exists_mem_of_forall₂ (forall₂_of_mapM digests) mem
    obtain ⟨named', same⟩ := bindingDigest_eq_ok image
    rw [named] at named'
    subst named'
    exact ⟨declaration, digest, binding, lookup.mpr ⟨binding, mem, image⟩, same.symm, boundTo⟩

theorem Summarizes.isSome (summary : discovery.Summarizes libraries config trust snapshot)
    (aliasName : ToolName) :
    (snapshot.bindingDigests[aliasName]?).isSome =
      (bound config discovery.pages aliasName).isSome := by
  cases bind : bound config discovery.pages aliasName with
  | none =>
    rw [summary.unbound aliasName bind]
    rfl
  | some tool =>
    obtain ⟨_, digest, _, found, -⟩ := summary.tools aliasName tool bind
    rw [found]
    rfl

variable {tool tool' : Tool} {declaration : McpToolDeclaration} {other : Discovery}
  {snapshot' : McpServerSnapshot}

theorem bound_mem_enabledTools (bound : bound config discovery.pages aliasName = some tool)
    (declared : config.declaration tool.name = some declaration) :
    (aliasName, declaration, tool) ∈ discovery.enabledTools config := by
  have enabled := find?_some bound
  rw [beq_iff_eq] at enabled
  refine mem_filterMap.mpr ⟨tool, mem_of_find?_eq_some bound, ?_⟩
  rw [enabled, declared]

theorem digest_eq_iff {values : List Value} {inputs : List (List UInt8)}
    {declaration' : McpToolDeclaration}
    {binding binding' : McpToolBinding} (prints : libraries.Prints values)
    (separates : libraries.Separates inputs)
    (boundTo : BoundTo libraries config trust aliasName tool declaration binding)
    (boundTo' : BoundTo libraries config trust aliasName tool' declaration' binding')
    (mem : tool.toValue.sortKeys ∈ values) (mem' : tool'.toValue.sortKeys ∈ values)
    (input : toolPreimage libraries config trust aliasName declaration tool.toToolFields ∈ inputs)
    (input' : toolPreimage libraries config trust aliasName declaration' tool'.toToolFields ∈ inputs) :
    binding.spec.source.descriptorDigest = binding'.spec.source.descriptorDigest ↔
      tool.toValue.jsonEq tool'.toValue = true := by
  rw [boundTo.digest, boundTo'.digest, separates.hexText_eq_iff input input',
    ← prints.canonicalText_eq_iff mem mem' tool.distinct tool'.distinct]
  constructor
  · intro same
    exact (descriptorPreimage_inj boundTo.length boundTo'.length boundTo.hostLength
      boundTo'.hostLength same).1
  · intro same
    have equal := (prints.canonicalText_eq_iff mem mem' tool.distinct tool'.distinct).mp same
    have name := ToolFields.name_eq_of_jsonEq equal
    have declared := boundTo.enabled
    rw [name, boundTo'.enabled] at declared
    cases declared
    rw [toolPreimage, toolPreimage, same, name]

variable (prints : libraries.Prints (discovery.printed config ++ other.printed config))
  (separates : libraries.Separates
    (discovery.hashed libraries config trust ++ other.hashed libraries config trust))

include prints separates

theorem getElem?_bindingDigests_eq_iff
    (summary : discovery.Summarizes libraries config trust snapshot)
    (summary' : other.Summarizes libraries config trust snapshot')
    (first : bound config discovery.pages aliasName = some tool)
    (second : bound config other.pages aliasName = some tool') :
    snapshot.bindingDigests[aliasName]? = snapshot'.bindingDigests[aliasName]? ↔
      tool.toValue.jsonEq tool'.toValue = true := by
  obtain ⟨declaration, digest, binding, found, text, boundTo⟩ := summary.tools aliasName tool first
  obtain ⟨declaration', digest', binding', found', text', boundTo'⟩ :=
    summary'.tools aliasName tool' second
  have mem := bound_mem_enabledTools first boundTo.enabled
  have mem' := bound_mem_enabledTools second boundTo'.enabled
  rw [found, found', Option.some_inj, McpDescriptorDigest.ext_iff, text, text']
  refine digest_eq_iff prints separates boundTo boundTo' ?_ ?_ ?_ ?_
  · exact mem_append_left _ (mem_cons_of_mem _ (mem_map.mpr ⟨_, mem, rfl⟩))
  · exact mem_append_right _ (mem_cons_of_mem _ (mem_map.mpr ⟨_, mem', rfl⟩))
  · exact mem_append_left _ (mem_cons_of_mem _ (mem_map.mpr ⟨_, mem, rfl⟩))
  · exact mem_append_right _ (mem_cons_of_mem _ (mem_map.mpr ⟨_, mem', rfl⟩))

theorem implementationDigest_eq_iff (summary : discovery.Summarizes libraries config trust snapshot)
    (summary' : other.Summarizes libraries config trust snapshot') :
    snapshot.implementationDigest = snapshot'.implementationDigest ↔
      discovery.implementation.jsonEq other.implementation = true := by
  rw [McpDescriptorDigest.ext_iff, summary.implementation, summary'.implementation,
    separates.hexText_eq_iff (mem_append_left _ mem_cons_self)
      (mem_append_right _ mem_cons_self),
    ← prints.canonicalText_eq_iff (mem_append_left _ mem_cons_self)
      (mem_append_right _ mem_cons_self) discovery.distinct other.distinct]
  constructor
  · exact valuePreimage_inj summary.length summary'.length
  · intro same
    rw [same]

/-- The snapshots of two discoveries are equal exactly if the discoveries agree. -/
theorem snapshot_eq_iff (ok : discovery.snapshot libraries config trust = .ok snapshot)
    (ok' : other.snapshot libraries config trust = .ok snapshot') :
    snapshot = snapshot' ↔ discovery.Agrees config other := by
  have summary := summarizes ok
  have summary' := summarizes ok'
  have implementation := implementationDigest_eq_iff prints separates summary summary'
  constructor
  · rintro rfl
    exact {
      protocolVersion := summary.protocolVersion.symm.trans summary'.protocolVersion
      implementation := implementation.mp rfl
      aliases := fun aliasName => (summary.isSome aliasName).symm.trans (summary'.isSome aliasName)
      tools := fun aliasName tool tool' first second =>
        (getElem?_bindingDigests_eq_iff prints separates summary summary' first second).mp rfl }
  · intro agrees
    have digests : snapshot.bindingDigests = snapshot'.bindingDigests := by
      refine Std.ExtTreeMap.ext_getElem? fun aliasName => ?_
      have aliases := agrees.aliases aliasName
      cases first : bound config discovery.pages aliasName with
      | none =>
        rw [first] at aliases
        rw [summary.unbound aliasName first,
          summary'.unbound aliasName (Option.isNone_iff_eq_none.mp (by simpa using aliases.symm))]
      | some tool =>
        rw [first] at aliases
        obtain ⟨tool', second⟩ := Option.isSome_iff_exists.mp aliases.symm
        exact (getElem?_bindingDigests_eq_iff prints separates summary summary' first second).mpr
          (agrees.tools aliasName tool tool' first second)
    have catalogs := summary.catalog
    rw [digests, summary'.catalog] at catalogs
    have versions : snapshot.protocolVersion = snapshot'.protocolVersion := by
      rw [summary.protocolVersion, summary'.protocolVersion, agrees.protocolVersion]
    have servers : snapshot.serverId = snapshot'.serverId := by
      rw [summary.serverId, summary'.serverId]
    have implementations := implementation.mpr agrees.implementation
    cases snapshot
    cases snapshot'
    cases catalogs
    cases digests
    cases versions
    cases servers
    cases implementations
    rfl

end Discovery

/-! ### Connections -/

namespace System

/-- A reconnect judges its candidate by the snapshot of its discovery: the candidate is unchanged if
the snapshot is the frozen one. -/
def Judges (snapshot : ClientId → Except McpErrorCode McpServerSnapshot)
    (frozen : McpServerSnapshot) (s : System) : Action → Prop
  | .reconnect call answer => ∀ attempt unchanged, s.calls call = .starting attempt →
    answer.startup = .succeeded unchanged →
      ∃ candidate, snapshot s.fresh = .ok candidate ∧ (unchanged = true ↔ candidate = frozen)
  | _ => True

/-- Every connection that was put into the slot, or is about to be, has a property. -/
structure Keeps (P : ClientId → Prop) (s : System) : Prop where
  installed : ∀ client ∈ s.installed, P client
  started : ∀ call attempt candidate, s.calls call = .started attempt (.ok candidate) →
    candidate.unchanged = true → P candidate.client
  completing : ∀ call attempt client, s.calls call = .completing attempt client → P client

/-- Where a step of a reconnect leads, as far as candidates and connections are concerned. -/
structure Leads (s : System) (call : Nat) (answer : Answer) (t : System) (phase : ReconnectPhase) :
    Prop where
  calls : t.calls = Function.update s.calls call phase
  installed : t.installed = s.installed ∨
    ∃ attempt client, s.calls call = .completing attempt client ∧
      t.installed = client :: s.installed
  started : ∀ attempt candidate, phase = .started attempt (.ok candidate) →
    s.calls call = .starting attempt ∧ answer.startup = .succeeded candidate.unchanged ∧
      candidate.client = s.fresh
  completing : ∀ attempt client, phase = .completing attempt client →
    s.calls call = .started attempt (.ok ⟨client, true⟩)

variable {settings : RestartSettings} {s t : System}

theorem exists_leads {call : Nat} {answer : Answer}
    (step : s.callStep settings call answer = some t) : ∃ phase, s.Leads call answer t phase := by
  -- Most steps lead to a phase without a candidate and leave the connections as they are.
  have quiet {phase : ReconnectPhase} (calls : t.calls = Function.update s.calls call phase)
      (installed : t.installed = s.installed)
      (started : ∀ attempt candidate, phase ≠ .started attempt (.ok candidate))
      (completing : ∀ attempt client, phase ≠ .completing attempt client) :
      ∃ phase, s.Leads call answer t phase :=
    ⟨phase, calls, .inl installed, fun attempt candidate h => absurd h (started attempt candidate),
      fun attempt client h => absurd h (completing attempt client)⟩
  rw [callStep] at step
  cases before : s.calls call with
  | starting attempt =>
    rw [before] at step
    dsimp only at step
    split at step <;> rename_i startup <;> cases step
    · exact quiet rfl rfl (by simp) (by simp)
    · exact quiet rfl rfl (by simp) (by simp)
    · refine ⟨_, rfl, .inl rfl, ?_, by simp⟩
      rintro _ _ ⟨⟩
      exact ⟨before, startup, rfl⟩
  | started attempt result =>
    rw [before] at step
    cases result with
    | error code =>
      cases step
      exact quiet rfl rfl (by intros; split_ifs <;> simp) (by intros; split_ifs <;> simp)
    | ok candidate =>
      cases step
      refine ⟨_, rfl, .inl rfl, by intro _ _; split_ifs <;> simp, ?_⟩
      intro attempt' client next
      split_ifs at next with _ unchanged
      obtain ⟨rfl, rfl⟩ := ReconnectPhase.completing.inj next
      rw [before, ← unchanged]
  | completing attempt client =>
    rw [before] at step
    dsimp only at step
    split at step
    · cases step
      exact quiet rfl rfl (by simp) (by simp)
    · split at step <;> cases step
      · exact ⟨_, rfl, .inr ⟨attempt, client, before, rfl⟩, by simp, by simp⟩
      · exact quiet rfl rfl (by simp) (by simp)
  | dropping client next =>
    rw [before] at step
    cases step
    exact quiet rfl rfl (by cases next <;> simp) (by cases next <;> simp)
  | _ =>
    rw [before] at step
    dsimp only at step
    repeat' split at step
    all_goals
      cases step
      try exact quiet rfl rfl (by simp) (by simp)

/-- What a step keeps of the connections, if a reconnect keeps unchanged candidates only. -/
theorem Keeps.step {P : ClientId → Prop}
    {action : Action} (keeps : s.Keeps P) (step : s.step settings action = some t)
    (judged : ∀ call answer, action = .reconnect call answer → ∀ attempt,
      s.calls call = .starting attempt → answer.startup = .succeeded true → P s.fresh) :
    t.Keeps P := by
  cases action with
  | acquireCall =>
    rw [System.step] at step
    split at step <;> cases step <;> exact { keeps with }
  | dropLease index =>
    rw [System.step] at step
    split at step <;> cases step
    exact { keeps with }
  | transport client status | health =>
    cases step
    exact { keeps with }
  | shutdown =>
    rw [System.step, shutdownStep] at step
    repeat' split at step
    all_goals
      cases step
      try exact { keeps with }
  | shutdownTask timedOut =>
    rw [System.step, taskStep] at step
    repeat' split at step
    all_goals
      cases step
      try exact { keeps with }
  | reconnect call answer =>
    obtain ⟨phase, leads⟩ := exists_leads step
    have judged := judged call answer rfl
    refine ⟨?_, fun other attempt candidate here unchanged => ?_,
      fun other attempt client here => ?_⟩
    · rcases leads.installed with same | ⟨attempt, client, here, same⟩
      · rw [same]
        exact keeps.installed
      · rw [same]
        exact forall_mem_cons.mpr ⟨keeps.completing call attempt client here, keeps.installed⟩
    · rw [leads.calls] at here
      by_cases same : other = call
      · rw [same, Function.update_self] at here
        obtain ⟨starting, startup, fresh⟩ := leads.started attempt candidate here
        rw [fresh]
        exact judged attempt starting (unchanged ▸ startup)
      · rw [Function.update_of_ne same] at here
        exact keeps.started other attempt candidate here unchanged
    · rw [leads.calls] at here
      by_cases same : other = call
      · rw [same, Function.update_self] at here
        exact keeps.started call attempt ⟨client, true⟩ (leads.completing attempt client here) rfl
      · rw [Function.update_of_ne same] at here
        exact keeps.completing other attempt client here

theorem snapshot_of_lease {snapshot : ClientId → Except McpErrorCode McpServerSnapshot}
    {frozen : McpServerSnapshot} {transport : ClientId → TransportStatus} {actions : List Action}
    (initial : snapshot ⟨0⟩ = .ok frozen)
    (run : Run (fun s a t => s.step settings a = some t ∧ s.Judges snapshot frozen a)
      (ready transport) actions s) {client : ClientId} (lease : client ∈ s.leases) :
    snapshot client = .ok frozen := by
  have keeps : s.Keeps fun client => snapshot client = .ok frozen := by
    refine run.invariant ⟨by simpa [ready] using initial, nofun, nofun⟩ ?_
    rintro s action t keeps ⟨step, judges⟩
    refine keeps.step step ?_
    rintro call answer rfl attempt starting startup
    obtain ⟨candidate, found, unchanged⟩ := judges attempt true starting startup
    rw [found, unchanged.mp rfl]
  have inv : s.Inv := run.invariant (inv_ready transport) fun _ _ _ inv step => inv.step step.1
  exact keeps.installed client (mem_of_mem_head? ((inv.managed settings).latest client lease))

end System

section Example

/-- A printer and a hash that tell values and inputs apart by their lengths. -/
def lengths : Libraries where
  print value := replicate value.encodedLength 0
  sha256 bytes := Vector.replicate 32 (UInt8.ofNat bytes.length)
  compiles _ := true

/-- A server whose tools are enabled by default. -/
def exampleConfig : McpServerConfig where
  id := ⟨"local", by decide +kernel⟩
  tools := []
  defaultToolDeclaration := some ⟨[.fsRead], [], .automaticRead, 1000, fsRead_valid⟩
  maxTools := 4
  maxDescriptorBytes := 4096
  remoteNames := by simp
  limits := by decide

/-- A tool with the fields of its schema in a given order. -/
def exampleTool (swapped : Bool) : Tool where
  name := "echo"
  description := some "Echoes a text."
  inputSchema :=
    if swapped then [("required", .array [.string "text"]), ("type", .string "object")]
    else [("type", .string "object"), ("required", .array [.string "text"])]
  outputSchema := none
  execution := none
  others := []
  distinct := by
    cases swapped <;> simp [ToolFields.toValue, optionalField, Value.DistinctKeys,
      Value.DistinctKeysFields, Value.DistinctKeysItems]

/-- A discovery on one page, and one with the fields in another order on the second of two pages. -/
def exampleDiscovery (swapped : Bool) : Discovery where
  protocolVersion := "2025-06-18"
  implementation := .object [("name", .string "echo-server")]
  pages :=
    if swapped then [.ok ⟨[], some "next"⟩, .ok ⟨[exampleTool true], none⟩]
    else [.ok ⟨[exampleTool false], none⟩]
  distinct := by simp [Value.DistinctKeys, Value.DistinctKeysFields]

theorem bound_exampleDiscovery (swapped : Bool) (aliasName : ToolName) :
    bound exampleConfig (exampleDiscovery swapped).pages aliasName =
      if exampleConfig.enabledAlias "echo" = some aliasName then some (exampleTool swapped)
      else none := by
  have tools : offered (exampleDiscovery swapped).pages = [exampleTool swapped] := by
    cases swapped <;> rfl
  have name : (exampleTool swapped).name = "echo" := rfl
  rw [bound, tools, find?_singleton, name]
  simp

theorem agrees_exampleDiscovery :
    (exampleDiscovery false).Agrees exampleConfig (exampleDiscovery true) where
  protocolVersion := rfl
  implementation := by decide +kernel
  aliases aliasName := by
    rw [bound_exampleDiscovery, bound_exampleDiscovery]
    split_ifs <;> rfl
  tools aliasName tool tool' first second := by
    rw [bound_exampleDiscovery] at first second
    split_ifs at first second
    cases first
    cases second
    decide +kernel

/-- The connection is lost, a reconnect replaces it, and a call is made. -/
def exampleActions : List Action :=
  [.transport ⟨0⟩ ⟨some .serverExit, false⟩] ++
    replicate 14 (.reconnect 0 ⟨.succeeded true, none⟩) ++ [.acquireCall]

end Example

end TeaRs.Mcp
