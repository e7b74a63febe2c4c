import TeaRs.Lib.TreeMap
import TeaRs.Mcp.Digest
import TeaRs.Tools.Registry

/-!
# Frozen catalogs of MCP tools

Discovery reads the tools of a server page by page, checks each of them and freezes those that the
host enables under their local aliases (`tea-mcp/src/catalog.rs`, `tea-mcp/src/descriptor.rs`). Every
binding carries the digest of its descriptor and of the host's policy for it.

## Main definitions

* `McpServerConfig`, with `McpServerConfig.enabledAlias`: the alias under which a tool is frozen.
* `Tool`, `Tool.toValue`: a tool of the SDK and its JSON.
* `McpRemoteToolDescriptor.fromSdkTool`, `McpToolCatalog.freeze`, `discover`.
* `offered`, `bound`: the tools that a discovery reads, and the one that it binds to an alias.

## Main results

* `Freeze.getElem?_eq_some_iff`: what a freeze binds.
* `discover_bound`, `discover_unbound`: a discovery binds an alias to the tool that it offers under
  it, and no other alias.
-/

namespace TeaRs.Mcp

open StateError

/-! ### Configuration -/

/-- `McpServerId`. -/
structure McpServerId where
  asStr : String
  valid : (decide (asStr.utf8ByteSize ≤ 64) && isCanonicalWord (fun c => isAsciiLowercase c ||
    isAsciiDigit c || c == '.' || c == '-' || c == '_') asStr) = true
  deriving DecidableEq

/-- `McpArgumentResource`. -/
structure McpArgumentResource where
  argument : String
  scheme : String
  access : ToolResourceAccess
  valid : (!argument.isEmpty && decide (argument.utf8ByteSize ≤ 128) &&
    argument.toList.all (fun c => isAsciiLowercase c || isAsciiDigit c || c == '_') &&
    isScheme scheme) = true
  deriving DecidableEq

/-- `McpToolDeclaration`, with the timeout of its execution semantics. -/
@[ext] structure McpToolDeclaration where
  effects : List ToolEffect
  resources : List McpArgumentResource
  execution : ToolExecutionSemantics
  timeoutMillis : Nat
  effects_valid : effects.Pairwise (fun a b => compare a b = .lt) ∧ effects ≠ [] ∧
    effects.length ≤ 64

instance : DecidableEq McpToolDeclaration := fun a b =>
  decidable_of_iff (a.effects = b.effects ∧ a.resources = b.resources ∧
    a.execution = b.execution ∧ a.timeoutMillis = b.timeoutMillis) McpToolDeclaration.ext_iff.symm

/-- `McpToolPolicy`. -/
structure McpToolPolicy where
  remoteName : String
  aliasName : Option ToolName
  declaration : Option McpToolDeclaration
  deriving DecidableEq

/-- `McpServerConfig`, as far as a discovery reads it. -/
structure McpServerConfig where
  id : McpServerId
  tools : List McpToolPolicy
  defaultToolDeclaration : Option McpToolDeclaration
  maxTools : Nat
  maxDescriptorBytes : Nat
  remoteNames : (tools.map McpToolPolicy.remoteName).Nodup
  limits : maxTools ≤ 256 ∧ maxDescriptorBytes ≤ maxMcpDescriptorBytes

namespace McpServerConfig

/-- The default alias of a remote tool. -/
def defaultAlias (config : McpServerConfig) (remoteName : String) : Option ToolName :=
  ToolName.ofString ("mcp." ++ config.id.asStr ++ "." ++ remoteName)

/-- The policy for a remote name. -/
def policy (config : McpServerConfig) (remoteName : String) : Option McpToolPolicy :=
  config.tools.find? fun policy => policy.remoteName == remoteName

/-- The declaration for a remote name: that of its policy, or the fallback if it has no policy. -/
def declaration (config : McpServerConfig) (remoteName : String) : Option McpToolDeclaration :=
  match config.policy remoteName with
  | some policy => policy.declaration
  | none => config.defaultToolDeclaration

/-- The local alias for a remote name. -/
def resolvedAlias (config : McpServerConfig) (remoteName : String) : Option ToolName :=
  -- `resolved_alias` falls back to the default alias, and so does the caller.
  ((config.policy remoteName).bind fun policy =>
    policy.aliasName <|> config.defaultAlias policy.remoteName) <|> config.defaultAlias remoteName

/-- The alias under which a tool is frozen, if the host enables it. -/
def enabledAlias (config : McpServerConfig) (remoteName : String) : Option ToolName :=
  (config.declaration remoteName).bind fun _ => config.resolvedAlias remoteName

end McpServerConfig

/-! ### Descriptors -/

/-- `TaskSupport`. -/
inductive TaskSupport where
  | forbidden | optional | required
  deriving DecidableEq, Repr

/-- The JSON form of a task support. -/
def TaskSupport.asStr : TaskSupport → String
  | forbidden => "forbidden"
  | optional => "optional"
  | required => "required"

/-- The fields of a tool of the SDK: those that the crate reads, and the others in JSON. -/
structure ToolFields where
  name : String
  description : Option String
  inputSchema : List (String × Value)
  outputSchema : Option (List (String × Value))
  /-- `execution` with its `task_support`. -/
  execution : Option (Option TaskSupport)
  others : List (String × Value)

/-- A field of an object that is left out if it has no value. -/
def optionalField (key : String) (value : Option Value) : List (String × Value) :=
  (value.map (key, ·)).toList

/-- `serde_json::to_value` of a tool. -/
def ToolFields.toValue (tool : ToolFields) : Value :=
  .object (
    [("name", .string tool.name), ("inputSchema", .object tool.inputSchema)] ++
    optionalField "description" (tool.description.map .string) ++
    optionalField "outputSchema" (tool.outputSchema.map .object) ++
    optionalField "execution" (tool.execution.map fun support =>
      .object (optionalField "taskSupport" (support.map fun support => .string support.asStr))) ++
    tool.others)

/-- `Tool` of the SDK. No object of it has two fields of the same key. -/
structure Tool extends ToolFields where
  distinct : toToolFields.toValue.DistinctKeys

theorem ToolFields.name_eq_of_jsonEq {tool other : ToolFields}
    (equal : tool.toValue.jsonEq other.toValue = true) : tool.name = other.name := by
  rw [toValue, toValue, Value.jsonEq, Bool.and_eq_true, Value.jsonEqFields_iff] at equal
  obtain ⟨value, lookup, same⟩ := equal.2 ("name", .string tool.name) (by simp)
  have name : value = .string other.name := by simpa using lookup.symm
  rw [name] at same
  simpa [Value.jsonEq] using same

/-- The check of `McpRemoteToolName::new`. -/
def isRemoteToolName (value : String) : Bool :=
  !value.isEmpty && decide (value.utf8ByteSize ≤ 128) && !value.toList.any isControl

/-- `validate_object_schema`. -/
def validateObjectSchema (libraries : Libraries) (schema : Value) : Except McpErrorCode Unit :=
  if schema.getStr? "type" = some "object" ∧ libraries.compiles schema then .ok ()
  else .error .schema

/-- `default_output_schema`. -/
def defaultOutputSchema : Value := .object [("type", .string "object")]

/-- `McpRemoteToolDescriptor`. -/
structure McpRemoteToolDescriptor where
  name : String
  description : String
  inputSchema : Value
  outputSchema : Value
  annotations : Option Value
  canonicalJson : List UInt8

/-- `McpRemoteToolDescriptor::from_sdk_tool`. -/
def McpRemoteToolDescriptor.fromSdkTool (libraries : Libraries) (tool : ToolFields)
    (maximumBytes : Nat) : Except McpErrorCode McpRemoteToolDescriptor :=
  if tool.execution = some (some .required) then .error .descriptor
  else if !isRemoteToolName tool.name then .error .descriptor
  else
    match tool.description.filter (isBoundedText (16 * 1024)) with
    | none => .error .descriptor
    | some description => do
      let inputSchema ← canonicalize 1 (.object tool.inputSchema)
      let outputSchema ← tool.outputSchema.elim (.ok defaultOutputSchema) fun schema =>
        canonicalize 1 (.object schema)
      validateObjectSchema libraries inputSchema
      validateObjectSchema libraries outputSchema
      let canonical ← canonicalize 1 tool.toValue
      if maximumBytes < (libraries.print canonical).length then .error .outputBound
      else
        return ⟨tool.name, description, inputSchema, outputSchema, canonical.get? "annotations",
          libraries.print canonical⟩

theorem McpRemoteToolDescriptor.of_fromSdkTool {libraries : Libraries} {tool : ToolFields}
    {maximumBytes : Nat} {descriptor : McpRemoteToolDescriptor}
    (ok : fromSdkTool libraries tool maximumBytes = .ok descriptor) :
    descriptor.name = tool.name ∧
      descriptor.canonicalJson = libraries.canonicalText tool.toValue := by
  rw [fromSdkTool] at ok
  split_ifs at ok
  split at ok
  · cases ok
  obtain ⟨inputSchema, -, ok⟩ := except_bind_eq_ok.mp ok
  obtain ⟨outputSchema, -, ok⟩ := except_bind_eq_ok.mp ok
  obtain ⟨_, -, ok⟩ := except_bind_eq_ok.mp ok
  obtain ⟨_, -, ok⟩ := except_bind_eq_ok.mp ok
  obtain ⟨canonical, last, ok⟩ := except_bind_eq_ok.mp ok
  split_ifs at ok
  cases ok
  rw [canonicalize_eq_ok last]
  exact ⟨rfl, rfl⟩

/-! ### Bindings -/

/-- The JSON form of a retry safety in the host's policy. -/
def retryText : ToolRetrySafety → String
  | .never => "never"
  | .explicitOnly => "explicit_only"
  | .automatic => "automatic"

/-- The JSON form of a concurrency in the host's policy. -/
def concurrencyText : ToolConcurrency → String
  | .parallel => "parallel"
  | .serial => "serial"
  | .exclusive => "exclusive"

/-- The JSON form of an idempotency. -/
def idempotencyText : ToolIdempotency → String
  | .idempotent => "idempotent"
  | .nonIdempotent => "non_idempotent"
  | .externallyReconciled => "externally_reconciled"

/-- The JSON form of an access. -/
def accessText : ToolResourceAccess → String
  | .read => "read"
  | .write => "write"
  | .delete => "delete"
  | .execute => "execute"
  | .unknown => "unknown"

/-- The JSON form of a trust class. -/
def trustText : ToolTrust → String
  | .product => "product"
  | .user => "user"
  | .workspace => "workspace"
  | .untrusted => "untrusted"

/-- The value that `host_policy_json` prints. -/
def hostPolicy (config : McpServerConfig) (remoteName : String) (aliasName : ToolName)
    (trust : ToolTrust) (declaration : McpToolDeclaration) : Value :=
  .object [
    ("alias", .string aliasName.asStr),
    ("effects", .array (declaration.effects.map fun effect => .string effect.asStr)),
    ("executeResource", .string ("mcp-server://" ++ config.id.asStr ++ "/" ++ remoteName)),
    ("execution", .object [
      ("concurrency", .string (concurrencyText declaration.execution.concurrency)),
      ("idempotency", .string (idempotencyText declaration.execution.idempotency)),
      ("retrySafety", .string (retryText declaration.execution.retrySafety)),
      ("timeoutMillis", .ofNat declaration.timeoutMillis)]),
    ("resources", .array (declaration.resources.map fun resource => .object [
      ("access", .string (accessText resource.access)),
      ("argument", .string resource.argument),
      ("scheme", .string resource.scheme)])),
    ("serverId", .string config.id.asStr),
    ("trust", .string (trustText trust))]

/-- `host_policy_json`. -/
def hostPolicyJson (libraries : Libraries) (config : McpServerConfig) (remoteName : String)
    (aliasName : ToolName) (trust : ToolTrust) (declaration : McpToolDeclaration) :
    Except McpErrorCode (List UInt8) :=
  canonicalJson libraries (hostPolicy config remoteName aliasName trust declaration)
    config.maxDescriptorBytes

/-- `McpToolBinding`, with the resources its resolver was made of. -/
structure McpToolBinding where
  serverId : McpServerId
  remoteName : String
  spec : ToolSpec
  execute : ToolResource
  arguments : List McpArgumentResource
  remoteAnnotations : Option Value

/-- `validate_object_schema` of the tools crate. -/
def isToolSchema (libraries : Libraries) (schema : Value) : Bool :=
  schema.getStr? "type" == some "object" &&
    decide ((libraries.print schema).length ≤ 256 * 1024) && decide (schema.presentedDepth ≤ 32)

/-- The source of a tool of a server. -/
def toolSource (config : McpServerConfig) (trust : ToolTrust) (digest : McpDescriptorDigest) :
    Except McpErrorCode ToolSource :=
  if h : isToolSource ("mcp." ++ config.id.asStr) digest.asStr = true then
    .ok ⟨.mcp, "mcp." ++ config.id.asStr, trust, digest.asStr, h⟩
  else .error .descriptor

/-- The binding of a descriptor that the host enables, a turn of the loop in
`McpToolCatalog::freeze`. -/
def bindDescriptor (libraries : Libraries) (config : McpServerConfig) (trust : ToolTrust)
    (descriptor : McpRemoteToolDescriptor) (declaration : McpToolDeclaration) :
    Except McpErrorCode McpToolBinding :=
  match config.resolvedAlias descriptor.name with
  | none => .error .policyDeclaration
  | some aliasName => do
    let hostPolicy ← hostPolicyJson libraries config descriptor.name aliasName trust declaration
    let digest ← hashDescriptor libraries descriptor.canonicalJson hostPolicy
    let source ← toolSource config trust digest
    if !(isBoundedText (16 * 1024) descriptor.description &&
        isToolSchema libraries descriptor.inputSchema &&
        isToolSchema libraries descriptor.outputSchema) then .error .descriptor
    else
      let execute ← (ToolResource.new "mcp-server" (config.id.asStr ++ "/" ++ descriptor.name)
        .execute).mapError fun _ => .policyDeclaration
      return {
        serverId := config.id
        remoteName := descriptor.name
        spec := {
          name := aliasName
          version := ⟨"0.0.0+mcp." ++ String.ofList (digest.asStr.toList.take 16)⟩
          inputSchema := descriptor.inputSchema
          outputSchema := descriptor.outputSchema
          effects := declaration.effects
          source
          execution := declaration.execution
          effects_valid := declaration.effects_valid }
        execute
        arguments := declaration.resources
        remoteAnnotations := descriptor.annotations }

/-- `McpToolCatalog`. -/
structure McpToolCatalog where
  bindings : BTreeMap ToolName McpToolBinding

/-- What a freeze has seen and bound so far. -/
structure Freeze where
  remoteNames : List String
  bindings : BTreeMap ToolName McpToolBinding

/-- A turn of the loop in `McpToolCatalog::freeze`. -/
def Freeze.step (libraries : Libraries) (config : McpServerConfig) (trust : ToolTrust)
    (state : Freeze) (descriptor : McpRemoteToolDescriptor) : Except McpErrorCode Freeze :=
  if config.maxTools ≤ state.remoteNames.length ∨
      config.maxDescriptorBytes < descriptor.canonicalJson.length then .error .outputBound
  else if descriptor.name ∈ state.remoteNames then .error .descriptor
  else
    match config.declaration descriptor.name with
    | none => .ok { state with remoteNames := descriptor.name :: state.remoteNames }
    | some declaration => do
      let binding ← bindDescriptor libraries config trust descriptor declaration
      if binding.spec.name ∈ state.bindings then .error .descriptor
      else
        return {
          remoteNames := descriptor.name :: state.remoteNames
          bindings := state.bindings.insert binding.spec.name binding }

/-- `McpToolCatalog::freeze`. -/
def McpToolCatalog.freeze (libraries : Libraries) (config : McpServerConfig) (trust : ToolTrust)
    (descriptors : List McpRemoteToolDescriptor) : Except McpErrorCode McpToolCatalog := do
  let state ← descriptors.foldlM (Freeze.step libraries config trust) ⟨[], ∅⟩
  return ⟨state.bindings⟩

/-! ### What a freeze binds -/

variable {libraries : Libraries} {config : McpServerConfig} {trust : ToolTrust}
  {binding : McpToolBinding} {descriptors : List McpRemoteToolDescriptor}

section Freeze

/-- The bytes that are hashed for a tool under an alias. -/
def toolPreimage (libraries : Libraries) (config : McpServerConfig) (trust : ToolTrust)
    (aliasName : ToolName) (declaration : McpToolDeclaration) (tool : ToolFields) : List UInt8 :=
  descriptorPreimage (libraries.canonicalText tool.toValue)
    (libraries.canonicalText (hostPolicy config tool.name aliasName trust declaration))

variable {descriptor : McpRemoteToolDescriptor} {state state' : Freeze}

theorem of_bindDescriptor {declaration : McpToolDeclaration}
    (ok : bindDescriptor libraries config trust descriptor declaration = .ok binding) :
    ∃ hostPolicyText,
      binding.remoteName = descriptor.name ∧
      config.resolvedAlias descriptor.name = some binding.spec.name ∧
      hostPolicyJson libraries config descriptor.name binding.spec.name trust declaration =
        .ok hostPolicyText ∧
      binding.spec.source.descriptorDigest = hexText (libraries.sha256
        (descriptorPreimage descriptor.canonicalJson hostPolicyText)).toList := by
  rw [bindDescriptor] at ok
  split at ok
  · cases ok
  rename_i aliasName resolved
  obtain ⟨hostPolicyText, host, ok⟩ := except_bind_eq_ok.mp ok
  obtain ⟨digest, hashed, ok⟩ := except_bind_eq_ok.mp ok
  obtain ⟨source, sourced, ok⟩ := except_bind_eq_ok.mp ok
  split_ifs at ok
  obtain ⟨execute, -, ok⟩ := except_bind_eq_ok.mp ok
  cases ok
  refine ⟨hostPolicyText, rfl, resolved, host, ?_⟩
  obtain ⟨_, -, hashed⟩ := except_bind_eq_ok.mp hashed
  obtain ⟨_, -, hashed⟩ := except_bind_eq_ok.mp hashed
  rw [toolSource] at sourced
  split_ifs at sourced
  cases sourced
  exact hexDigest_eq_ok hashed

/-- A freeze of the descriptors binds an alias. -/
def Binds (libraries : Libraries) (config : McpServerConfig) (trust : ToolTrust)
    (descriptor : McpRemoteToolDescriptor) (binding : McpToolBinding) : Prop :=
  ∃ declaration, config.declaration descriptor.name = some declaration ∧
    bindDescriptor libraries config trust descriptor declaration = .ok binding

theorem Freeze.of_step (ok : state.step libraries config trust descriptor = .ok state') :
    descriptor.canonicalJson.length ≤ config.maxDescriptorBytes ∧
      (config.declaration descriptor.name = none ∧ state'.bindings = state.bindings ∨
        ∃ binding, Binds libraries config trust descriptor binding ∧
          binding.spec.name ∉ state.bindings ∧
          state'.bindings = state.bindings.insert binding.spec.name binding) := by
  rw [Freeze.step] at ok
  split_ifs at ok with bounds seen
  refine ⟨not_lt.mp fun long => bounds (.inr long), ?_⟩
  split at ok
  · rename_i disabled
    cases ok
    exact .inl ⟨disabled, rfl⟩
  · rename_i declaration enabled
    obtain ⟨binding, bind, ok⟩ := except_bind_eq_ok.mp ok
    split_ifs at ok with taken
    cases ok
    exact .inr ⟨binding, ⟨declaration, enabled, bind⟩, taken, rfl⟩

/-- What a freeze binds: what was bound before, and the enabled descriptors under their aliases. -/
theorem Freeze.getElem?_eq_some_iff
    (ok : descriptors.foldlM (Freeze.step libraries config trust) state = .ok state')
    {aliasName : ToolName} :
    state'.bindings[aliasName]? = some binding ↔ state.bindings[aliasName]? = some binding ∨
      binding.spec.name = aliasName ∧
        ∃ descriptor ∈ descriptors, Binds libraries config trust descriptor binding := by
  induction descriptors generalizing state with
  | nil =>
    cases ok
    simp
  | cons descriptor descriptors ih =>
    rw [List.foldlM_cons] at ok
    obtain ⟨next, first, ok⟩ := except_bind_eq_ok.mp ok
    rw [ih ok, List.exists_mem_cons_iff]
    obtain ⟨-, ⟨disabled, same⟩ | ⟨other, binds, new, same⟩⟩ := Freeze.of_step first
    · have unbound : ¬Binds libraries config trust descriptor binding := by
        rintro ⟨declaration, enabled, -⟩
        rw [disabled] at enabled
        cases enabled
      simp [same, unbound]
    · have unique (h : Binds libraries config trust descriptor binding) : binding = other := by
        obtain ⟨declaration, enabled, bind⟩ := h
        obtain ⟨declaration', enabled', bind'⟩ := binds
        cases enabled.symm.trans enabled'
        cases bind.symm.trans bind'
        rfl
      rw [same, BTreeMap.getElem?_insert_eq]
      constructor
      · rintro (found | ⟨named, rest⟩)
        · split_ifs at found with here
          · cases found
            exact .inr ⟨here.symm, .inl binds⟩
          · exact .inl found
        · exact .inr ⟨named, .inr rest⟩
      · rintro (found | ⟨named, binds | rest⟩)
        · refine .inl ?_
          rw [if_neg]
          · exact found
          · rintro rfl
            exact new (BTreeMap.mem_of_getElem? found)
        · cases unique binds
          rw [if_pos named.symm]
          exact .inl rfl
        · exact .inr ⟨named, rest⟩

theorem Freeze.forall_of_foldlM
    (ok : descriptors.foldlM (Freeze.step libraries config trust) state = .ok state') :
    ∀ descriptor ∈ descriptors, descriptor.canonicalJson.length ≤ config.maxDescriptorBytes ∧
      (config.declaration descriptor.name = none ∨
        ∃ binding, Binds libraries config trust descriptor binding) := by
  induction descriptors generalizing state with
  | nil => simp
  | cons descriptor descriptors ih =>
    rw [List.foldlM_cons] at ok
    obtain ⟨next, first, ok⟩ := except_bind_eq_ok.mp ok
    refine List.forall_mem_cons.mpr ⟨?_, ih ok⟩
    obtain ⟨short, ⟨disabled, -⟩ | ⟨binding, binds, -⟩⟩ := Freeze.of_step first
    · exact ⟨short, .inl disabled⟩
    · exact ⟨short, .inr ⟨binding, binds⟩⟩

end Freeze

/-! ### Discovery -/

/-- `ListToolsResult`. -/
structure ToolsPage where
  tools : List Tool
  nextCursor : Option String

/-- The tools of a page are checked and added. -/
def addTools (libraries : Libraries) (config : McpServerConfig) :
    List McpRemoteToolDescriptor → List Tool → Except McpErrorCode (List McpRemoteToolDescriptor)
  | descriptors, [] => .ok descriptors
  | descriptors, tool :: tools =>
    if config.maxTools ≤ descriptors.length then .error .outputBound
    else do
      let descriptor ← McpRemoteToolDescriptor.fromSdkTool libraries tool.toToolFields
        config.maxDescriptorBytes
      addTools libraries config (descriptors ++ [descriptor]) tools

/-- The loop of `discover` over the pages that the server answers with; no answer is a timeout. -/
def discoverFrom (libraries : Libraries) (config : McpServerConfig) (trust : ToolTrust) :
    (requests : Nat) → List McpRemoteToolDescriptor → (cursors : List String) →
      List (Except McpErrorCode ToolsPage) → Except McpErrorCode McpToolCatalog
  | 0, _, _, _ => .error .outputBound
  | _ + 1, _, _, [] => .error .timeout
  | _ + 1, _, _, .error code :: _ => .error code
  | requests + 1, descriptors, cursors, .ok page :: pages => do
    let descriptors ← addTools libraries config descriptors page.tools
    match page.nextCursor with
    | none => McpToolCatalog.freeze libraries config trust descriptors
    | some cursor =>
      if cursor.isEmpty || decide (4 * 1024 < cursor.utf8ByteSize) || cursors.contains cursor then
        .error .descriptor
      else discoverFrom libraries config trust requests descriptors (cursor :: cursors) pages

/-- `discover`. -/
def discover (libraries : Libraries) (config : McpServerConfig) (trust : ToolTrust)
    (pages : List (Except McpErrorCode ToolsPage)) : Except McpErrorCode McpToolCatalog :=
  discoverFrom libraries config trust (config.maxTools + 1) [] [] pages

/-- The tools on the pages up to the first one without a cursor. -/
def offered : List (Except McpErrorCode ToolsPage) → List Tool
  | [] => []
  | .error _ :: _ => []
  | .ok page :: pages =>
    page.tools ++ if page.nextCursor = none then [] else offered pages

/-- The tool that is bound to an alias. -/
def bound (config : McpServerConfig) (pages : List (Except McpErrorCode ToolsPage))
    (aliasName : ToolName) : Option Tool :=
  (offered pages).find? fun tool => config.enabledAlias tool.name == some aliasName

theorem exists_mem_of_forall₂ {α β : Type} {R : α → β → Prop} {as : List α} {bs : List β}
    (related : List.Forall₂ R as bs) {a : α} (mem : a ∈ as) : ∃ b ∈ bs, R a b := by
  induction related with
  | nil => cases mem
  | cons first _ ih =>
    rcases List.mem_cons.mp mem with rfl | mem
    · exact ⟨_, List.mem_cons_self, first⟩
    · obtain ⟨b, mem, rel⟩ := ih mem
      exact ⟨b, List.mem_cons_of_mem _ mem, rel⟩

section Discovery

/-- The descriptor of a tool. -/
def Describes (libraries : Libraries) (tool : Tool) (descriptor : McpRemoteToolDescriptor) : Prop :=
  descriptor.name = tool.name ∧ descriptor.canonicalJson = libraries.canonicalText tool.toValue

variable {tool : Tool} {aliasName : ToolName}

theorem addTools_eq_ok {descriptors' : List McpRemoteToolDescriptor} {tools : List Tool}
    (ok : addTools libraries config descriptors tools = .ok descriptors') :
    ∃ added, descriptors' = descriptors ++ added ∧
      List.Forall₂ (Describes libraries) tools added := by
  induction tools generalizing descriptors with
  | nil =>
    cases ok
    exact ⟨[], by simp, .nil⟩
  | cons tool tools ih =>
    rw [addTools] at ok
    split_ifs at ok
    obtain ⟨descriptor, first, ok⟩ := except_bind_eq_ok.mp ok
    obtain ⟨added, rfl, rest⟩ := ih ok
    exact ⟨descriptor :: added, by simp, .cons (McpRemoteToolDescriptor.of_fromSdkTool first) rest⟩

variable {pages : List (Except McpErrorCode ToolsPage)} {catalog : McpToolCatalog}

theorem discoverFrom_eq_ok {requests : Nat} {cursors : List String}
    (ok : discoverFrom libraries config trust requests descriptors cursors pages = .ok catalog) :
    ∃ added, McpToolCatalog.freeze libraries config trust (descriptors ++ added) = .ok catalog ∧
      List.Forall₂ (Describes libraries) (offered pages) added := by
  induction pages generalizing requests descriptors cursors with
  | nil => cases requests <;> cases ok
  | cons answer pages ih =>
    cases requests with
    | zero => cases ok
    | succ requests =>
      cases answer with
      | error code => cases ok
      | ok page =>
        obtain ⟨next, first, ok⟩ := except_bind_eq_ok.mp ok
        obtain ⟨added, rfl, describes⟩ := addTools_eq_ok first
        rw [offered]
        cases cursor : page.nextCursor with
        | none =>
          rw [cursor] at ok
          exact ⟨added, ok, by simpa using describes⟩
        | some cursor' =>
          rw [cursor] at ok
          dsimp only at ok
          split_ifs at ok
          obtain ⟨rest, frozen, describes'⟩ := ih ok
          refine ⟨added ++ rest, by rwa [← List.append_assoc], ?_⟩
          simpa using List.rel_append describes describes'

/-- The binding of an alias: the remote name and the digest of the tool, whose texts have lengths
that fit their frames. -/
structure BoundTo (libraries : Libraries) (config : McpServerConfig) (trust : ToolTrust)
    (aliasName : ToolName) (tool : Tool) (declaration : McpToolDeclaration)
    (binding : McpToolBinding) : Prop where
  enabled : config.declaration tool.name = some declaration
  remoteName : binding.remoteName = tool.name
  digest : binding.spec.source.descriptorDigest =
    hexText (libraries.sha256
      (toolPreimage libraries config trust aliasName declaration tool.toToolFields)).toList
  length : (libraries.canonicalText tool.toValue).length < 2 ^ 64
  hostLength : (libraries.canonicalText
    (hostPolicy config tool.name aliasName trust declaration)).length < 2 ^ 64

theorem boundTo_of_binds {descriptor : McpRemoteToolDescriptor}
    (describes : Describes libraries tool descriptor)
    (binds : Binds libraries config trust descriptor binding)
    (short : descriptor.canonicalJson.length ≤ config.maxDescriptorBytes) :
    ∃ declaration, BoundTo libraries config trust binding.spec.name tool declaration binding := by
  obtain ⟨declaration, enabled, bind⟩ := binds
  obtain ⟨hostPolicyText, remoteName, -, host, digest⟩ := of_bindDescriptor bind
  obtain ⟨rfl, hostShort⟩ := canonicalJson_eq_ok host
  rw [describes.1] at enabled remoteName digest hostShort
  rw [describes.2] at short digest
  have limit : config.maxDescriptorBytes < 2 ^ 64 :=
    config.limits.2.trans_lt (by decide)
  exact ⟨declaration, enabled, remoteName, digest, short.trans_lt limit, hostShort.trans_lt limit⟩

variable (ok : discover libraries config trust pages = .ok catalog)

include ok

theorem discover_eq_ok :
    ∃ descriptors, List.Forall₂ (Describes libraries) (offered pages) descriptors ∧
      (∀ descriptor ∈ descriptors, descriptor.canonicalJson.length ≤ config.maxDescriptorBytes ∧
        (config.declaration descriptor.name = none ∨
          ∃ binding, Binds libraries config trust descriptor binding)) ∧
      ∀ (aliasName : ToolName) (binding : McpToolBinding),
        catalog.bindings[aliasName]? = some binding ↔ binding.spec.name = aliasName ∧
          ∃ descriptor ∈ descriptors, Binds libraries config trust descriptor binding := by
  obtain ⟨descriptors, frozen, describes⟩ := discoverFrom_eq_ok ok
  obtain ⟨state, fold, frozen⟩ := except_bind_eq_ok.mp frozen
  cases frozen
  refine ⟨descriptors, describes, Freeze.forall_of_foldlM fold, fun aliasName binding => ?_⟩
  rw [Freeze.getElem?_eq_some_iff fold]
  simp

theorem discover_named (found : catalog.bindings[aliasName]? = some binding) :
    binding.spec.name = aliasName := by
  obtain ⟨descriptors, -, -, lookup⟩ := discover_eq_ok ok
  exact ((lookup aliasName binding).mp found).1

omit ok in
theorem enabledAlias_eq_some_iff {remoteName : String} :
    config.enabledAlias remoteName = some aliasName ↔
      (∃ declaration, config.declaration remoteName = some declaration) ∧
        config.resolvedAlias remoteName = some aliasName := by
  rw [McpServerConfig.enabledAlias]
  cases config.declaration remoteName <;> simp

/-- A discovery binds an alias to the tool that it offers under it. -/
theorem discover_bound (bind : bound config pages aliasName = some tool) :
    ∃ declaration binding, catalog.bindings[aliasName]? = some binding ∧
      binding.spec.name = aliasName ∧
      BoundTo libraries config trust aliasName tool declaration binding := by
  obtain ⟨descriptors, describes, checked, lookup⟩ := discover_eq_ok ok
  obtain ⟨descriptor, mem, described⟩ :=
    exists_mem_of_forall₂ describes (List.mem_of_find?_eq_some bind)
  have enabled := List.find?_some bind
  rw [beq_iff_eq, enabledAlias_eq_some_iff] at enabled
  obtain ⟨⟨declaration, declared⟩, resolved⟩ := enabled
  obtain ⟨short, disabled | ⟨binding, binds⟩⟩ := checked descriptor mem
  · rw [described.1, declared] at disabled
    cases disabled
  · have named : binding.spec.name = aliasName := by
      obtain ⟨_, -, bound⟩ := binds
      obtain ⟨_, -, resolved', -⟩ := of_bindDescriptor bound
      rw [described.1, resolved] at resolved'
      exact (Option.some.inj resolved').symm
    obtain ⟨declaration', boundTo⟩ := boundTo_of_binds described binds short
    exact ⟨declaration', binding, (lookup aliasName binding).mpr ⟨named, descriptor, mem, binds⟩, named,
      named ▸ boundTo⟩

/-- A discovery binds no alias under which it offers no tool. -/
theorem discover_unbound (unbound : bound config pages aliasName = none) :
    catalog.bindings[aliasName]? = none := by
  obtain ⟨descriptors, describes, -, lookup⟩ := discover_eq_ok ok
  rw [Option.eq_none_iff_forall_ne_some]
  intro binding found
  obtain ⟨named, descriptor, mem, declaration, declared, bind⟩ := (lookup aliasName binding).mp found
  obtain ⟨tool, mem', described⟩ := exists_mem_of_forall₂ describes.flip mem
  obtain ⟨_, -, resolved, -⟩ := of_bindDescriptor bind
  rw [described.1] at declared resolved
  rw [named] at resolved
  refine List.find?_eq_none.mp unbound tool mem' ?_
  rw [beq_iff_eq, enabledAlias_eq_some_iff]
  exact ⟨⟨declaration, declared⟩, resolved⟩

end Discovery

end TeaRs.Mcp
