import TeaRs.CodingTools.FetchUrl

/-!
# Fetching over HTTP with redirects

`FetchHttpTransport::get` (`tea-coding-tools/src/web_fetch/http.rs`) checks a URL, resolves its
host, checks the answer, sends the request to the addresses of the answer one after the other, and
follows redirects by hand, each with its own URL check and its own resolution. Resolver, client and
servers are one network that sees everything that happened before it answers.

## Main definitions

* `FetchNetwork`: what the resolver, the client and the servers do, given the history.
* `FetchHttpTransport.get`: one complete request; the state is the history of answers and requests.
* `Confined`: the requests of a history go to public addresses only.

## Main results

* `get_confined`: every run of a transport with the production policies is confined, and returns a
  body within the limit.
-/

namespace TeaRs

open List

/-- `FetchProviderErrorCode`. -/
inductive FetchProviderErrorCode where
  | invalidConfiguration | invalidRequest | forbiddenDestination | dnsResolution | redirectRejected
  | responseTooLarge | unsupportedMime | timeout | transport | malformedResponse | cancelled
  deriving DecidableEq, Repr

/-- `FetchRetryDisposition`. -/
inductive FetchRetryDisposition where
  | never | explicit
  deriving DecidableEq, Repr

/-- `FetchProviderError`. -/
structure FetchProviderError where
  code : FetchProviderErrorCode
  retry : FetchRetryDisposition
  deriving DecidableEq, Repr

namespace FetchProviderError

/-- `FetchProviderError::new`. -/
def new (code : FetchProviderErrorCode) : FetchProviderError := ⟨code, .never⟩

/-- `FetchProviderError::explicit_retry`. -/
def explicitRetry (code : FetchProviderErrorCode) : FetchProviderError := ⟨code, .explicit⟩

end FetchProviderError

/-- The code of a connection that timed out, or failed in another way. -/
def FetchProviderErrorCode.ofTimeout (timedOut : Bool) : FetchProviderErrorCode :=
  if timedOut then .timeout else .transport

/-- `FetchHttpLimits`. -/
structure FetchHttpLimits where
  maxRedirects : Nat
  maxResponseBytes : Nat
  deriving DecidableEq

/-- `FetchHttpConfig`. Of the timeouts only the least number of bytes in a window is read by the
code; how long anything takes is up to the network. -/
structure FetchHttpConfig where
  urlPolicy : FetchUrlPolicy
  addressPolicy : FetchAddressPolicy
  lowSpeedMinBytes : Nat
  limits : FetchHttpLimits
  deriving DecidableEq

/-- `FetchHttpConfig::production`. -/
def FetchHttpConfig.production : FetchHttpConfig where
  urlPolicy := .production
  addressPolicy := .publicNetwork
  lowSpeedMinBytes := 1024
  limits := { maxRedirects := 5, maxResponseBytes := 2 * 1024 * 1024 }

/-- What the history of a fetch records. The hop is the number of redirects followed before. -/
inductive FetchEvent where
  /-- The resolver answered for the host of a hop. -/
  | answered (hop : Nat) (host : String) (addresses : List IpAddr)
  /-- A request for the URL of a hop was sent to an address and port. -/
  | requested (hop : Nat) (url : ValidatedFetchUrl) (address : IpAddr) (port : Nat)
  deriving DecidableEq

/-- The hop of an event. -/
def FetchEvent.hop : FetchEvent → Nat
  | answered hop .. => hop
  | requested hop .. => hop

/-- How a lookup ends. -/
inductive ResolverOutcome where
  | addresses (addresses : List IpAddr)
  | failed (error : FetchProviderError)
  | timedOut
  /-- The whole operation is cancelled, or its total time is over. -/
  | interrupted (timedOut : Bool)

/-- A header; the text is absent if it has bytes that are not visible. -/
structure HeaderValue where
  toStr : Option String
  deriving DecidableEq

/-- What reading a body meets next. -/
inductive BodySignal where
  | chunk (bytes : List UInt8)
  /-- The low-speed window is over. -/
  | windowEnded
  /-- No chunk came in the rest of the window. -/
  | stalled
  | failed (timedOut : Bool)
  | interrupted (timedOut : Bool)
  deriving DecidableEq

/-- A response. -/
structure ServerResponse where
  remoteAddr : Option (IpAddr × Nat)
  status : Nat
  location : Option HeaderValue
  contentType : Option HeaderValue
  contentEncoding : Option HeaderValue
  contentLength : Option HeaderValue
  /-- `Response::content_length`. -/
  bodyLength : Option Nat
  body : List BodySignal
  deriving DecidableEq

/-- How sending a request ends. -/
inductive SendOutcome where
  | response (response : ServerResponse)
  | failed (timedOut : Bool)
  /-- No response came in the time for the first byte. -/
  | timedOut
  | interrupted (timedOut : Bool)

/-- The resolver, the client and the servers. All of them may depend on the whole history. -/
structure FetchNetwork where
  /-- The operation is cancelled before it starts. -/
  cancelled : Bool
  resolve : List FetchEvent → String → ResolverOutcome
  /-- The client for a host, pinned to an address, can be built. -/
  builds : String → IpAddr × Nat → Bool
  send : List FetchEvent → ValidatedFetchUrl → IpAddr × Nat → SendOutcome

/-- `FetchRedirect`. -/
structure FetchRedirect where
  source : String
  target : String
  status : Nat
  deriving DecidableEq

/-- `FetchHttpHeaders`. -/
structure FetchHttpHeaders where
  mime : Option String
  encoding : Option String
  length : Option Nat
  deriving DecidableEq

/-- `FetchHttpResponse`. -/
structure FetchHttpResponse where
  requestedUrl : String
  finalUrl : String
  status : Nat
  headers : FetchHttpHeaders
  body : List UInt8
  redirects : List FetchRedirect
  deriving DecidableEq

/-- Programs over the history of a fetch. -/
abbrev FetchM := EStateM FetchProviderError (List FetchEvent)

open StateError

/-! ### Headers and bodies -/

/-- `is_redirect`. -/
def isRedirect (status : Nat) : Bool := [301, 302, 303, 307, 308].contains status

/-- `MAX_RESPONSE_HEADER_VALUE_BYTES`. -/
def maxResponseHeaderValueBytes : Nat := 1024

/-- `bounded_header`. -/
def boundedHeader : Option HeaderValue → Except FetchProviderError (Option String)
  | none => .ok none
  | some value =>
    match value.toStr with
    | none => .error (.new .malformedResponse)
    | some text =>
      if maxResponseHeaderValueBytes < text.utf8ByteSize then .error (.new .malformedResponse)
      else .ok (some text)

/-- `validate_header_value`, under an option. -/
def validateHeaderValue : Option String → Except FetchProviderError (Option String)
  | none => .ok none
  | some value =>
    if decide (maxResponseHeaderValueBytes < value.utf8ByteSize) || value.toList.any isControl then
      .error (.new .malformedResponse)
    else .ok (some value)

/-- `FetchHttpHeaders::new`. -/
def FetchHttpHeaders.new (contentType contentEncoding : Option String)
    (contentLength : Option Nat) : Except FetchProviderError FetchHttpHeaders := do
  return {
    mime := ← validateHeaderValue contentType
    encoding := ← validateHeaderValue contentEncoding
    length := contentLength }

/-- `str::parse::<u64>`: decimal digits after an optional plus sign. -/
def parseU64 (text : String) : Option Nat :=
  let digits := if text.toList.head? = some '+' then text.toList.tail else text.toList
  if digits.isEmpty || !digits.all Char.isDigit then none
  else (some (digits.foldl (fun value digit => 10 * value + (digit.toNat - '0'.toNat)) 0)).filter
    (· < 2 ^ 64)

/-- The value of `Content-Length`. -/
def contentLengthHeader : Option HeaderValue → Except FetchProviderError (Option Nat)
  | none => .ok none
  | some value =>
    match value.toStr.bind parseU64 with
    | none => .error (.new .malformedResponse)
    | some length => .ok (some length)

/-- `response_headers`. -/
def responseHeaders (response : ServerResponse) : Except FetchProviderError FetchHttpHeaders := do
  let contentType ← boundedHeader response.contentType
  let contentEncoding ← boundedHeader response.contentEncoding
  let contentLength ← contentLengthHeader response.contentLength
  FetchHttpHeaders.new contentType contentEncoding contentLength

/-- The error of an operation that is cancelled, or whose total time is over. -/
def interruption (timedOut : Bool) : FetchProviderError :=
  .new (if timedOut then .timeout else .cancelled)

/-- The loop of `read_raw_body`, with the bytes read so far and those of the window. -/
def readChunks (config : FetchHttpConfig) :
    List BodySignal → List UInt8 → Nat → Except FetchProviderError (List UInt8)
  | [], bytes, _ => .ok bytes
  | .windowEnded :: signals, bytes, window =>
    if window < config.lowSpeedMinBytes then .error (.new .timeout)
    else readChunks config signals bytes 0
  | .chunk chunk :: signals, bytes, window =>
    if config.limits.maxResponseBytes < bytes.length + chunk.length then
      .error (.new .responseTooLarge)
    else readChunks config signals (bytes ++ chunk) (window + chunk.length)
  | .stalled :: _, _, _ => .error (.new .timeout)
  | .failed timedOut :: _, _, _ => .error (.new (.ofTimeout timedOut))
  | .interrupted timedOut :: _, _, _ => .error (interruption timedOut)

/-- `read_raw_body`. -/
def readRawBody (config : FetchHttpConfig) (response : ServerResponse) :
    Except FetchProviderError (List UInt8) :=
  if response.bodyLength.any fun length => config.limits.maxResponseBytes < length then
    .error (.new .responseTooLarge)
  else readChunks config response.body [] 0

/-! ### The transport -/

/-- `FetchHttpTransport`, with the URL library it uses. -/
structure FetchHttpTransport where
  config : FetchHttpConfig
  library : UrlLibrary

namespace FetchHttpTransport

variable (transport : FetchHttpTransport) (network : FetchNetwork)

/-- Note an event in the history. -/
def note (event : FetchEvent) : FetchM Unit := modify (· ++ [event])

/-- `FetchHttpTransport::resolve`. -/
def resolve (hop : Nat) (url : ValidatedFetchUrl) : FetchM (List IpAddr) := do
  match network.resolve (← get) url.host with
  | .interrupted timedOut => throw (interruption timedOut)
  | .timedOut => throw (.new .timeout)
  | .failed error => throw error
  | .addresses answer =>
    note (.answered hop url.host answer)
    propagate ((transport.config.addressPolicy.validate answer).mapError
      fun _ => .new .dnsResolution)

/-- `FetchHttpTransport::send_to_validated_peer`, with the last error. -/
def sendToValidatedPeer (hop : Nat) (url : ValidatedFetchUrl) :
    List IpAddr → FetchProviderError → FetchM ServerResponse
  | [], lastError => throw lastError
  | address :: addresses, _ => do
    if !network.builds url.host (address, url.port) then throw (.new .invalidConfiguration)
    note (.requested hop url address url.port)
    match network.send (← get) url (address, url.port) with
    | .interrupted timedOut => throw (interruption timedOut)
    | .failed timedOut =>
      sendToValidatedPeer hop url addresses (.explicitRetry (.ofTimeout timedOut))
    | .timedOut => sendToValidatedPeer hop url addresses (.explicitRetry .timeout)
    | .response response =>
      if response.remoteAddr ≠ some (address, url.port) then throw (.new .forbiddenDestination)
      return response

/-- `normalize_result_url`. -/
def normalizeResultUrl (value : String) : Except FetchProviderError String :=
  match transport.config.urlPolicy.validate transport.library value with
  | .ok url => .ok url.canonical
  | .error _ => .error (.new .malformedResponse)

/-- `FetchRedirect::new_with_policy`. -/
def newRedirect (source target : String) (status : Nat) :
    Except FetchProviderError FetchRedirect := do
  if !(300 ≤ status && status ≤ 399) then throw (.new .malformedResponse)
  return {
    source := ← transport.normalizeResultUrl source
    target := ← transport.normalizeResultUrl target
    status }

/-- The URL that a redirect leads to, if it may be followed. -/
def redirectTarget (current : ValidatedFetchUrl) (visited : List String)
    (response : ServerResponse) : Except FetchProviderError ValidatedFetchUrl := do
  let some location := response.location | throw (.new .redirectRejected)
  let some location := location.toStr | throw (.new .redirectRejected)
  match current.resolveRedirect transport.library transport.config.urlPolicy location with
  | .error _ => throw (.new .redirectRejected)
  | .ok next =>
    if current.scheme = .https ∧ next.scheme ≠ .https then throw (.new .redirectRejected)
    if visited.contains next.canonical then throw (.new .redirectRejected)
    return next

/-- The loop of `get_inner`, with the number of redirects that may still be followed. -/
def getInner (requested : ValidatedFetchUrl) (left : Nat) (current : ValidatedFetchUrl)
    (visited : List String) (redirects : List FetchRedirect) : FetchM FetchHttpResponse := do
  let addresses ← transport.resolve network redirects.length current
  let response ← sendToValidatedPeer network redirects.length current addresses
    (.explicitRetry .transport)
  if isRedirect response.status then
    match left with
    | 0 => throw (.new .redirectRejected)
    | left + 1 =>
      let next ← propagate (transport.redirectTarget current visited response)
      let redirect ← propagate (transport.newRedirect current.canonical next.canonical
        response.status)
      getInner requested left next (next.canonical :: visited) (redirects ++ [redirect])
  else
    let headers ← propagate (responseHeaders response)
    let body ← propagate (readRawBody transport.config response)
    return {
      requestedUrl := requested.canonical
      finalUrl := current.canonical
      status := response.status
      headers, body, redirects }

/-- `FetchHttpTransport::get`. -/
def get (url : String) : FetchM FetchHttpResponse := do
  if network.cancelled then throw (.new .cancelled)
  match transport.config.urlPolicy.validate transport.library url with
  | .error _ => throw (.new .invalidRequest)
  | .ok requested =>
    getInner transport network requested transport.config.limits.maxRedirects requested
      [requested.canonical] []

end FetchHttpTransport

/-! ### Confined histories -/

section Confined

variable (transport : FetchHttpTransport)

/-- The requests of a history go to port 443 of public addresses that the resolver gave for their
host, with accepted URLs of which no two hops share one, and follow a bounded number of
redirects. -/
structure Confined (trace : List FetchEvent) : Prop where
  /-- A request goes to an address of the answer that came before it for this hop and host, and all
  of that answer is public. -/
  destination : ∀ before hop url address port after,
    trace = before ++ .requested hop url address port :: after → port = 443 ∧
      ∃ addresses, .answered hop url.host addresses ∈ before ∧ address ∈ addresses ∧
        ∀ address ∈ addresses, address.IsPublic
  /-- A hop has one answer. -/
  answer : ∀ hop host addresses host' addresses', .answered hop host addresses ∈ trace →
    .answered hop host' addresses' ∈ trace → host = host' ∧ addresses = addresses'
  /-- A requested URL is one of the policy. -/
  url : ∀ hop url address port, .requested hop url address port ∈ trace →
    transport.config.urlPolicy.Accepts transport.library url ∧ url.IsProduction transport.library
  /-- Requests of one hop have one URL, requests of different hops different ones. -/
  once : ∀ hop url address port hop' url' address' port',
    .requested hop url address port ∈ trace → .requested hop' url' address' port' ∈ trace →
    (hop = hop' → url = url') ∧ (hop ≠ hop' → url.canonical ≠ url'.canonical)
  /-- The number of redirects is bounded. -/
  bounded : ∀ event ∈ trace, event.hop ≤ transport.config.limits.maxRedirects

end Confined

theorem Confined.nil (transport : FetchHttpTransport) : Confined transport [] where
  destination before hop url address port after split := by simp at split
  answer := by simp
  url := by simp
  once := by simp
  bounded := by simp

/-- The history at the start of a hop: the requests so far were confined, earlier hops made them,
and their URLs are past ones. -/
structure Arriving (transport : FetchHttpTransport) (hop : Nat) (past : List String)
    (trace : List FetchEvent) : Prop where
  confined : Confined transport trace
  earlier : ∀ event ∈ trace, event.hop < hop
  past : ∀ hop url address port, .requested hop url address port ∈ trace → url.canonical ∈ past

/-- The events of one hop: the answer for its host, and requests to some of its addresses, if all
of them are public. -/
def AtHop (hop : Nat) (url : ValidatedFetchUrl) (answer : List IpAddr)
    (base trace : List FetchEvent) : Prop :=
  ∃ requests, trace = base ++ .answered hop url.host answer :: requests ∧
    ∀ event ∈ requests, (∀ address ∈ answer, address.IsPublic) ∧
      ∃ address ∈ answer, event = .requested hop url address 443

variable {transport : FetchHttpTransport} {url : ValidatedFetchUrl} {past : List String}
  {base trace : List FetchEvent}

section Hop

variable {hop : Nat} {answer : List IpAddr}

theorem AtHop.mem (visit : AtHop hop url answer base trace) {event : FetchEvent}
    (mem : event ∈ trace) : event ∈ base ∨ event = .answered hop url.host answer ∨
      ∃ address ∈ answer, event = .requested hop url address 443 := by
  obtain ⟨requests, rfl, sent⟩ := visit
  rcases mem_append.mp mem with mem | mem
  · exact .inl mem
  · rcases mem_cons.mp mem with mem | mem
    · exact .inr (.inl mem)
    · exact .inr (.inr (sent event mem).2)

theorem AtHop.request (visit : AtHop hop url answer base trace) {address : IpAddr}
    (isPublic : ∀ address ∈ answer, address.IsPublic) (mem : address ∈ answer) :
    AtHop hop url answer base (trace ++ [.requested hop url address 443]) := by
  obtain ⟨requests, rfl, sent⟩ := visit
  refine ⟨requests ++ [.requested hop url address 443], by simp, fun event mem' => ?_⟩
  rcases mem_append.mp mem' with old | last
  · exact sent event old
  · exact ⟨isPublic, address, mem, mem_singleton.mp last⟩

/-- A request of a hop, split off its history, has the answer before it. -/
theorem AtHop.split (visit : AtHop hop url answer base trace) {before after : List FetchEvent}
    {hop' : Nat} {url' : ValidatedFetchUrl} {address : IpAddr} {port : Nat}
    (split : trace = before ++ .requested hop' url' address port :: after) :
    (∃ after', base = before ++ .requested hop' url' address port :: after') ∨
      (hop' = hop ∧ url' = url ∧ port = 443 ∧ address ∈ answer ∧
        .answered hop url.host answer ∈ before ∧ ∀ address ∈ answer, address.IsPublic) := by
  obtain ⟨requests, rfl, sent⟩ := visit
  rcases append_eq_append_iff.mp split with ⟨front, rfl, rest⟩ | ⟨back, rfl, rest⟩
  · cases front with
    | nil => cases (cons.inj rest).1
    | cons first front =>
      obtain ⟨rfl, rfl⟩ := cons.inj rest
      obtain ⟨isPublic, target, mem, same⟩ := sent _ (mem_append_right _ mem_cons_self)
      cases same
      exact .inr ⟨rfl, rfl, rfl, mem, by simp, isPublic⟩
  · cases back with
    | nil => cases (cons.inj rest).1
    | cons first back =>
      obtain ⟨rfl, -⟩ := cons.inj rest
      exact .inl ⟨back, rfl⟩

theorem Arriving.visit (arriving : Arriving transport hop past base)
    (accepts : transport.config.urlPolicy.Accepts transport.library url)
    (production : url.IsProduction transport.library) (new : url.canonical ∉ past)
    (within : hop ≤ transport.config.limits.maxRedirects)
    (visit : AtHop hop url answer base trace) :
    Arriving transport (hop + 1) (url.canonical :: past) trace := by
  have earlier := arriving.earlier
  have requested {hop' url' address port} (mem : .requested hop' url' address port ∈ trace) :
      .requested hop' url' address port ∈ base ∨ hop' = hop ∧ url' = url := by
    rcases visit.mem mem with mem | mem | ⟨_, _, mem⟩
    · exact .inl mem
    · cases mem
    · cases mem
      exact .inr ⟨rfl, rfl⟩
  have answered {hop' host addresses} (mem : .answered hop' host addresses ∈ trace) :
      .answered hop' host addresses ∈ base ∨
        hop' = hop ∧ host = url.host ∧ addresses = answer := by
    rcases visit.mem mem with mem | mem | ⟨_, _, mem⟩
    · exact .inl mem
    · cases mem
      exact .inr ⟨rfl, rfl, rfl⟩
    · cases mem
  have hops {event} (mem : event ∈ trace) : event.hop ≤ hop := by
    rcases visit.mem mem with mem | rfl | ⟨_, _, rfl⟩
    · exact (earlier event mem).le
    · exact le_rfl
    · exact le_rfl
  refine ⟨{
    destination := fun before hop' url' address port after split => ?_
    answer := fun hop' host addresses host' addresses' one two => ?_
    url := fun hop' url' address port mem => ?_
    once := fun hop₁ url₁ address₁ port₁ hop₂ url₂ address₂ port₂ one two => ?_
    bounded := fun event mem => (hops mem).trans within },
    fun event mem => Nat.lt_succ_of_le (hops mem), fun hop' url' address port mem => ?_⟩
  · rcases visit.split split with ⟨after', same⟩ | ⟨rfl, rfl, port, mem, before, isPublic⟩
    · exact arriving.confined.destination before hop' url' address port after' same
    · exact ⟨port, answer, before, mem, isPublic⟩
  · rcases answered one with one | ⟨rfl, rfl, rfl⟩ <;>
      rcases answered two with two | ⟨same, rfl, rfl⟩
    · exact arriving.confined.answer hop' host addresses host' addresses' one two
    · exact absurd (earlier _ one) (by simp [FetchEvent.hop, same])
    · exact absurd (earlier _ two) (by simp [FetchEvent.hop])
    · exact ⟨rfl, rfl⟩
  · rcases requested mem with mem | ⟨-, rfl⟩
    · exact arriving.confined.url hop' url' address port mem
    · exact ⟨accepts, production⟩
  · rcases requested one with one | ⟨rfl, rfl⟩ <;> rcases requested two with two | ⟨same, rfl⟩
    · exact arriving.confined.once _ _ _ _ _ _ _ _ one two
    · exact ⟨fun eq => absurd (earlier _ one) (by simp [FetchEvent.hop, eq, same]),
        fun _ eq => new (eq ▸ arriving.past _ _ _ _ one)⟩
    · exact ⟨fun eq => absurd (earlier _ two) (by simp [FetchEvent.hop, eq]),
        fun _ eq => new (eq ▸ arriving.past _ _ _ _ two)⟩
    · exact ⟨fun _ => rfl, fun other => absurd same.symm other⟩
  · rcases requested mem with mem | ⟨-, rfl⟩
    · exact mem_cons_of_mem _ (arriving.past _ _ _ _ mem)
    · exact mem_cons_self

end Hop

/-! ### Runs of the transport -/

namespace FetchHttpTransport

variable {network : FetchNetwork} {hop : Nat}

/-- A resolution fails, or gives the addresses of a public answer. -/
theorem ends_resolve (isPublic : transport.config.addressPolicy = .publicNetwork) : Ends
      (fun addresses trace => ∃ answer, AtHop hop url answer base trace ∧
        (∀ address ∈ answer, address.IsPublic) ∧ ∀ address ∈ addresses, address ∈ answer)
      (fun _ trace => trace = base ∨ ∃ answer, AtHop hop url answer base trace)
      (transport.resolve network hop url base) := by
  rw [resolve]
  simp only [bind_run, get_run]
  cases network.resolve base url.host with
  | interrupted timedOut | timedOut | failed error => exact .inl rfl
  | addresses answer =>
    have visit : AtHop hop url answer base (base ++ [.answered hop url.host answer]) :=
      ⟨[], rfl, by simp⟩
    simp only [note, bind_run, modify_run]
    cases ok : transport.config.addressPolicy.validate answer with
    | error error => exact .inr ⟨answer, visit⟩
    | ok addresses =>
      obtain ⟨mem, allowed⟩ := of_validate ok
      exact ⟨answer, visit, fun address mem => isPublic_of_allows (isPublic ▸ allowed address mem),
        fun address => (mem address).mp⟩

variable {lastError : FetchProviderError} {config : FetchHttpConfig} {body : List UInt8}
  {response : ServerResponse} {redirects : List FetchRedirect}

/-- Requests go to the addresses of the answer. -/
theorem ends_sendToValidatedPeer {answer addresses : List IpAddr} (port : url.port = 443)
    (isPublic : ∀ address ∈ answer, address.IsPublic)
    (mem : ∀ address ∈ addresses, address ∈ answer) (visit : AtHop hop url answer base trace) :
    Ends (fun _ trace => AtHop hop url answer base trace)
      (fun _ trace => AtHop hop url answer base trace)
      (sendToValidatedPeer network hop url addresses lastError trace) := by
  induction addresses generalizing trace lastError with
  | nil => exact visit
  | cons address addresses ih =>
    have next := visit.request isPublic (mem address mem_cons_self)
    have rest (lastError) : Ends _ _ (sendToValidatedPeer network hop url addresses lastError _) :=
      ih (fun address tail => mem address (mem_cons_of_mem _ tail)) next
    rw [sendToValidatedPeer, port]
    cases network.builds url.host (address, 443) with
    | false => exact visit
    | true =>
      simp only [note, bind_run, modify_run, get_run, Bool.not_true, Bool.false_eq_true,
        if_false]
      cases network.send (trace ++ [.requested hop url address 443]) url (address, 443) with
      | interrupted timedOut => exact next
      | failed timedOut | timedOut => exact rest _
      | response response =>
        dsimp only
        split
        · exact next
        · exact next

theorem length_readChunks {signals : List BodySignal} {bytes : List UInt8} {window : Nat}
    (within : bytes.length ≤ config.limits.maxResponseBytes)
    (ok : readChunks config signals bytes window = .ok body) :
    body.length ≤ config.limits.maxResponseBytes := by
  induction signals generalizing bytes window with
  | nil =>
    cases ok
    exact within
  | cons signal signals ih =>
    cases signal with
    | chunk chunk =>
      rw [readChunks] at ok
      split at ok
      · cases ok
      · refine ih ?_ ok
        rw [length_append]
        omega
    | windowEnded =>
      rw [readChunks] at ok
      split at ok
      · cases ok
      · exact ih within ok
    | stalled | failed timedOut | interrupted timedOut => cases ok

theorem length_readRawBody (ok : readRawBody config response = .ok body) :
    body.length ≤ config.limits.maxResponseBytes := by
  rw [readRawBody] at ok
  split at ok
  · cases ok
  · exact length_readChunks (Nat.zero_le _) ok

theorem of_redirectTarget {current next : ValidatedFetchUrl} {visited : List String}
    (ok : transport.redirectTarget current visited response = .ok next) :
    transport.config.urlPolicy.Accepts transport.library next ∧ next.canonical ∉ visited := by
  rw [redirectTarget] at ok
  split at ok
  swap
  · cases ok
  split at ok
  swap
  · cases ok
  rename_i location _
  split at ok
  · cases ok
  rename_i target resolved
  split_ifs at ok with seen <;> try contradiction
  obtain rfl : target = next := Except.ok.inj ok
  refine ⟨?_, by simpa using seen⟩
  rw [ValidatedFetchUrl.resolveRedirect] at resolved
  split at resolved
  · cases resolved
  · split at resolved
    · exact ⟨_, resolved⟩
    · cases resolved

/-- What a run of the transport keeps: a confined history, and a response within the limits. -/
def Keeps (transport : FetchHttpTransport) :
    EStateM.Result FetchProviderError (List FetchEvent) FetchHttpResponse → Prop :=
  Ends
    (fun response trace => Confined transport trace ∧
      response.body.length ≤ transport.config.limits.maxResponseBytes ∧
      response.redirects.length ≤ transport.config.limits.maxRedirects)
    (fun _ trace => Confined transport trace)

/-- The first part of a hop, up to a response. -/
theorem keeps_visit {rest : ServerResponse → FetchM FetchHttpResponse}
    (urls : transport.config.urlPolicy = .production)
    (addresses : transport.config.addressPolicy = .publicNetwork)
    (within : hop ≤ transport.config.limits.maxRedirects)
    (accepts : transport.config.urlPolicy.Accepts transport.library url)
    (new : url.canonical ∉ past) (arriving : Arriving transport hop past trace)
    (keeps : ∀ response trace, Arriving transport (hop + 1) (url.canonical :: past) trace →
      transport.Keeps (rest response trace)) :
    transport.Keeps ((transport.resolve network hop url >>= fun addresses =>
      sendToValidatedPeer network hop url addresses lastError >>= rest) trace) := by
  have production : url.IsProduction transport.library := accepts_production (urls ▸ accepts)
  have visited {answer trace'} (visit : AtHop hop url answer trace trace') :=
    arriving.visit accepts production new within visit
  refine Ends.bind ((ends_resolve addresses).mono (fun _ _ => id) ?_) ?_
  · rintro _ trace' (rfl | ⟨answer, visit⟩)
    · exact arriving.confined
    · exact (visited visit).confined
  · rintro found trace' ⟨answer, visit, isPublic, mem⟩
    refine Ends.bind ((ends_sendToValidatedPeer production.port isPublic mem visit).mono
      (fun _ _ => id) fun _ _ visit => (visited visit).confined) fun response trace visit => ?_
    exact keeps response trace (visited visit)

/-- The last part of a run: the response is within the limits. -/
theorem keeps_respond {requested finalUrl : String}
    (within : redirects.length ≤ transport.config.limits.maxRedirects)
    (confined : Confined transport trace) :
    transport.Keeps ((do
      let headers ← propagate (responseHeaders response)
      let body ← propagate (readRawBody transport.config response)
      return ⟨requested, finalUrl, response.status, headers, body, redirects⟩ :
        FetchM FetchHttpResponse) trace) := by
  cases responseHeaders response with
  | error error => exact confined
  | ok headers =>
    cases read : readRawBody transport.config response with
    | error error => exact confined
    | ok body => exact ⟨confined, length_readRawBody read, within⟩

/-- From the start of a hop on, the history stays confined. -/
theorem keeps_getInner (urls : transport.config.urlPolicy = .production)
    (addresses : transport.config.addressPolicy = .publicNetwork) {requested : ValidatedFetchUrl}
    {left : Nat} (count : left + redirects.length = transport.config.limits.maxRedirects)
    (accepts : transport.config.urlPolicy.Accepts transport.library url)
    (new : url.canonical ∉ past) (arriving : Arriving transport redirects.length past trace) :
    transport.Keeps
      (getInner transport network requested left url (url.canonical :: past) redirects trace) := by
  -- By induction on the redirects that may still be followed.
  have within : redirects.length ≤ transport.config.limits.maxRedirects := by omega
  induction left generalizing url past redirects trace with
  | zero =>
    rw [getInner]
    refine keeps_visit urls addresses within accepts new arriving fun response trace arriving => ?_
    split
    · exact arriving.confined
    · exact keeps_respond within arriving.confined
  | succ left ih =>
    rw [getInner]
    refine keeps_visit urls addresses within accepts new arriving fun response trace arriving => ?_
    split
    · dsimp only
      cases target : transport.redirectTarget url (url.canonical :: past) response with
      | error error => exact arriving.confined
      | ok next =>
        obtain ⟨accepts, new⟩ := of_redirectTarget target
        simp only [propagate, bind_run, pure_run]
        cases transport.newRedirect url.canonical next.canonical response.status with
        | error error => exact arriving.confined
        | ok redirect =>
          have count : left + (redirects ++ [redirect]).length =
              transport.config.limits.maxRedirects := by
            rw [length_append, length_singleton]
            omega
          refine ih count accepts new ?_ (by omega)
          rwa [length_append, length_singleton]
    · exact keeps_respond within arriving.confined

end FetchHttpTransport

/-- Every run of a transport with the production policies is confined to public addresses, and
returns a body within the limit. -/
theorem get_confined (transport : FetchHttpTransport)
    (urls : transport.config.urlPolicy = .production)
    (addresses : transport.config.addressPolicy = .publicNetwork) (network : FetchNetwork)
    (url : String) : transport.Keeps (transport.get network url []) := by
  rw [FetchHttpTransport.get]
  have start := Confined.nil transport
  cases network.cancelled with
  | true => exact start
  | false =>
    cases ok : transport.config.urlPolicy.validate transport.library url with
    | error error => exact start
    | ok requested =>
      exact FetchHttpTransport.keeps_getInner urls addresses (Nat.add_zero _) ⟨url, ok⟩
        not_mem_nil ⟨start, by simp, by simp⟩

/-- A URL library that knows the start pages of two hosts. -/
def pagesLibrary : UrlLibrary :=
  let page (name : String) : Url :=
    ⟨"https", "", none, some (.domain name), none, "/", none, none⟩
  let parse (value : String) : Option Url :=
    (["first.test", "second.test"].find? fun name => value = "https://" ++ name ++ "/").map page
  { parse
    join := fun _ location => parse location
    toText := fun url =>
      match url.host with
      | some (.domain name) => "https://" ++ name ++ "/"
      | _ => ""
    parseHost := fun name => some (.domain name)
    hostText := fun host =>
      match host with
      | .domain name => name
      | _ => ""
    parseIp := fun _ => none }

/-- A network in which the first host leads to the second one. -/
def pagesNetwork : FetchNetwork where
  cancelled := false
  resolve _ host := .addresses [.v4 (if host = "first.test" then 0x08080808 else 0x01010101)]
  builds _ _ := true
  send _ url peer := .response {
    remoteAddr := some peer
    status := if url.host = "first.test" then 302 else 200
    location := some ⟨some "https://second.test/"⟩
    contentType := none
    contentEncoding := none
    contentLength := none
    bodyLength := none
    body := [.chunk [104, 105]] }

/-- The production transport over the library of two pages. -/
def pagesTransport : FetchHttpTransport := ⟨.production, pagesLibrary⟩

theorem get_confined_pages :
    (resultValue? (pagesTransport.get pagesNetwork "https://first.test/" [])).map
        (fun response => (response.body, response.redirects.length)) = some ([104, 105], 1) ∧
      (resultState (pagesTransport.get pagesNetwork "https://first.test/" [])).length = 4 ∧
      pagesTransport.Keeps (pagesTransport.get pagesNetwork "https://first.test/" []) :=
  ⟨by decide +kernel, by decide +kernel,
    get_confined pagesTransport rfl rfl pagesNetwork "https://first.test/"⟩

end TeaRs
