import TeaRs.CodingTools.FetchAddress
import TeaRs.Lib.StateError
import TeaRs.ProviderHttp.ErrorText

/-!
# The URLs that a fetch may request

A URL is checked and brought to a canonical text before its host is resolved
(`tea-coding-tools/src/web_fetch/url_policy.rs`). Parsing and printing URLs is foreign code and
enters as a parameter; a parsed URL is the record of its parts.

## Main definitions

* `Url`, `UrlLibrary`: parsed URLs and the operations on them.
* `FetchUrlPolicy.validate`, `ValidatedFetchUrl.resolveRedirect`.
* `FetchUrlPolicy.Accepts`: a URL that the policy returned.

## Main results

* `accepts_production`: what the production policy returns is an `https` URL without credentials and
  with the port 443.
-/

namespace TeaRs

open ProviderHttp (isWhitespace)

/-- `url::Host`. -/
inductive UrlHost where
  | domain (name : String)
  | ipv4 (address : BitVec 32)
  | ipv6 (address : BitVec 128)
  deriving DecidableEq

/-- `url::Url`, by its parts. -/
structure Url where
  scheme : String
  username : String
  password : Option String
  host : Option UrlHost
  port : Option Nat
  path : String
  query : Option String
  fragment : Option String
  deriving DecidableEq

/-- What the policy uses of the URL library: parsing, resolving a reference against a base, printing,
what `set_host` makes of a text, the text of a host, and parsing an address. -/
structure UrlLibrary where
  parse : String → Option Url
  join : Url → String → Option Url
  toText : Url → String
  parseHost : String → Option UrlHost
  hostText : UrlHost → String
  parseIp : String → Option IpAddr

/-- `FetchUrlPolicyError`. -/
inductive FetchUrlPolicyError where
  | invalidUrl | forbiddenScheme | forbiddenPort
  deriving DecidableEq, Repr

/-- `FetchUrlPolicy`. -/
structure FetchUrlPolicy where
  allowLoopbackHttp : Bool
  deriving DecidableEq

/-- `FetchUrlPolicy::production`. -/
def FetchUrlPolicy.production : FetchUrlPolicy := ⟨false⟩

/-- `FetchUrlScheme`. -/
inductive FetchUrlScheme where
  | http | https
  deriving DecidableEq, Repr

/-- `ValidatedFetchUrl`. -/
structure ValidatedFetchUrl where
  canonical : String
  parsed : Url
  host : String
  port : Nat
  scheme : FetchUrlScheme
  deriving DecidableEq

/-- `MAX_FETCH_URL_BYTES`. -/
def maxFetchUrlBytes : Nat := 2 * 1024

/-- `strip_suffix('.')`, or the text itself. -/
def stripDot (text : String) : String :=
  if text.toList.getLast? = some '.' then String.ofList text.toList.dropLast else text

/-- A label of a domain. -/
def isDomainLabel (label : List Char) : Bool :=
  !label.isEmpty && decide (label.length ≤ 63) && label.head? != some '-' &&
    label.getLast? != some '-' && label.all fun c => c.isAlphanum || c == '-'

/-- `validate_domain`. -/
def isValidDomain (domain : String) : Bool :=
  !domain.isEmpty && decide (domain.utf8ByteSize ≤ 253) && domain.toList.all (·.toNat < 128) &&
    (domain.toList.splitOn '.').all isDomainLabel

/-- `str::to_ascii_lowercase`. -/
def toAsciiLowercase (text : String) : String := String.ofList (text.toList.map Char.toLower)

/-- `canonical_host`: the URL with its canonical host, and the text of the host. -/
def canonicalHost (library : UrlLibrary) (parsed : Url) :
    Except FetchUrlPolicyError (Url × String) :=
  match parsed.host with
  | none => .error .invalidUrl
  | some (.domain name) =>
    if isValidDomain (stripDot name) then
      match library.parseHost (stripDot name) with
      | none => .error .invalidUrl
      | some host => .ok ({ parsed with host := some host }, toAsciiLowercase (stripDot name))
    else .error .invalidUrl
  | some host => .ok (parsed, library.hostText host)

/-- `is_loopback_host`. -/
def isLoopbackHost (library : UrlLibrary) (host : String) : Bool :=
  toAsciiLowercase host == "localhost" ||
    (library.parseIp host).any fun
      | .v4 address => isLoopbackV4 address
      | .v6 address => isLoopbackV6 address

/-- The first and the last ports of `is_dangerous_port`. -/
def dangerousPorts : List (Nat × Nat) :=
  [(1, 1), (7, 7), (9, 9), (11, 11), (13, 13), (15, 15), (17, 17), (19, 23), (25, 25), (37, 37),
    (42, 43), (53, 53), (69, 69), (77, 77), (79, 79), (87, 87), (95, 95), (101, 104), (109, 111),
    (113, 113), (115, 115), (117, 117), (119, 119), (123, 123), (135, 135), (137, 139), (143, 143),
    (161, 161), (179, 179), (389, 389), (427, 427), (465, 465), (512, 515), (526, 526), (530, 532),
    (540, 540), (548, 548), (554, 554), (556, 556), (563, 563), (587, 587), (601, 601), (636, 636),
    (989, 990), (993, 993), (995, 995), (1719, 1720), (1723, 1723), (2049, 2049), (3659, 3659),
    (4045, 4045), (5060, 5061), (6000, 6000), (6566, 6566), (6665, 6669), (6697, 6697),
    (10080, 10080)]

/-- `is_dangerous_port`. -/
def isDangerousPort (port : Nat) : Bool :=
  dangerousPorts.any fun range => range.1 ≤ port && port ≤ range.2

/-- The check of scheme and port; a default port is left out. -/
def checkScheme (policy : FetchUrlPolicy) (loopbackHost : Bool) (parsed : Url) :
    Except FetchUrlPolicyError Url :=
  if parsed.scheme = "https" then
    if parsed.port.any (· != 443) then .error .forbiddenPort
    else .ok { parsed with port := none }
  else if parsed.scheme = "http" && policy.allowLoopbackHttp && loopbackHost then
    if parsed.port.any isDangerousPort then .error .forbiddenPort else .ok parsed
  else .error .forbiddenScheme

/-- `Url::port_or_known_default`, for the schemes that pass. -/
def Url.portOrKnownDefault (url : Url) : Option Nat :=
  match url.port with
  | some port => some port
  | none =>
    if url.scheme = "https" then some 443 else if url.scheme = "http" then some 80 else none

/-- `FetchUrlPolicy::validate`. -/
def FetchUrlPolicy.validate (library : UrlLibrary) (policy : FetchUrlPolicy) (value : String) :
    Except FetchUrlPolicyError ValidatedFetchUrl := do
  if value.isEmpty || decide (maxFetchUrlBytes < value.utf8ByteSize) ||
      value.toList.any (fun c => isControl c || isWhitespace c) then
    throw .invalidUrl
  let some parsed := library.parse value | throw .invalidUrl
  if !parsed.username.isEmpty || parsed.password.isSome || parsed.host.isNone then
    throw .invalidUrl
  let parsed := { parsed with
    fragment := none
    path := if parsed.path.isEmpty then "/" else parsed.path }
  let (parsed, host) ← canonicalHost library parsed
  let parsed ← checkScheme policy (isLoopbackHost library host) parsed
  let some port := parsed.portOrKnownDefault | throw .invalidUrl
  return {
    canonical := library.toText parsed
    parsed
    host
    port
    scheme := if parsed.scheme = "https" then .https else .http }

/-- `ValidatedFetchUrl::resolve_redirect`. -/
def ValidatedFetchUrl.resolveRedirect (library : UrlLibrary) (policy : FetchUrlPolicy)
    (url : ValidatedFetchUrl) (location : String) : Except FetchUrlPolicyError ValidatedFetchUrl := do
  if location.isEmpty || decide (maxFetchUrlBytes < location.utf8ByteSize) ||
      location.toList.any isControl then
    throw .invalidUrl
  let some resolved := library.join url.parsed location | throw .invalidUrl
  policy.validate library (library.toText resolved)

/-- A URL that the policy returned. -/
def FetchUrlPolicy.Accepts (library : UrlLibrary) (policy : FetchUrlPolicy)
    (url : ValidatedFetchUrl) : Prop :=
  ∃ value, policy.validate library value = .ok url

/-- The library keeps the host of a parsed URL: setting it again, without a final dot, gives a host
with the same text. -/
def UrlLibrary.KeepsHosts (library : UrlLibrary) : Prop :=
  ∀ value url name host, library.parse value = some url → url.host = some (.domain name) →
    library.parseHost (stripDot name) = some host →
    library.hostText host = toAsciiLowercase (stripDot name)

/-- A URL of the production policy. -/
structure ValidatedFetchUrl.IsProduction (library : UrlLibrary) (url : ValidatedFetchUrl) : Prop where
  scheme : url.scheme = .https ∧ url.parsed.scheme = "https"
  username : url.parsed.username = ""
  password : url.parsed.password = none
  port : url.port = 443
  canonical : url.canonical = library.toText url.parsed
  host : library.KeepsHosts →
    ∃ host, url.parsed.host = some host ∧ library.hostText host = url.host

theorem of_canonicalHost {library : UrlLibrary} {value : String} {source parsed parsed' : Url}
    {host : String} (parse : library.parse value = some source)
    (ok : canonicalHost library parsed = .ok (parsed', host)) (same : parsed.host = source.host) :
    (∃ host, parsed' = { parsed with host }) ∧ (library.KeepsHosts →
      ∃ host', parsed'.host = some host' ∧ library.hostText host' = host) := by
  rw [canonicalHost] at ok
  split at ok
  · cases ok
  · rename_i name named
    split at ok
    · split at ok
      · cases ok
      · rename_i host' set
        cases ok
        exact ⟨⟨_, rfl⟩, fun keeps => ⟨host', rfl, keeps value source name host' parse
          (same ▸ named) set⟩⟩
    · cases ok
  · rename_i host' named
    cases ok
    exact ⟨⟨_, rfl⟩, fun _ => ⟨_, named, rfl⟩⟩

/-- The production policy leaves an `https` URL without a port. -/
theorem of_checkScheme {loopbackHost : Bool} {parsed parsed' : Url}
    (ok : checkScheme .production loopbackHost parsed = .ok parsed') :
    parsed.scheme = "https" ∧ parsed' = { parsed with port := none } := by
  rw [checkScheme] at ok
  split_ifs at ok with https port local' <;> try contradiction
  · exact ⟨https, (Except.ok.inj ok).symm⟩
  · simp [FetchUrlPolicy.production] at local'

/-- What the production policy returns is an `https` URL without credentials and with the port
443. -/
theorem accepts_production {library : UrlLibrary} {url : ValidatedFetchUrl}
    (accepts : FetchUrlPolicy.production.Accepts library url) : url.IsProduction library := by
  obtain ⟨value, ok⟩ := accepts
  simp only [FetchUrlPolicy.validate, bind, Except.bind, throw, throwThe,
    MonadExceptOf.throw, pure, Except.pure] at ok
  split at ok
  · cases ok
  split at ok
  swap
  · cases ok
  rename_i source parse
  split at ok
  · cases ok
  rename_i plain
  split at ok
  · cases ok
  rename_i hosted canonical
  split at ok
  · cases ok
  rename_i parsed scheme
  obtain ⟨⟨host, hosts⟩, keeps⟩ := of_canonicalHost parse canonical rfl
  obtain ⟨https, rfl⟩ := of_checkScheme scheme
  have known : ({ hosted.1 with port := none } : Url).portOrKnownDefault = some 443 := by
    simp [Url.portOrKnownDefault, https]
  rw [known] at ok
  cases ok
  simp only [Bool.or_eq_true, Bool.not_eq_true', not_or, Bool.not_eq_false] at plain
  rw [hosts] at https
  exact {
    scheme := by simpa [hosts] using https
    username := by simpa [hosts] using plain.1.1
    password := by simpa [hosts] using plain.1.2
    port := rfl
    canonical := rfl
    host := keeps }

end TeaRs
