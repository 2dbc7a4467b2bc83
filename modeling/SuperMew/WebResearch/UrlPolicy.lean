import SuperMew.WebResearch.Url

/-! `WebUrlPolicy`: which URLs may be requested, in which form, and at which addresses. -/

namespace SuperMew.WebResearch

/-! ## Errors -/

inductive WebUrlPolicyCode where
  | urlTooLong
  | invalidUrl
  | schemeDenied
  | userinfoDenied
  | hostDenied
  | portDenied
  | dnsResolutionFailed
  | addressDenied
  | dnsPinMismatch
  | redirectDenied
  deriving DecidableEq, Repr

structure WebUrlPolicyError where
  code : WebUrlPolicyCode
  message : String
  safeDetails : List (String × ℕ)
  deriving DecidableEq, Repr

/-- What `resolve` can raise. The constructors of its result raise `ValueError`. -/
inductive UrlFailure where
  | policy (error : WebUrlPolicyError)
  | cancelled (message : String)
  | value (message : String)
  deriving DecidableEq, Repr

def urlError {α : Type} (code : WebUrlPolicyCode) (message : String) :
    Except WebUrlPolicyError α := .error ⟨code, message, []⟩

/-- An answer of the cancellation probe. -/
inductive Probe where
  | quiet
  | fires
  | fails
  deriving DecidableEq, Repr

def raiseIfCancelled : Probe → Except UrlFailure Unit
  | .quiet => .ok ()
  | .fires => .error (.cancelled "DNS resolution cancelled")
  | .fails => .error (.cancelled "DNS cancellation probe failed")

/-! ## Texts -/

/-- A text of the caller. A surrogate on its own is no character. -/
abbrev RawText := List (Option Char)

def utf8Size (text : Chars) : ℕ := (text.map Char.utf8Size).sum

def validateRawUrlText (field : String) (maxBytes : ℕ) (value : RawText) :
    Except WebUrlPolicyError Chars :=
  match value.mapM id with
  | none => urlError .invalidUrl (field ++ " contains invalid Unicode")
  | some text => do
      failIf (maxBytes < utf8Size text)
        ⟨.urlTooLong, field ++ " exceeds its size limit", [("max_url_bytes", maxBytes)]⟩
      failIf (text = [] ∨ text ≠ stripChars text)
        ⟨.invalidUrl, field ++ " must be a non-empty canonical string", []⟩
      failIf (text.contains '\\' = true ∨ text.contains '\x00' = true)
        ⟨.invalidUrl, field ++ " contains a forbidden character", []⟩
      failIf (text.any (fun c => c.toNat < 32 || c.toNat == 127) = true)
        ⟨.invalidUrl, field ++ " contains a control character", []⟩
      pure text

def isUnreserved (c : Char) : Bool :=
  c.isAlpha || c.isDigit || c == '-' || c == '.' || c == '_' || c == '~'

def isPathSafe (c : Char) : Bool := isUnreserved c || "/!$&'()*+,;=:@".toList.contains c

def isQuerySafe (c : Char) : Bool := isPathSafe c || c == '?'

def hexDigit (n : ℕ) : Char := "0123456789ABCDEF".toList.getD n '0'

def hexValue (c : Char) : ℕ :=
  if c.isDigit then c.toNat - '0'.toNat
  else if 'a' ≤ c then c.toNat - 'a'.toNat + 10
  else c.toNat - 'A'.toNat + 10

/-- `f"%{byte:02X}"`. -/
def percentByte (byte : ℕ) : Chars := ['%', hexDigit (byte / 16), hexDigit (byte % 16)]

/-- An escape, or the character it stands for if that one is unreserved. -/
def canonicalEscape (a b : Char) : Chars :=
  let byte := 16 * hexValue a + hexValue b
  if isUnreserved (Char.ofNat byte) then [Char.ofNat byte] else ['%', a.toUpper, b.toUpper]

def percentEncode (c : Char) : Chars :=
  (String.utf8EncodeChar c).flatMap fun byte => percentByte byte.toNat

def canonicalizeUrlComponent (safe : Char → Bool) : Chars → Except WebUrlPolicyError Chars
  | [] => .ok []
  | '%' :: a :: b :: rest =>
    if isHexDigit a && isHexDigit b then do
      let output ← canonicalizeUrlComponent safe rest
      pure (canonicalEscape a b ++ output)
    else urlError .invalidUrl "URL contains an invalid percent escape"
  | c :: rest =>
    if c = '%' then urlError .invalidUrl "URL contains an invalid percent escape"
    else do
      let output ← canonicalizeUrlComponent safe rest
      pure ((if safe c then [c] else percentEncode c) ++ output)

def dropDotSegments (output : Chars) : Chars → Chars
  | [] => output
  | '.' :: '.' :: '/' :: rest => dropDotSegments output rest
  | '.' :: '/' :: rest => dropDotSegments output rest
  | '/' :: '.' :: '/' :: rest => dropDotSegments output ('/' :: rest)
  | ['/', '.'] => dropDotSegments output ['/']
  | '/' :: '.' :: '.' :: '/' :: rest => dropDotSegments (beforeLast '/' output) ('/' :: rest)
  | ['/', '.', '.'] => dropDotSegments (beforeLast '/' output) ['/']
  | ['.'] => output
  | ['.', '.'] => output
  | c :: rest =>
    dropDotSegments (output ++ c :: rest.takeWhile (· != '/')) (rest.dropWhile (· != '/'))
termination_by remaining => remaining.length
decreasing_by
  all_goals simp only [List.length_cons, List.length_nil]
  all_goals try omega
  exact Nat.lt_succ_of_le (List.length_dropWhile_le _ _)

def removeDotSegments (path : Chars) : Chars :=
  let output := dropDotSegments [] path
  if output = [] then ['/'] else output

/-! ## Hosts -/

def specialUseSuffixes : List Chars :=
  ["alt", "arpa", "corp", "home", "internal", "invalid", "lan", "local", "localdomain", "localhost",
    "onion", "private", "test", "example", "example.com", "example.net", "example.org"].map
      String.toList

def isSpecialDomain (host : Chars) : Bool :=
  specialUseSuffixes.any fun suffix => host == suffix || ('.' :: suffix).isSuffixOf host

def isLabelChar (c : Char) : Bool := ('a' ≤ c && c ≤ 'z') || c.isDigit || c == '-'

/-- The label matches `[a-z0-9](?:[a-z0-9-]{0,61}[a-z0-9])?`. -/
def labelValid (label : Chars) : Bool :=
  !label.isEmpty && label.length ≤ 63 && label.all isLabelChar && label.head? != some '-' &&
    label.getLast? != some '-'

def withoutRoot (host : Chars) : Chars := if host.getLast? = some '.' then host.dropLast else host

section Domains

variable [Unicode]

/-- `text.encode("idna")`, undefined where it raises. An ASCII name stays as it is. -/
def encodeIdna (text : Chars) : Option Chars :=
  if isAscii text then
    let labels := splitAt '.' text
    if labels.dropLast.all (fun label => !label.isEmpty && label.length < 64) &&
        labels.getLast?.all (fun label => label.length < 64) then some text
    else none
  else Unicode.idnaEncode text

/-- `.encode("idna").decode("ascii").lower()`. -/
def asciiName (text : Chars) : Option Chars :=
  (encodeIdna text).bind fun name => if isAscii name then some (name.map Char.toLower) else none

/-- An internationalised label is the one that its characters have. -/
def checkIdnaLabel (label : Chars) : Except WebUrlPolicyError Unit :=
  if "xn--".toList.isPrefixOf label then
    match (Unicode.idnaDecode label).bind asciiName with
    | none => urlError .hostDenied "URL host contains invalid IDNA"
    | some name => failIf (name ≠ label) ⟨.hostDenied, "URL host contains non-canonical IDNA", []⟩
  else .ok ()

def checkLabels : List Chars → Except WebUrlPolicyError Unit
  | [] => .ok ()
  | label :: rest => do
      failIf (labelValid label = false)
        ⟨.hostDenied, "URL host contains a non-standard DNS label", []⟩
      checkIdnaLabel label
      checkLabels rest

/-- The checks of `_canonical_domain` on the ASCII name. -/
def checkDomain (name : Chars) : Except WebUrlPolicyError Unit := do
  let labels := splitAt '.' name
  failIf (labels.length < 2 ∨ labels.any List.isEmpty = true)
    ⟨.hostDenied, "Single-label and malformed hosts are not allowed", []⟩
  failIf (253 < name.length) ⟨.hostDenied, "URL host exceeds the DNS name limit", []⟩
  failIf (labels.all (fun label => label.all Char.isDigit) = true)
    ⟨.hostDenied, "Non-standard numeric hosts are not allowed", []⟩
  checkLabels labels
  failIf (isSpecialDomain name = true) ⟨.hostDenied, "Special-use domains are not allowed", []⟩

def canonicalDomain (host : Chars) : Except WebUrlPolicyError Chars := do
  let candidate := withoutRoot host
  failIf (candidate = [] ∨ candidate.contains '%' = true ∨ candidate.contains ':' = true)
    ⟨.hostDenied, "URL host is not a standard domain name", []⟩
  match asciiName candidate with
  | none => urlError .hostDenied "URL host cannot be canonicalized with IDNA"
  | some name => do
      checkDomain name
      pure name

end Domains

inductive AddressError where
  | invalidAddress
  | unsafeAddress
  deriving DecidableEq, Repr

section Addresses

variable (A : Type) [IpAddresses A]

/-- The address is not globally routable. -/
def isDenied (address : A) : Bool :=
  IpAddresses.isPrivate address || IpAddresses.isLoopback address ||
    IpAddresses.isLinkLocal address || IpAddresses.isMulticast address ||
    IpAddresses.isReserved address || IpAddresses.isUnspecified address ||
    IpAddresses.isSiteLocal address || !IpAddresses.isGlobal address

/-- The IPv4 address that an IPv6 address maps, or the address itself. A transition address
is refused. -/
def unmapped (address : A) : Except AddressError A :=
  if IpAddresses.isV6 address then
    match IpAddresses.ipv4Mapped address with
    | some mapped => .ok mapped
    | none => if IpAddresses.isTransition address then .error .unsafeAddress else .ok address
  else .ok address

def canonicalGlobalIp (value : Option Chars) : Except AddressError Chars :=
  match value with
  | none => .error .invalidAddress
  | some text =>
    if text = [] ∨ text.contains '%' = true then .error .invalidAddress
    else
      match (IpAddresses.parse text : Option A) with
      | none => .error .invalidAddress
      | some parsed => do
          let address ← unmapped A parsed
          failIf (isDenied A address = true) .unsafeAddress
          pure (IpAddresses.str address)

/-- `_canonical_host`: the host, and whether it is an address. -/
def canonicalHost [Unicode] (host : Chars) : Except WebUrlPolicyError (Chars × Bool) :=
  if host = [] then urlError .hostDenied "URL host is missing"
  else
    match canonicalGlobalIp A (some (withoutRoot host)) with
    | .ok address => .ok (address, true)
    | .error .unsafeAddress => urlError .addressDenied "URL address is not globally routable"
    | .error .invalidAddress => do
        let name ← canonicalDomain host
        pure (name, false)

end Addresses

/-! ## Resolved URLs -/

inductive Scheme where
  | http
  | https
  deriving DecidableEq, Repr

namespace Scheme

def name : Scheme → Chars
  | http => "http".toList
  | https => "https".toList

def defaultPort : Scheme → ℕ
  | http => 80
  | https => 443

def ofName (name : Chars) : Option Scheme :=
  if name = "http".toList then some http else if name = "https".toList then some https else none

end Scheme

structure DnsPinSnapshot where
  host : Chars
  port : ℕ
  addresses : List Chars
  deriving DecidableEq, Repr

structure ResolvedWebUrl where
  canonicalUrl : Chars
  scheme : Scheme
  host : Chars
  port : ℕ
  authority : Chars
  requestTarget : Chars
  pin : DnsPinSnapshot
  deriving DecidableEq, Repr

def maxResolvedAddresses : ℕ := 32

def bracketedHost (host : Chars) : Chars :=
  if host.contains ':' then '[' :: host ++ [']'] else host

def authorityOf (scheme : Scheme) (host : Chars) (port : ℕ) : Chars :=
  if port = scheme.defaultPort then bracketedHost host
  else bracketedHost host ++ ':' :: (toString port).toList

def checkPort (field : String) (port : ℕ) : Except UrlFailure Unit :=
  failIf (port < 1 ∨ 65535 < port) (.value (field ++ " must be between 1 and 65535"))

section Pins

variable (A : Type) [IpAddresses A]

def addressBefore (a b : Chars) : Bool :=
  match (IpAddresses.parse a : Option A), (IpAddresses.parse b : Option A) with
  | some x, some y => IpAddresses.before x y
  | _, _ => true

def sortAddresses (addresses : List Chars) : List Chars :=
  addresses.dedup.insertionSort fun a b => addressBefore A a b = true

/-- The constructor of `DnsPinSnapshot`. -/
def DnsPinSnapshot.make [Unicode] (host : Chars) (port : ℕ) (addresses : List Chars) :
    Except UrlFailure DnsPinSnapshot := do
  failIf (host = [] ∨ isAscii host = false)
    (.value "DNS pin host must be a canonical ASCII host")
  failIf (host ≠ host.map Char.toLower ∨ host.getLast? = some '.')
    (.value "DNS pin host is not canonical")
  match canonicalHost A host with
  | .error _ => .error (.value "DNS pin host is invalid")
  | .ok (canonical, _) => do
      failIf (canonical ≠ host) (.value "DNS pin host is not canonical")
      checkPort "DNS pin port" port
      failIf (addresses = [] ∨ maxResolvedAddresses < addresses.length)
        (.value "DNS pin must contain a bounded non-empty address set")
      match addresses.mapM fun value => canonicalGlobalIp A (some value) with
      | .error _ => .error (.value "DNS pin contains an invalid or unsafe address")
      | .ok canonical => .ok ⟨host, port, sortAddresses A canonical⟩

end Pins

/-- The constructor of `ResolvedWebUrl`. -/
def ResolvedWebUrl.make (resolved : ResolvedWebUrl) : Except UrlFailure ResolvedWebUrl := do
  checkPort "ResolvedWebUrl port" resolved.port
  failIf (resolved.pin.host ≠ resolved.host ∨ resolved.pin.port ≠ resolved.port)
    (.value "ResolvedWebUrl DNS pin does not match its authority")
  failIf (resolved.requestTarget.head? ≠ some '/' ∨ resolved.requestTarget.contains '#' = true)
    (.value "ResolvedWebUrl request_target is invalid")
  failIf (resolved.authority ≠ authorityOf resolved.scheme resolved.host resolved.port)
    (.value "ResolvedWebUrl authority is inconsistent")
  failIf (resolved.canonicalUrl ≠ resolved.scheme.name ++ ':' :: '/' :: '/' :: resolved.authority ++
      resolved.requestTarget)
    (.value "ResolvedWebUrl canonical_url is inconsistent")
  pure resolved

/-! ## The policy -/

/-- The settings of a `WebUrlPolicy`, as its constructor accepts them. -/
structure WebUrlPolicy where
  allowedPorts : Scheme → List ℕ
  maxUrlBytes : ℕ
  maxAddresses : ℕ
  ports : ∀ scheme, ∀ port ∈ allowedPorts scheme, 1 ≤ port ∧ port ≤ 65535
  bytes : 1 ≤ maxUrlBytes ∧ maxUrlBytes ≤ 16 * 1024
  addresses : 1 ≤ maxAddresses ∧ maxAddresses ≤ maxResolvedAddresses

/-- What the resolver does: it returns a list of values, of which some may be no strings, or
something that is no list, raises an exception, or is cancelled by the probe. -/
inductive DnsAnswer where
  | addresses (values : List (Option Chars))
  | noList
  | failed
  | cancelled (message : String)

/-- What the calls of one `resolve` return: whether the policy is closed, the probe before
and after, and the resolver. -/
structure ResolveCalls where
  closed : Bool
  first : Probe
  answer : Chars → ℕ → DnsAnswer
  last : Probe

/-- The probe has cancelled one of the calls. -/
def ResolveCalls.Cancelled (calls : ResolveCalls) : Prop :=
  calls.first ≠ .quiet ∨ calls.last ≠ .quiet ∨
    ∃ host port message, calls.answer host port = .cancelled message

def liftPolicy {α : Type} : Except WebUrlPolicyError α → Except UrlFailure α
  | .ok a => .ok a
  | .error e => .error (.policy e)

section Resolve

variable (A : Type) [IpAddresses A] (policy : WebUrlPolicy)

def verifyPeer (resolved : ResolvedWebUrl) (peer : Chars) : Except UrlFailure Unit :=
  match canonicalGlobalIp A (some peer) with
  | .error _ =>
    liftPolicy (urlError .addressDenied "Connected peer address is not globally routable")
  | .ok candidate => failIf (candidate ∉ resolved.pin.addresses) (.policy
      ⟨.dnsPinMismatch, "Connected peer does not match the DNS pin snapshot", []⟩)

variable [Unicode]

def canonicalAddresses : List (Option Chars) → Except WebUrlPolicyError (List Chars)
  | [] => .ok []
  | value :: rest =>
    match canonicalGlobalIp A value with
    | .error .invalidAddress =>
      urlError .dnsResolutionFailed "DNS resolver returned an invalid address"
    | .error .unsafeAddress =>
      urlError .addressDenied "DNS resolver returned a non-global address"
    | .ok address => do
        let others ← canonicalAddresses rest
        pure (address :: others)

def resolveAll (answer : DnsAnswer) : Except UrlFailure (List Chars) :=
  match answer with
  | .cancelled message => .error (.cancelled message)
  | .failed => liftPolicy (urlError .dnsResolutionFailed "DNS resolution failed")
  | .noList =>
    liftPolicy (urlError .dnsResolutionFailed "DNS resolver returned an invalid address set")
  | .addresses values => do
      failIf (values = [] ∨ policy.maxAddresses < values.length) (.policy
        ⟨.dnsResolutionFailed, "DNS resolver returned an empty or oversized address set",
          [("max_addresses", policy.maxAddresses)]⟩)
      let addresses ← liftPolicy (canonicalAddresses A values)
      pure (sortAddresses A addresses)

/-- The parts of a URL that the policy lets through: its scheme, host and port, and whether
the host is an address. -/
def checkAuthority (parts : SplitResult) :
    Except WebUrlPolicyError (Scheme × (Chars × Bool) × ℕ) :=
  match Scheme.ofName parts.scheme with
  | none => urlError .schemeDenied "Only http and https URLs are allowed"
  | some scheme => do
      failIf (parts.netloc = []) ⟨.hostDenied, "URL host is missing", []⟩
      failIf (parts.netloc.contains '@' = true)
        ⟨.userinfoDenied, "URL user information is not allowed", []⟩
      match parts.port with
      | none => urlError .invalidUrl "URL authority is invalid"
      | some parsedPort => do
          let host ← canonicalHost A parts.hostname
          let port := parsedPort.getD scheme.defaultPort
          failIf (port ∉ policy.allowedPorts scheme)
            ⟨.portDenied, "URL port is outside the allowlist", [("port", port)]⟩
          pure (scheme, host, port)

/-- The URL as it is requested: path, query and the whole. -/
def canonicalUrlOf (parts : SplitResult) (scheme : Scheme) (host : Chars) (port : ℕ) :
    Except WebUrlPolicyError (Chars × Chars × Chars) := do
  let path ← canonicalizeUrlComponent isPathSafe
    (if parts.path = [] then ['/'] else parts.path)
  let path := removeDotSegments path
  let query ← canonicalizeUrlComponent isQuerySafe parts.query
  let url := urlunsplit ⟨scheme.name, authorityOf scheme host port, path, query, []⟩
  failIf (policy.maxUrlBytes < utf8Size url)
    ⟨.urlTooLong, "Canonical URL exceeds its size limit", [("max_url_bytes", policy.maxUrlBytes)]⟩
  pure (path, query, url)

def resolve (calls : ResolveCalls) (url : RawText) : Except UrlFailure ResolvedWebUrl := do
  failIf (calls.closed = true) (.policy ⟨.dnsResolutionFailed, "URL policy is closed", []⟩)
  raiseIfCancelled calls.first
  let text ← liftPolicy (validateRawUrlText "URL" policy.maxUrlBytes url)
  match urlsplit A [] text with
  | none => liftPolicy (urlError .invalidUrl "URL cannot be parsed")
  | some parts => do
      let (scheme, (host, isIpLiteral), port) ← liftPolicy (checkAuthority A policy parts)
      let (path, query, canonicalUrl) ← liftPolicy (canonicalUrlOf policy parts scheme host port)
      let addresses ← if isIpLiteral then pure [host]
        else resolveAll A policy (calls.answer host port)
      raiseIfCancelled calls.last
      let pin ← DnsPinSnapshot.make A host port addresses
      ResolvedWebUrl.make
        { canonicalUrl := canonicalUrl
          scheme := scheme
          host := host
          port := port
          authority := authorityOf scheme host port
          requestTarget := if query = [] then path else path ++ '?' :: query
          pin := pin }

def validateRedirect (probe : Probe) (calls : ResolveCalls) (base : ResolvedWebUrl)
    (location : RawText) : Except UrlFailure ResolvedWebUrl := do
  raiseIfCancelled probe
  match validateRawUrlText "redirect location" policy.maxUrlBytes location with
  | .error e =>
    if e.code = .urlTooLong then .error (.policy e)
    else liftPolicy (urlError .redirectDenied "Redirect location is invalid")
  | .ok text =>
    match urljoin A base.canonicalUrl text with
    | none => liftPolicy (urlError .redirectDenied "Redirect location is invalid")
    | some url => resolve A policy calls (url.map some)

end Resolve

end SuperMew.WebResearch
