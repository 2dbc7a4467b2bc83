import SuperMew.WebResearch.UrlPolicy

/-! `SafeWebHttpClient`: requests that follow redirects, each of them checked by the policy. -/

namespace SuperMew.WebResearch

inductive WebHttpErrorCode where
  | connectionFailed
  | tlsFailed
  | requestTimeout
  | deadlineExceeded
  | invalidResponse
  | httpStatus
  | contentTypeDenied
  | contentEncodingDenied
  | responseTooLarge
  | redirectDenied
  | redirectLimitExceeded
  deriving DecidableEq, Repr

structure WebHttpError where
  code : WebHttpErrorCode
  retryable : Bool
  safeDetails : List (String × ℕ)
  deriving DecidableEq, Repr

/-- What a request can raise: an error of the client or of its transport, an error of the
policy, or the cancellation. -/
inductive FetchFailure where
  | http (error : WebHttpError)
  | url (failure : UrlFailure)
  | cancelled (message : String)
  | value (message : String)
  deriving DecidableEq, Repr

def httpError {α : Type} (code : WebHttpErrorCode) : Except FetchFailure α :=
  .error (.http ⟨code, false, []⟩)

def liftUrl {α : Type} : Except UrlFailure α → Except FetchFailure α
  | .ok a => .ok a
  | .error e => .error (.url e)

/-! ## Calls -/

abbrev Body := List UInt8

abbrev Headers := List (Chars × Chars)

/-- A response, with the headers that the client keeps. -/
structure WebHttpResponse where
  status : ℕ
  contentType : Option Chars
  contentEncoding : Option Chars
  location : Option RawText
  body : Body
  peerIp : Chars

structure WebHttpFetch where
  resolved : ResolvedWebUrl
  response : WebHttpResponse
  redirects : ℕ

/-- A request that the transport is given. -/
structure Request where
  url : ResolvedWebUrl
  headers : Headers
  body : Option Body

/-- `_checkpoint`: what the probe says, and whether the deadline is over. -/
structure Checkpoint where
  probe : Probe
  expired : Bool

def checkpoint (point : Checkpoint) : Except FetchFailure Unit :=
  match point.probe with
  | .fires => .error (.cancelled "web request cancelled")
  | .fails => .error (.cancelled "web cancellation probe failed")
  | .quiet => failIf (point.expired = true) (.http ⟨.deadlineExceeded, true, []⟩)

/-- What the calls of one round return: the transport, the policy and the checkpoints. -/
structure Hop where
  before : Checkpoint
  answer : Except FetchFailure WebHttpResponse
  after : Checkpoint
  probe : Probe
  resolving : ResolveCalls
  redirected : Checkpoint

/-- What the calls of one request return, whatever the servers and resolvers do. -/
structure FetchCalls where
  start : Checkpoint
  resolving : ResolveCalls
  resolved : Checkpoint
  hops : ℕ → Hop

/-- The arguments of a request. Of `timeout_seconds` and `deadline_at` it is kept whether they
pass their checks. -/
structure FetchArguments where
  headers : Headers
  allowedContentTypes : List Chars
  maxCompressedBytes : ℤ
  maxResponseBytes : ℤ
  maxRedirects : ℤ
  timeoutPositive : Bool
  deadlineFinite : Bool

def hardMaxBodyBytes : ℤ := 8 * 1024 * 1024

def hardMaxRedirects : ℤ := 10

def checkBodyLimit (field : String) (value : ℤ) : Except FetchFailure Unit := do
  failIf (value ≤ 0) (.value (field ++ " must be a positive integer"))
  failIf (hardMaxBodyBytes < value) (.value (field ++ " exceeds the hard response byte limit"))

def checkArguments (arguments : FetchArguments) : Except FetchFailure Unit := do
  checkBodyLimit "max_compressed_bytes" arguments.maxCompressedBytes
  checkBodyLimit "max_response_bytes" arguments.maxResponseBytes
  failIf (arguments.timeoutPositive = false) (.value "timeout_seconds must be positive")
  failIf (arguments.maxRedirects < 0 ∨ hardMaxRedirects < arguments.maxRedirects)
    (.value "max_redirects must be between 0 and 10")
  failIf (arguments.deadlineFinite = false) (.value "deadline_at must be finite")

/-! ## Redirects -/

def origin (url : ResolvedWebUrl) : Scheme × Chars × ℕ := (url.scheme, url.host, url.port)

section Client

variable (A : Type) [Unicode] (policy : WebUrlPolicy)

def isPublicHeader (header : Chars × Chars) : Bool :=
  casefold header.1 == "accept".toList || casefold header.1 == "user-agent".toList

def validateContentType (allowed : List Chars) (contentType : Option Chars) :
    Except FetchFailure Unit :=
  let mediaType := casefold (stripChars (partition ';' (contentType.getD [])).1)
  failIf (mediaType = [] ∨ mediaType ∉ allowed) (.http ⟨.contentTypeDenied, false, []⟩)

def validateEncoding (contentEncoding : Option Chars) : Except FetchFailure Unit :=
  let encoding := casefold (stripChars (contentEncoding.getD "identity".toList))
  failIf (encoding ∉ [[], "identity".toList, "gzip".toList])
    (.http ⟨.contentEncodingDenied, false, []⟩)

variable [IpAddresses A]

def isRedirect (status : ℕ) : Bool := [301, 302, 303, 307, 308].contains status

/-- The redirected URL of `get`, and the headers that are sent to it. -/
def followGet (hop : Hop) (current : ResolvedWebUrl) (headers : Headers) (_status : ℕ)
    (location : RawText) : Except FetchFailure (ResolvedWebUrl × Headers) := do
  let redirected ← liftUrl (validateRedirect A policy hop.probe hop.resolving current location)
  checkpoint hop.redirected
  failIf (current.scheme = .https ∧ redirected.scheme ≠ .https)
    (.http ⟨.redirectDenied, false, []⟩)
  pure (redirected, if origin current = origin redirected then headers
    else headers.filter isPublicHeader)

/-- The redirected URL of `post`, which stays at its origin. -/
def followPost (hop : Hop) (current : ResolvedWebUrl) (headers : Headers) (status : ℕ)
    (location : RawText) : Except FetchFailure (ResolvedWebUrl × Headers) := do
  failIf (status ≠ 307 ∧ status ≠ 308) (.http ⟨.redirectDenied, false, []⟩)
  let redirected ← liftUrl (validateRedirect A policy hop.probe hop.resolving current location)
  failIf (current.scheme = .https ∧ redirected.scheme ≠ .https)
    (.http ⟨.redirectDenied, false, []⟩)
  failIf (origin current ≠ origin redirected) (.http ⟨.redirectDenied, false, []⟩)
  pure (redirected, headers)

/-! ## Responses -/

/-- What comes after a response: its end, or the next request. -/
inductive Next where
  | done (fetch : WebHttpFetch)
  | follow (url : ResolvedWebUrl) (headers : Headers)

/-- How a redirect is followed by `get` or by `post`. -/
abbrev Follow := Hop → ResolvedWebUrl → Headers → ℕ → RawText →
  Except FetchFailure (ResolvedWebUrl × Headers)

/-- The round after the transport has answered. -/
def handleResponse (follow : Follow) (arguments : FetchArguments) (hop : Hop) (redirects : ℕ)
    (current : ResolvedWebUrl) (headers : Headers) : Except FetchFailure Next := do
  let response ← hop.answer
  checkpoint hop.after
  liftUrl (verifyPeer A current response.peerIp)
  failIf (arguments.maxResponseBytes < response.body.length)
    (.http ⟨.responseTooLarge, false, []⟩)
  if isRedirect response.status then
    match response.location with
    | none => httpError .redirectLimitExceeded
    | some location => do
        failIf (arguments.maxRedirects ≤ redirects) (.http ⟨.redirectLimitExceeded, false, []⟩)
        let (redirected, headers) ← follow hop current headers response.status location
        pure (.follow redirected headers)
  else do
    failIf (response.status < 200 ∨ 299 < response.status) (.http ⟨.httpStatus,
      [408, 425, 429].contains response.status || 500 ≤ response.status,
      [("status_code", response.status)]⟩)
    validateContentType arguments.allowedContentTypes response.contentType
    validateEncoding response.contentEncoding
    pure (.done ⟨current, response, redirects⟩)

/-- The loop over redirects: the requests that are made, and how it ends. -/
def fetchLoop (follow : Follow) (arguments : FetchArguments) (body : Option Body)
    (hops : ℕ → Hop) : ℕ → ℕ → ResolvedWebUrl → Headers → List Chars →
      List Request × Except FetchFailure WebHttpFetch
  | 0, _, _, _, _ => ([], httpError .redirectLimitExceeded)
  | rounds + 1, redirects, current, headers, visited =>
    match checkpoint (hops redirects).before with
    | .error e => ([], .error e)
    | .ok _ =>
      if current.canonicalUrl ∈ visited then ([], httpError .redirectLimitExceeded)
      else
        let request : Request := ⟨current, headers, body⟩
        match handleResponse A follow arguments (hops redirects) redirects current headers with
        | .error e => ([request], .error e)
        | .ok (.done fetch) => ([request], .ok fetch)
        | .ok (.follow redirected headers) =>
          let (requests, result) := fetchLoop follow arguments body hops rounds
            (redirects + 1) redirected headers (current.canonicalUrl :: visited)
          (request :: requests, result)

/-- What `get` and `post` do before the loop. `settled` is the checkpoint after `resolve`,
which only `get` has. -/
def prepare (calls : FetchCalls) (arguments : FetchArguments) (settled : Checkpoint → Except FetchFailure Unit)
    (url : RawText) : Except FetchFailure ResolvedWebUrl := do
  checkArguments arguments
  checkpoint calls.start
  let resolved ← liftUrl (resolve A policy calls.resolving url)
  settled calls.resolved
  pure resolved

def fetch (follow : Follow) (settled : Checkpoint → Except FetchFailure Unit) (calls : FetchCalls)
    (arguments : FetchArguments) (body : Option Body) (url : RawText) :
    List Request × Except FetchFailure WebHttpFetch :=
  match prepare A policy calls arguments settled url with
  | .error e => ([], .error e)
  | .ok current => fetchLoop A follow arguments body calls.hops (arguments.maxRedirects.toNat + 1)
      0 current arguments.headers []

def get (calls : FetchCalls) (arguments : FetchArguments) (url : RawText) :
    List Request × Except FetchFailure WebHttpFetch :=
  fetch A policy (followGet A policy) checkpoint calls arguments none url

def post (calls : FetchCalls) (arguments : FetchArguments) (body : Body) (url : RawText) :
    List Request × Except FetchFailure WebHttpFetch :=
  if hardMaxBodyBytes < body.length then
    ([], .error (.value "request body exceeds the hard byte limit"))
  else fetch A policy (followPost A policy) (fun _ => .ok ()) calls arguments (some body) url

end Client

end SuperMew.WebResearch
