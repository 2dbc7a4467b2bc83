import SuperMew.WebResearch.Client
import SuperMew.WebResearch.Resolution

/-! The requests that the client makes stay inside the policy. -/

namespace SuperMew.WebResearch

/-! ## Redirects -/

theorem liftUrl_eq_ok {α : Type} {result : Except UrlFailure α} {a : α} :
    liftUrl result = .ok a ↔ result = .ok a := by
  cases result <;> simp [liftUrl]

variable {follow : Follow} {A : Type} {resolved : ResolvedWebUrl} {stays : Prop}

/-- What a redirect may change: the next URL is inside the policy and not less secure, and at
another origin only public headers are left. A redirect that `stays` keeps its origin. -/
structure SafeRedirect (A : Type) [IpAddresses A] [Unicode] (policy : WebUrlPolicy) (stays : Prop)
    (current : ResolvedWebUrl) (before : Headers) (redirected : ResolvedWebUrl) (after : Headers) :
    Prop where
  valid : UrlValid A policy redirected
  secure : current.scheme = .https → redirected.scheme = .https
  headers : origin redirected = origin current ∧ after = before ∨
    ¬ stays ∧ after = before.filter isPublicHeader

def SafeFollow (A : Type) [IpAddresses A] [Unicode] (policy : WebUrlPolicy) (stays : Prop)
    (follow : Follow) : Prop :=
  ∀ {hop current before status location redirected after},
    follow hop current before status location = .ok (redirected, after) →
      SafeRedirect A policy stays current before redirected after

section Redirects

variable [IpAddresses A] [Unicode] [LawfulIpAddresses A] {policy : WebUrlPolicy}

theorem resolve_valid {calls : ResolveCalls} {url : RawText}
    (h : resolve A policy calls url = .ok resolved) : UrlValid A policy resolved := by
  have houtcome : ResolveOutcome A policy calls (resolve A policy calls url) :=
    resolve_outcome calls url
  rw [h] at houtcome
  cases houtcome with
  | resolved hvalid => exact hvalid

theorem validateRedirect_valid {probe : Probe} {calls : ResolveCalls} {base : ResolvedWebUrl}
    {location : RawText} (h : validateRedirect A policy probe calls base location = .ok resolved) :
    UrlValid A policy resolved := by
  simp only [validateRedirect, ok_rules] at h
  obtain ⟨_, -, h⟩ := h
  split at h
  · split at h
    · cases h
    · cases h
  · split at h
    · cases h
    · exact resolve_valid h

theorem followGet_safe : SafeFollow A policy False (followGet A policy) := by
  intro _ current headers _ _ redirected _ h
  simp only [followGet, bind_eq_ok, failIf_eq_ok, pure_eq_ok] at h
  obtain ⟨found, hfound, _, -, _, hsecure, heq⟩ := h
  cases heq
  refine ⟨validateRedirect_valid (liftUrl_eq_ok.mp hfound), fun hhttps => ?_, ?_⟩
  · exact not_not.mp fun hplain => hsecure ⟨hhttps, hplain⟩
  · by_cases hsame : origin current = origin redirected
    · exact .inl ⟨hsame.symm, if_pos hsame⟩
    · exact .inr ⟨not_false, if_neg hsame⟩

theorem followPost_safe : SafeFollow A policy True (followPost A policy) := by
  intro _ _ _ _ _ _ _ h
  simp only [followPost, bind_eq_ok, failIf_eq_ok, pure_eq_ok] at h
  obtain ⟨_, -, found, hfound, _, hsecure, _, hsame, heq⟩ := h
  cases heq
  refine ⟨validateRedirect_valid (liftUrl_eq_ok.mp hfound), fun hhttps => ?_,
    .inl ⟨(not_not.mp hsame).symm, rfl⟩⟩
  exact not_not.mp fun hplain => hsecure ⟨hhttps, hplain⟩

end Redirects

/-! ## Responses -/

variable {current : ResolvedWebUrl} {headers : Headers}

section Responses

variable [IpAddresses A] {arguments : FetchArguments} {hop : Hop} {redirects : ℕ}

/-- The response comes from an address that the URL is pinned to. -/
def PeerPinned (A : Type) [IpAddresses A] (hop : Hop) (url : ResolvedWebUrl) : Prop :=
  ∃ response, hop.answer = .ok response ∧
    ∃ address ∈ url.pin.addresses, canonicalGlobalIp A (some response.peerIp) = .ok address

theorem verifyPeer_ok {peer : Chars} (h : verifyPeer A current peer = .ok ()) :
    ∃ address ∈ current.pin.addresses, canonicalGlobalIp A (some peer) = .ok address := by
  unfold verifyPeer at h
  split at h
  · cases h
  · rename_i candidate hcandidate
    rw [failIf_eq_ok] at h
    exact ⟨candidate, not_not.mp h, hcandidate⟩

variable [Unicode]

/-- A round that goes on has verified its peer, and either ends or follows a redirect. -/
theorem handleResponse_ok {next : Next}
    (h : handleResponse A follow arguments hop redirects current headers = .ok next) :
    PeerPinned A hop current ∧ ∀ url headers', next = .follow url headers' →
      ∃ status location, follow hop current headers status location = .ok (url, headers') := by
  simp only [handleResponse, ok_rules] at h
  obtain ⟨response, hresponse, _, -, _, hpeer, _, -, h⟩ := h
  refine ⟨⟨response, hresponse, verifyPeer_ok (liftUrl_eq_ok.mp hpeer)⟩, ?_⟩
  rintro url headers' rfl
  split at h
  · split at h
    · cases h
    · rename_i location _
      simp only [ok_rules] at h
      obtain ⟨_, -, ⟨redirected, found⟩, hfollow, heq⟩ := h
      cases heq
      exact ⟨_, _, hfollow⟩
  · simp only [ok_rules] at h
    obtain ⟨_, -, _, -, _, -, heq⟩ := h
    cases heq

end Responses

/-! ## The loop -/

section Loop

variable [IpAddresses A] [Unicode] {policy : WebUrlPolicy}

/-- The headers and the body of a request may be sent to the URL: it is at the first origin,
or they are public headers alone. -/
def MaySend (first : Scheme × Chars × ℕ) (supplied : Headers) (request : Request) : Prop :=
  (∀ header ∈ request.headers, header ∈ supplied) ∧
    (origin request.url = first ∨
      (∀ header ∈ request.headers, isPublicHeader header = true) ∧ request.body = none)

/-- What holds of the requests of the loop from some round on: the URLs are inside the
policy, new and pairwise distinct, none is plain after a secure one, and the peers of all
rounds but the last are verified, as is the last one if the loop returns. -/
structure LoopInside (A : Type) [IpAddresses A] [Unicode] (policy : WebUrlPolicy)
    (first : Scheme × Chars × ℕ) (supplied : Headers) (hops : ℕ → Hop) (rounds redirects : ℕ)
    (current : ResolvedWebUrl) (visited : List Chars)
    (run : List Request × Except FetchFailure WebHttpFetch) : Prop where
  head : ∀ request ∈ run.1.head?, request.url = current
  valid : ∀ request ∈ run.1, UrlValid A policy request.url
  bounded : run.1.length ≤ rounds
  fresh : ∀ request ∈ run.1, request.url.canonicalUrl ∉ visited
  distinct : (run.1.map fun request => request.url.canonicalUrl).Nodup
  secure : current.scheme = .https → ∀ request ∈ run.1, request.url.scheme = .https
  ordered : run.1.Pairwise fun a b => a.url.scheme = .https → b.url.scheme = .https
  sends : ∀ request ∈ run.1, MaySend first supplied request
  peers : ∀ i request, run.1[i]? = some request →
    i + 1 < run.1.length ∨ run.2.isOk = true → PeerPinned A (hops (redirects + i)) request.url

variable {first : Scheme × Chars × ℕ} {supplied : Headers} {hops : ℕ → Hop} {rounds redirects : ℕ}
  {visited : List Chars}

theorem LoopInside.empty (failure : FetchFailure) :
    LoopInside A policy first supplied hops rounds redirects current visited
      ([], .error failure) := by
  refine ⟨?_, ?_, Nat.zero_le _, ?_, .nil, ?_, .nil, ?_, ?_⟩ <;> simp

theorem LoopInside.single {request : Request} {result : Except FetchFailure WebHttpFetch}
    (hurl : request.url = current) (hvalid : UrlValid A policy current)
    (hfresh : current.canonicalUrl ∉ visited) (hsend : MaySend first supplied request)
    (hpeer : result.isOk = true → PeerPinned A (hops redirects) current) :
    LoopInside A policy first supplied hops (rounds + 1) redirects current visited
      ([request], result) := by
  subst hurl
  refine ⟨by simp, by simpa using hvalid, by simp, by simpa using hfresh, by simp,
    by simp, by simp, by simpa using hsend, fun i found hfound hend => ?_⟩
  cases i with
  | zero =>
    cases hfound
    exact hpeer (hend.resolve_left (by simp))
  | succ i => simp at hfound

theorem LoopInside.cons {request : Request} {redirected : ResolvedWebUrl}
    {run : List Request × Except FetchFailure WebHttpFetch}
    (hurl : request.url = current) (hvalid : UrlValid A policy current)
    (hfresh : current.canonicalUrl ∉ visited) (hsend : MaySend first supplied request)
    (hpeer : PeerPinned A (hops redirects) current)
    (hsecure : current.scheme = .https → redirected.scheme = .https)
    (hrest : LoopInside A policy first supplied hops rounds (redirects + 1) redirected
      (current.canonicalUrl :: visited) run) :
    LoopInside A policy first supplied hops (rounds + 1) redirects current visited
      (request :: run.1, run.2) := by
  subst hurl
  refine ⟨by simp, ?_, by simpa using hrest.bounded, ?_, ?_, ?_, ?_, ?_, ?_⟩
  · exact List.forall_mem_cons.mpr ⟨hvalid, hrest.valid⟩
  · refine List.forall_mem_cons.mpr ⟨hfresh, fun other hother => ?_⟩
    exact fun hmem => hrest.fresh other hother (List.mem_cons_of_mem _ hmem)
  · refine List.nodup_cons.mpr ⟨fun hmem => ?_, hrest.distinct⟩
    obtain ⟨other, hother, hsame⟩ := List.mem_map.mp hmem
    exact hrest.fresh other hother (hsame ▸ List.mem_cons_self)
  · intro hhttps
    exact List.forall_mem_cons.mpr ⟨hhttps, hrest.secure (hsecure hhttps)⟩
  · refine List.pairwise_cons.mpr ⟨fun other hother hhttps => ?_, hrest.ordered⟩
    exact hrest.secure (hsecure hhttps) other hother
  · exact List.forall_mem_cons.mpr ⟨hsend, hrest.sends⟩
  · intro i found hfound hend
    cases i with
    | zero =>
      cases hfound
      exact hpeer
    | succ i =>
      have hround := hrest.peers i found hfound (by simpa using hend)
      rwa [Nat.add_assoc, Nat.add_comm 1] at hround

/-- Every run of the loop stays inside the policy. -/
theorem fetchLoop_inside (hfollow : SafeFollow A policy stays follow)
    {arguments : FetchArguments} {body : Option Body} (hbody : body = none ∨ stays)
    (hvalid : UrlValid A policy current) (hsend : MaySend first supplied ⟨current, headers, body⟩) :
    LoopInside A policy first supplied hops rounds redirects current visited
      (fetchLoop A follow arguments body hops rounds redirects current headers visited) := by
  induction rounds generalizing redirects current headers visited with
  | zero => exact .empty _
  | succ rounds ih =>
    rw [fetchLoop]
    split
    · exact .empty _
    · by_cases hvisited : current.canonicalUrl ∈ visited
      · rw [if_pos hvisited]
        exact .empty _
      · rw [if_neg hvisited]
        dsimp only
        split
        · exact .single rfl hvalid hvisited hsend (by simp [Except.isOk, Except.toBool])
        · rename_i hresponse
          exact .single rfl hvalid hvisited hsend fun _ => (handleResponse_ok hresponse).1
        · rename_i redirected headers' hresponse
          obtain ⟨hpeer, hnext⟩ := handleResponse_ok hresponse
          obtain ⟨status, location, hredirect⟩ := hnext redirected headers' rfl
          refine .cons rfl hvalid hvisited hsend hpeer (hfollow hredirect).secure
            (ih (hfollow hredirect).valid ?_)
          obtain ⟨hsupplied, hexposed⟩ := hsend
          rcases (hfollow hredirect).headers with ⟨horigin, rfl⟩ | ⟨hleaves, rfl⟩
          · refine ⟨hsupplied, hexposed.imp_left fun hfirst => ?_⟩
            exact horigin.trans hfirst
          · refine ⟨fun header hheader => hsupplied header (List.mem_filter.mp hheader).1,
              .inr ⟨fun header hheader => (List.mem_filter.mp hheader).2, ?_⟩⟩
            exact hbody.resolve_right hleaves

end Loop

/-! ## Requests -/

section Requests

variable [IpAddresses A] [Unicode] {policy : WebUrlPolicy}

/-- The requests of one call of the client. Headers that are not public, and the body, go to
the origin of the first URL alone. -/
structure RequestsInside (A : Type) [IpAddresses A] [Unicode] (policy : WebUrlPolicy)
    (calls : FetchCalls) (arguments : FetchArguments)
    (run : List Request × Except FetchFailure WebHttpFetch) : Prop where
  valid : ∀ request ∈ run.1, UrlValid A policy request.url
  bounded : run.1.length ≤ arguments.maxRedirects.toNat + 1
  distinct : (run.1.map fun request => request.url.canonicalUrl).Nodup
  ordered : run.1.Pairwise fun a b => a.url.scheme = .https → b.url.scheme = .https
  sends : ∀ first ∈ run.1.head?, ∀ request ∈ run.1,
    MaySend (origin first.url) arguments.headers request
  peers : ∀ i request, run.1[i]? = some request →
    i + 1 < run.1.length ∨ run.2.isOk = true → PeerPinned A (calls.hops i) request.url

theorem RequestsInside.empty {calls : FetchCalls} {arguments : FetchArguments}
    (failure : FetchFailure) : RequestsInside A policy calls arguments ([], .error failure) := by
  refine ⟨?_, Nat.zero_le _, .nil, .nil, ?_, ?_⟩ <;> simp

theorem prepare_valid [LawfulIpAddresses A] {calls : FetchCalls} {arguments : FetchArguments}
    {settled : Checkpoint → Except FetchFailure Unit} {url : RawText}
    (h : prepare A policy calls arguments settled url = .ok current) :
    UrlValid A policy current := by
  simp only [prepare, ok_rules] at h
  obtain ⟨_, -, _, -, resolved, hresolved, _, -, rfl⟩ := h
  exact resolve_valid (liftUrl_eq_ok.mp hresolved)

theorem fetch_inside [LawfulIpAddresses A]
    (hfollow : SafeFollow A policy stays follow) {body : Option Body}
    (hbody : body = none ∨ stays) (settled : Checkpoint → Except FetchFailure Unit)
    (calls : FetchCalls) (arguments : FetchArguments) (url : RawText) :
    RequestsInside A policy calls arguments
      (fetch A policy follow settled calls arguments body url) := by
  unfold fetch
  split
  · exact .empty _
  · rename_i current hcurrent
    have hsend : MaySend (origin current) arguments.headers ⟨current, arguments.headers, body⟩ :=
      ⟨fun _ hheader => hheader, .inl rfl⟩
    have hloop : LoopInside A policy (origin current) arguments.headers calls.hops
        (arguments.maxRedirects.toNat + 1) 0 current []
        (fetchLoop A follow arguments body calls.hops (arguments.maxRedirects.toNat + 1) 0 current
          arguments.headers []) :=
      fetchLoop_inside hfollow hbody (prepare_valid hcurrent) hsend
    refine ⟨hloop.valid, hloop.bounded, hloop.distinct, hloop.ordered,
      fun first hfirst request hrequest => ?_, fun i request hi hend => ?_⟩
    · rw [hloop.head first hfirst]
      exact hloop.sends request hrequest
    · have hpeer := hloop.peers i request hi hend
      rwa [Nat.zero_add] at hpeer

theorem post_inside [LawfulIpAddresses A] (calls : FetchCalls) (arguments : FetchArguments)
    (body : Body) (url : RawText) :
    RequestsInside A policy calls arguments (post A policy calls arguments body url) := by
  unfold post
  split
  · exact .empty _
  · exact fetch_inside followPost_safe (.inr trivial) _ calls arguments url

end Requests

/-- Outbound requests stay inside the policy, whatever resolvers and servers answer. -/
theorem web_requests_inside_policy (A : Type) [IpAddresses A] [LawfulIpAddresses A] [Unicode]
    (policy : WebUrlPolicy) :
    (∀ calls url, ResolveOutcome A policy calls (resolve A policy calls url)) ∧
      (∀ (resolved : ResolvedWebUrl) (peer : Chars), verifyPeer A resolved peer = .ok () →
        ∃ address ∈ resolved.pin.addresses, canonicalGlobalIp A (some peer) = .ok address) ∧
      (∀ calls arguments url,
        RequestsInside A policy calls arguments (get A policy calls arguments url)) ∧
      ∀ calls arguments body url,
        RequestsInside A policy calls arguments (post A policy calls arguments body url) := by
  refine ⟨resolve_outcome, fun resolved peer => verifyPeer_ok, fun calls arguments url => ?_,
    fun calls arguments body url => post_inside calls arguments body url⟩
  exact fetch_inside followGet_safe (.inl rfl) checkpoint calls arguments url

/-! ## Samples -/

namespace Sample

/-- Two addresses, one of them global. -/
inductive Address where
  | server
  | loopback
  deriving DecidableEq

def addressText : Address → Chars
  | .server => "93.184.216.34".toList
  | .loopback => "127.0.0.1".toList

def parseAddress (text : Chars) : Option Address :=
  if text = addressText .server then some .server
  else if text = addressText .loopback then some .loopback
  else none

instance : IpAddresses Address where
  parse := parseAddress
  str := addressText
  isV6 _ := false
  ipv4Mapped _ := none
  isTransition _ := false
  isPrivate address := address = .loopback
  isLoopback address := address = .loopback
  isLinkLocal _ := false
  isMulticast _ := false
  isReserved _ := false
  isUnspecified _ := false
  isSiteLocal _ := false
  isGlobal address := address = .server
  before a _ := a = .server

theorem parseAddress_text {text : Chars} {address : Address}
    (h : parseAddress text = some address) : text = addressText address := by
  unfold parseAddress at h
  split at h
  · rename_i htext
    cases h
    exact htext
  · split at h
    · rename_i htext
      cases h
      exact htext
    · cases h

instance : LawfulIpAddresses Address where
  parse_v4 text address h _ := by
    rw [parseAddress_text h]
    cases address <;> decide
  parse_v6 _ _ _ _ h := by cases h
  mapped _ _ _ h := by cases h
  parse_str address _ := by cases address <;> decide
  str_chars address _ := by
    cases address <;> exact List.all_iff_forall_prop.mp (by decide)

/-- Texts that are not ASCII are refused. -/
instance : Unicode where
  lower text := text
  casefold text := text
  expands _ := true
  idnaEncode _ := none
  idnaDecode _ := none

def policy : WebUrlPolicy where
  allowedPorts scheme := [scheme.defaultPort]
  maxUrlBytes := 2048
  maxAddresses := 8
  ports scheme := by cases scheme <;> decide
  bytes := by decide
  addresses := by decide

def raw (text : String) : RawText := text.toList.map some

/-- The resolver knows the host of the page. -/
def quiet : ResolveCalls :=
  ⟨false, .quiet, fun host _ =>
    if host = "pages.net".toList then .addresses [some (addressText .server)] else .failed,
    .quiet⟩

def response (status : ℕ) (location : Option RawText) : WebHttpResponse :=
  ⟨status, some "text/html".toList, none, location, [], addressText .server⟩

def hop (answer : WebHttpResponse) : Hop :=
  ⟨⟨.quiet, false⟩, .ok answer, ⟨.quiet, false⟩, .quiet, quiet, ⟨.quiet, false⟩⟩

/-- The server redirects the first request. -/
def calls : FetchCalls :=
  ⟨⟨.quiet, false⟩, quiet, ⟨.quiet, false⟩, fun i =>
    if i = 0 then hop (response 302 (some (raw "/b/../c"))) else hop (response 200 none)⟩

def arguments : FetchArguments :=
  ⟨[("Authorization".toList, "secret".toList)], ["text/html".toList], 4096, 4096, 3, true, true⟩

end Sample

open Sample in
/-- A request to a host that the resolver answers for, and the one that it is redirected to. -/
theorem redirected_request_inside :
    ((get Address policy calls arguments (raw "https://Pages.net/a")).1.map fun request =>
        (String.ofList request.url.canonicalUrl, request.url.pin.addresses.map String.ofList)) =
      [("https://pages.net/a", ["93.184.216.34"]),
        ("https://pages.net/c", ["93.184.216.34"])] ∧
      RequestsInside Address policy calls arguments
        (get Address policy calls arguments (raw "https://Pages.net/a")) :=
  ⟨by decide +kernel, (web_requests_inside_policy Address policy).2.2.1 calls arguments _⟩

end SuperMew.WebResearch
