import Mathlib.Data.List.Dedup
import SuperMew.WebResearch.DotSegments
import SuperMew.WebResearch.Reparse

/-! What `resolve` returns and raises. -/

namespace SuperMew.WebResearch

theorem liftPolicy_eq_ok {α : Type} {result : Except WebUrlPolicyError α} {a : α} :
    liftPolicy result = .ok a ↔ result = .ok a := by
  cases result with
  | error e =>
    constructor
    · intro h
      cases h
    · intro h
      cases h
  | ok b => simp only [liftPolicy, Except.ok.injEq]

/-- A URL inside the policy: its port is allowed, it has no user information, it is pinned to
global addresses, and it is read again as what it says. -/
structure UrlValid (A : Type) [IpAddresses A] [Unicode] (policy : WebUrlPolicy)
    (resolved : ResolvedWebUrl) : Prop where
  port : resolved.port ∈ policy.allowedPorts resolved.scheme
  pinned : resolved.pin.addresses ≠ []
  global : ∀ address ∈ resolved.pin.addresses, GlobalAddress A address
  reparses : ∃ parts, urlsplit A [] resolved.canonicalUrl = some parts ∧
    '@' ∉ parts.netloc ∧ parts.scheme = resolved.scheme.name ∧ parts.hostname = resolved.host ∧
    parts.port.map (fun found => found.getD resolved.scheme.defaultPort) = some resolved.port ∧
    targetOf parts.path parts.query = resolved.requestTarget ∧ parts.fragment = []

/-! ## The parts -/

def Rooted (path : Chars) : Prop := path = [] ∨ path.head? = some '/'

/-- What follows a netloc begins with a delimiter, and the path before `?` and `#`. -/
theorem rooted_after_netloc (rest : Chars) :
    Rooted (partition '?' (partition '#' (splitNetloc rest).2).1).1 := by
  simp only [splitNetloc, partition]
  cases hrest : rest.dropWhile fun c => !isNetlocEnd c with
  | nil => exact .inl rfl
  | cons c tail =>
    have hend : isNetlocEnd c = true := by
      have hhead := List.head?_dropWhile_not (fun c => !isNetlocEnd c) rest
      rw [hrest] at hhead
      simpa using hhead
    simp only [isNetlocEnd, Bool.or_eq_true, beq_iff_eq] at hend
    rcases hend with (rfl | rfl) | rfl
    · exact .inr rfl
    · exact .inl rfl
    · exact .inl rfl

variable {literal : Bool} {scheme : Scheme} {port : ℕ} {host : Chars} {parts : SplitResult}
  {A : Type} {policy : WebUrlPolicy}

section Parts

variable [IpAddresses A] [Unicode]

theorem checkAuthority_ok [LawfulIpAddresses A]
    (h : checkAuthority A policy parts = .ok (scheme, (host, literal), port)) :
    parts.netloc ≠ [] ∧ HostValid A host literal ∧ port ∈ policy.allowedPorts scheme := by
  unfold checkAuthority at h
  split at h
  · cases h
  · simp only [bind_eq_ok, failIf_eq_ok] at h
    obtain ⟨_, hnetloc, _, -, h⟩ := h
    split at h
    · cases h
    · simp only [bind_eq_ok, failIf_eq_ok, pure_eq_ok] at h
      obtain ⟨found, hfound, _, hport, heq⟩ := h
      cases heq
      exact ⟨hnetloc, canonicalHost_ok hfound, not_not.mp hport⟩

theorem urlsplit_rooted {default url : Chars} (h : urlsplit A default url = some parts)
    (hnetloc : parts.netloc ≠ []) : Rooted parts.path := by
  simp only [urlsplit] at h
  split at h
  · rename_i rest _
    split at h
    · cases h
      exact rooted_after_netloc rest
    · cases h
  · split at h
    · cases h
      exact absurd rfl hnetloc
    · cases h

theorem canonicalUrlOf_ok {path query url : Chars}
    (hhost : HostValid A host literal) (hroot : Rooted parts.path)
    (h : canonicalUrlOf policy parts scheme host port = .ok (path, query, url)) :
    CanonicalTarget path query ∧
      url = scheme.name ++ ':' :: '/' :: '/' :: authorityOf scheme host port ++
        targetOf path query := by
  simp only [canonicalUrlOf, bind_eq_ok, failIf_eq_ok, pure_eq_ok] at h
  obtain ⟨component, hcomponent, found, hquery, _, -, heq⟩ := h
  cases heq
  have hcomponentRoot : component.head? = some '/' := by
    obtain ⟨rest, hrest⟩ : ∃ rest, (if parts.path = [] then ['/'] else parts.path) =
        '/' :: rest := by
      rcases hroot with hnil | hhead
      · exact ⟨[], by rw [if_pos hnil]⟩
      · cases hpath : parts.path with
        | nil => exact ⟨[], rfl⟩
        | cons c rest =>
          rw [hpath] at hhead
          cases hhead
          exact ⟨rest, rfl⟩
    rw [hrest] at hcomponent
    exact canonicalizeUrlComponent_head (by decide) (by decide) hcomponent
  have hhead : (removeDotSegments component).head? = some '/' :=
    removeDotSegments_head hcomponentRoot
  have hnetloc : authorityOf scheme host port ≠ [] := by
    rw [authorityOf_eq]
    unfold bracketedHost
    split
    · simp
    · simp [hhost.ne_nil]
  refine ⟨⟨hhead, fun c hc => ?_, fun c hc => ?_⟩, urlunsplit_eq hnetloc hhead⟩
  · have hpath := (canonicalizeUrlComponent_canonical (fun _ => isPathSafe_of_unreserved)
      hcomponent).1.removeDotSegments (by decide) hcomponentRoot
    rcases hpath.chars (fun _ => isPathSafe_of_unreserved) c hc with hsafe | rfl
    · rw [isPathChar, hsafe, Bool.true_or]
    · decide
  · obtain ⟨hcanonical, -⟩ :=
      canonicalizeUrlComponent_canonical (fun _ => isQuerySafe_of_unreserved) hquery
    rcases hcanonical.chars (fun _ => isQuerySafe_of_unreserved) c hc with hsafe | rfl
    · rw [isQueryChar, hsafe, Bool.true_or]
    · decide

end Parts

/-! ## Addresses -/

variable {addresses : List Chars}

section Addresses

variable [IpAddresses A]

theorem mem_sortAddresses {a : Chars} : a ∈ sortAddresses A addresses ↔ a ∈ addresses := by
  rw [sortAddresses, List.mem_insertionSort, List.mem_dedup]

theorem length_sortAddresses (addresses : List Chars) :
    (sortAddresses A addresses).length ≤ addresses.length := by
  rw [sortAddresses, List.length_insertionSort]
  exact (List.dedup_sublist addresses).length_le

theorem canonicalAddresses_ok {values : List (Option Chars)}
    (h : canonicalAddresses A values = .ok addresses) :
    addresses.length = values.length ∧
      ∀ a ∈ addresses, ∃ value, canonicalGlobalIp A value = .ok a := by
  induction values generalizing addresses with
  | nil =>
    cases h
    simp
  | cons value rest ih =>
    rw [canonicalAddresses] at h
    split at h
    · cases h
    · cases h
    · rename_i address haddress
      simp only [ok_rules] at h
      obtain ⟨others, hothers, rfl⟩ := h
      obtain ⟨hlength, hall⟩ := ih hothers
      refine ⟨by simp [hlength], fun a ha => ?_⟩
      rcases List.mem_cons.mp ha with rfl | ha
      · exact ⟨value, haddress⟩
      · exact hall a ha

/-- The addresses that a URL may be pinned to. -/
structure Pinnable (A : Type) [IpAddresses A] (addresses : List Chars) : Prop where
  nonempty : addresses ≠ []
  bounded : addresses.length ≤ maxResolvedAddresses
  canonical : ∀ a ∈ addresses, canonicalGlobalIp A (some a) = .ok a

theorem mapM_canonical (h : ∀ a ∈ addresses, canonicalGlobalIp A (some a) = .ok a) :
    (addresses.mapM fun value => canonicalGlobalIp A (some value)) = .ok addresses := by
  induction addresses with
  | nil => rfl
  | cons a rest ih =>
    rw [List.mapM_cons, h a List.mem_cons_self, ih fun b hb => h b (List.mem_cons_of_mem _ hb)]
    rfl

variable [LawfulIpAddresses A]

theorem resolveAll_ok {answer : DnsAnswer}
    (h : resolveAll A policy answer = .ok addresses) : Pinnable A addresses := by
  unfold resolveAll at h
  split at h
  · cases h
  · cases h
  · cases h
  · rename_i values
    simp only [ok_rules, not_or, not_lt] at h
    obtain ⟨_, ⟨hne, hmax⟩, canonical, hcanonical, rfl⟩ := h
    obtain ⟨hlength, hall⟩ := canonicalAddresses_ok (liftPolicy_eq_ok.mp hcanonical)
    refine ⟨fun hnil => ?_, ?_, fun a ha => ?_⟩
    · have hempty : canonical = [] := by
        rw [List.eq_nil_iff_forall_not_mem]
        intro a ha
        have hmem := (mem_sortAddresses (A := A)).mpr ha
        rw [hnil] at hmem
        cases hmem
      rw [hempty] at hlength
      exact hne (List.length_eq_zero_iff.mp hlength.symm)
    · have hsorted := length_sortAddresses (A := A) canonical
      have hbound := policy.addresses.2
      omega
    · obtain ⟨value, hvalue⟩ := hall a (mem_sortAddresses.mp ha)
      exact canonicalGlobalIp_idem hvalue

variable [Unicode]

omit [LawfulIpAddresses A] in
theorem pinnable_literal (h : HostValid A host true) : Pinnable A [host] := by
  refine ⟨by simp, by simp [maxResolvedAddresses], fun a ha => ?_⟩
  rw [List.mem_singleton.mp ha]
  exact h.address rfl

omit [LawfulIpAddresses A] in
/-- The pin of a canonical host and such addresses is made. -/
theorem make_pin (hhost : HostValid A host literal) (hport : 1 ≤ port ∧ port ≤ 65535)
    (haddresses : Pinnable A addresses) :
    DnsPinSnapshot.make A host port addresses = .ok ⟨host, port, sortAddresses A addresses⟩ := by
  obtain ⟨hascii, hlower⟩ := hostChars_ascii hhost.chars
  have hbounds : ¬ (port < 1 ∨ 65535 < port) := by omega
  have hcount : ¬ (addresses = [] ∨ maxResolvedAddresses < addresses.length) := by
    rw [not_or, not_lt]
    exact ⟨haddresses.nonempty, haddresses.bounded⟩
  have hfirst : ¬ (host = [] ∨ isAscii host = false) := by simp [hhost.ne_nil, hascii]
  have hsecond : ¬ (host ≠ host.map Char.toLower ∨ host.getLast? = some '.') := by
    simp [hlower, hhost.last]
  simp only [DnsPinSnapshot.make, hhost.canonical, checkPort, failIf, if_neg hfirst,
    if_neg hsecond, if_neg hbounds, if_neg hcount, ne_eq, not_true_eq_false, if_false, ok_bind,
    mapM_canonical haddresses.canonical]

end Addresses

/-! ## Resolving -/

/-- How `resolve` can end: with a URL inside the policy, with an error of the policy, or
cancelled by the probe. -/
inductive ResolveOutcome (A : Type) [IpAddresses A] [Unicode] (policy : WebUrlPolicy)
    (calls : ResolveCalls) : Except UrlFailure ResolvedWebUrl → Prop where
  | resolved {url : ResolvedWebUrl} (h : UrlValid A policy url) :
      ResolveOutcome A policy calls (.ok url)
  | refused (error : WebUrlPolicyError) : ResolveOutcome A policy calls (.error (.policy error))
  | cancelled (message : String) (h : calls.Cancelled) :
      ResolveOutcome A policy calls (.error (.cancelled message))

def resolvedOf (scheme : Scheme) (host : Chars) (port : ℕ) (path query : Chars)
    (addresses : List Chars) : ResolvedWebUrl :=
  { canonicalUrl := scheme.name ++ ':' :: '/' :: '/' :: authorityOf scheme host port ++
      targetOf path query
    scheme := scheme
    host := host
    port := port
    authority := authorityOf scheme host port
    requestTarget := targetOf path query
    pin := ⟨host, port, addresses⟩ }

theorem failIf_false {ε : Type} {p : Prop} [Decidable p] {error : ε} (h : ¬ p) :
    failIf p error = .ok () := if_neg h

/-- The constructor of `ResolvedWebUrl` accepts a URL that agrees with its parts. -/
theorem ResolvedWebUrl.make_eq {url : ResolvedWebUrl} (hport : 1 ≤ url.port ∧ url.port ≤ 65535)
    (hpin : url.pin.host = url.host ∧ url.pin.port = url.port)
    (htarget : url.requestTarget.head? = some '/' ∧ '#' ∉ url.requestTarget)
    (hauthority : url.authority = authorityOf url.scheme url.host url.port)
    (hurl : url.canonicalUrl = url.scheme.name ++ ':' :: '/' :: '/' :: url.authority ++
      url.requestTarget) : url.make = .ok url := by
  have hbounds : ¬ (url.port < 1 ∨ 65535 < url.port) := by omega
  have hpinned : ¬ (url.pin.host ≠ url.host ∨ url.pin.port ≠ url.port) := by
    simp [hpin.1, hpin.2]
  have hplain : ¬ (url.requestTarget.head? ≠ some '/' ∨ url.requestTarget.contains '#' = true) := by
    simp [htarget.1, htarget.2]
  rw [ResolvedWebUrl.make, checkPort, failIf_false hbounds, failIf_false hpinned,
    failIf_false hplain, failIf_false (not_not.mpr hauthority), failIf_false (not_not.mpr hurl)]
  rfl

theorem raiseIfCancelled_cases (probe : Probe) :
    raiseIfCancelled probe = .ok () ∨
      probe ≠ .quiet ∧ ∃ message, raiseIfCancelled probe = .error (.cancelled message) := by
  cases probe with
  | quiet => exact .inl rfl
  | fires | fails => exact .inr ⟨by decide, _, rfl⟩

section Resolving

variable [IpAddresses A] [Unicode] [LawfulIpAddresses A]

theorem resolvedOf_valid {path query : Chars} (hhost : HostValid A host literal)
    (hport : port ∈ policy.allowedPorts scheme) (htarget : CanonicalTarget path query)
    (haddresses : Pinnable A addresses) :
    UrlValid A policy (resolvedOf scheme host port path query (sortAddresses A addresses)) := by
  have hsplit : urlsplit A [] (scheme.name ++ ':' :: '/' :: '/' :: authorityOf scheme host port ++
      targetOf path query) = some ⟨scheme.name, authorityOf scheme host port, path, query, []⟩ :=
    urlsplit_canonical hhost htarget
  refine ⟨hport, fun hnil => ?_, fun a ha => ?_, _, hsplit, authority_no_user hhost, rfl,
    hostname_authority hhost _ rfl, port_authority hhost _ rfl (policy.ports scheme port hport).2,
    rfl, rfl⟩
  · obtain ⟨a, ha⟩ := List.exists_mem_of_ne_nil _ haddresses.nonempty
    have hmem : a ∈ sortAddresses A addresses := mem_sortAddresses.mpr ha
    rw [show sortAddresses A addresses = [] from hnil] at hmem
    cases hmem
  · exact canonicalGlobalIp_global (haddresses.canonical a (mem_sortAddresses.mp ha))

theorem resolve_finish {calls : ResolveCalls} {path query : Chars}
    (hhost : HostValid A host literal)
    (hport : port ∈ policy.allowedPorts scheme) (htarget : CanonicalTarget path query)
    (haddresses : Pinnable A addresses) :
    ResolveOutcome A policy calls (do
      raiseIfCancelled calls.last
      let pin ← DnsPinSnapshot.make A host port addresses
      ResolvedWebUrl.make
        { canonicalUrl := scheme.name ++ ':' :: '/' :: '/' :: authorityOf scheme host port ++
            targetOf path query
          scheme := scheme
          host := host
          port := port
          authority := authorityOf scheme host port
          requestTarget := if query = [] then path else path ++ '?' :: query
          pin := pin }) := by
  rcases raiseIfCancelled_cases calls.last with hquiet | ⟨hfired, message, hraised⟩
  · rw [hquiet, ok_bind, make_pin hhost (policy.ports scheme port hport) haddresses, ok_bind]
    have hmake : (resolvedOf scheme host port path query (sortAddresses A addresses)).make =
        .ok (resolvedOf scheme host port path query (sortAddresses A addresses)) :=
      ResolvedWebUrl.make_eq (policy.ports scheme port hport) ⟨rfl, rfl⟩
        ⟨htarget.head, htarget.no_fragment⟩ rfl rfl
    exact hmake ▸ .resolved (resolvedOf_valid hhost hport htarget haddresses)
  · rw [hraised]
    exact .cancelled message (.inr (.inl hfired))

variable (A policy) in
omit [Unicode] in
theorem resolveAll_outcome (calls : ResolveCalls) (host : Chars) (port : ℕ) :
    (∃ addresses, resolveAll A policy (calls.answer host port) = .ok addresses ∧
        Pinnable A addresses) ∨
      (∃ error, resolveAll A policy (calls.answer host port) = .error (.policy error)) ∨
      ∃ message, resolveAll A policy (calls.answer host port) = .error (.cancelled message) ∧
        calls.Cancelled := by
  cases hresult : resolveAll A policy (calls.answer host port) with
  | ok addresses => exact .inl ⟨addresses, rfl, resolveAll_ok hresult⟩
  | error failure =>
    unfold resolveAll at hresult
    split at hresult
    · rename_i message hanswer
      cases hresult
      exact .inr (.inr ⟨message, rfl, .inr (.inr ⟨host, port, message, hanswer⟩)⟩)
    · cases hresult
      exact .inr (.inl ⟨_, rfl⟩)
    · cases hresult
      exact .inr (.inl ⟨_, rfl⟩)
    · rename_i values _
      by_cases hcount : values = [] ∨ policy.maxAddresses < values.length
      · rw [failIf, if_pos hcount] at hresult
        cases hresult
        exact .inr (.inl ⟨_, rfl⟩)
      · rw [failIf_false hcount, ok_bind] at hresult
        cases hcanonical : canonicalAddresses A values with
        | error e =>
          rw [hcanonical] at hresult
          cases hresult
          exact .inr (.inl ⟨_, rfl⟩)
        | ok found =>
          rw [hcanonical] at hresult
          cases hresult

/-- Every way in which `resolve` can end. -/
theorem resolve_outcome (calls : ResolveCalls) (url : RawText) :
    ResolveOutcome A policy calls (resolve A policy calls url) := by
  unfold resolve
  by_cases hclosed : calls.closed = true
  · rw [failIf, if_pos hclosed]
    exact .refused _
  · rw [failIf_false hclosed, ok_bind]
    rcases raiseIfCancelled_cases calls.first with hquiet | ⟨hfired, message, hraised⟩
    · rw [hquiet, ok_bind]
      cases validateRawUrlText "URL" policy.maxUrlBytes url with
      | error e => exact .refused e
      | ok text =>
        rw [show liftPolicy (Except.ok text) = (.ok text : Except UrlFailure Chars) from rfl,
          ok_bind]
        cases hsplit : urlsplit A [] text with
        | none => exact .refused _
        | some parts =>
          dsimp only
          cases hauthority : checkAuthority A policy parts with
          | error e => exact .refused e
          | ok found =>
            obtain ⟨scheme, ⟨host, literal⟩, port⟩ := found
            obtain ⟨hnetloc, hhost, hport⟩ := checkAuthority_ok hauthority
            cases hcanonical : canonicalUrlOf policy parts scheme host port with
            | error e =>
              simp only [liftPolicy, ok_bind, hcanonical]
              exact .refused e
            | ok found =>
              obtain ⟨path, query, canonicalUrl⟩ := found
              obtain ⟨htarget, rfl⟩ := canonicalUrlOf_ok hhost
                (urlsplit_rooted hsplit hnetloc) hcanonical
              simp only [liftPolicy, ok_bind, hcanonical]
              cases literal with
              | true =>
                exact resolve_finish hhost hport htarget (pinnable_literal hhost)
              | false =>
                rcases resolveAll_outcome A policy calls host port with
                  ⟨addresses, hfound, hpinnable⟩ | ⟨error, hraised⟩ |
                    ⟨message, hraised, hcancelled⟩
                · simp only [Bool.false_eq_true, if_false, hfound, ok_bind]
                  exact resolve_finish hhost hport htarget hpinnable
                · simp only [Bool.false_eq_true, if_false, hraised]
                  exact .refused error
                · simp only [Bool.false_eq_true, if_false, hraised]
                  exact .cancelled message hcancelled
    · rw [hraised]
      exact .cancelled message (.inl hfired)

end Resolving

end SuperMew.WebResearch
