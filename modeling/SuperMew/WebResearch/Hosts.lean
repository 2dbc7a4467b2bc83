import SuperMew.WebResearch.Canonical

/-! Canonical hosts and addresses: they are made of few characters, and making them
canonical again changes nothing. -/

namespace SuperMew.WebResearch

open IpAddresses Char

/-! ## Addresses -/

def PlainAddress {A : Type} [IpAddresses A] (address : A) : Prop :=
  ∃ text : Chars, '%' ∉ text ∧ parse text = some address

def isAddressChar (c : Char) : Bool := c.isDigit || ('a' ≤ c && c ≤ 'f') || c == ':' || c == '.'

/-- What the documentation of `ipaddress` says of its texts: an IPv4 address is four decimal
numbers between dots, an IPv6 address without a zone has a colon and does not end with a dot,
and the text of an address is read as that address. -/
class LawfulIpAddresses (A : Type) [IpAddresses A] : Prop where
  parse_v4 : ∀ (text : Chars) (address : A), parse text = some address →
    isV6 address = false →
      (splitAt '.' text).length = 4 ∧
        ∀ label ∈ splitAt '.' text, label ≠ [] ∧ label.all isDigit = true
  parse_v6 : ∀ (text : Chars) (address : A), '%' ∉ text → parse text = some address →
    isV6 address = true → ':' ∈ text ∧ text.getLast? ≠ some '.'
  mapped : ∀ address mapped : A, PlainAddress address →
    ipv4Mapped address = some mapped →
      PlainAddress mapped ∧ isV6 mapped = false
  parse_str : ∀ address : A, PlainAddress address →
    parse (str address) = some address
  str_chars : ∀ address : A, PlainAddress address →
    ∀ c ∈ str address, isAddressChar c = true

section Addresses

variable {A : Type} [IpAddresses A]

def GlobalAddress (A : Type) [IpAddresses A] (text : Chars) : Prop :=
  ∃ address : A, parse text = some address ∧ isGlobal address = true ∧
    isDenied A address = false

variable [LawfulIpAddresses A] {address : A} {value : Option Chars} {text : Chars}

theorem unmapped_ok {parsed : A} (hplain : PlainAddress parsed)
    (h : unmapped A parsed = .ok address) :
    PlainAddress address ∧ unmapped A address = .ok address := by
  unfold unmapped at h
  cases hv6 : isV6 parsed with
  | false =>
    simp only [hv6, Bool.false_eq_true, if_false] at h
    cases h
    exact ⟨hplain, by simp [unmapped, hv6]⟩
  | true =>
    simp only [hv6, if_true] at h
    cases hmapped : ipv4Mapped parsed with
    | some mapped =>
      rw [hmapped] at h
      obtain rfl := Except.ok.inj h
      obtain ⟨hplain', hv4⟩ := LawfulIpAddresses.mapped parsed mapped hplain hmapped
      exact ⟨hplain', by simp [unmapped, hv4]⟩
    | none =>
      simp only [hmapped] at h
      split at h
      · cases h
      · rename_i htransition
        cases h
        exact ⟨hplain, by simp [unmapped, hv6, hmapped, htransition]⟩

/-- What `_canonical_global_ip` returns. -/
theorem canonicalGlobalIp_ok (h : canonicalGlobalIp A value = .ok text) :
    ∃ address : A, PlainAddress address ∧ unmapped A address = .ok address ∧
      isDenied A address = false ∧ text = str address := by
  unfold canonicalGlobalIp at h
  cases value with
  | none => cases h
  | some source =>
    dsimp only at h
    split at h
    · cases h
    · rename_i hsource
      cases hparse : (parse source : Option A) with
      | none => rw [hparse] at h; cases h
      | some parsed =>
        simp only [hparse, ok_rules] at h
        obtain ⟨address, hunmapped, _, hdenied, rfl⟩ := h
        have hpercent : '%' ∉ source := by
          intro hmem
          exact hsource (.inr (by simpa using hmem))
        obtain ⟨hplain, hsame⟩ := unmapped_ok ⟨source, hpercent, hparse⟩ hunmapped
        exact ⟨address, hplain, hsame, by simpa using hdenied, rfl⟩

theorem str_percent (h : PlainAddress address) : '%' ∉ str address :=
  fun hmem => absurd (LawfulIpAddresses.str_chars address h _ hmem) (by decide)

theorem str_ne_nil (h : PlainAddress address) : str address ≠ [] := by
  intro hnil
  have hparse := LawfulIpAddresses.parse_str address h
  rw [hnil] at hparse
  cases hv6 : isV6 address with
  | false =>
    have hlabels := (LawfulIpAddresses.parse_v4 _ _ hparse hv6).1
    simp [splitAt] at hlabels
  | true =>
    have hcolon := (LawfulIpAddresses.parse_v6 _ _ (by simp) hparse hv6).1
    cases hcolon

theorem canonicalGlobalIp_str (hplain : PlainAddress address)
    (hsame : unmapped A address = .ok address) (hdenied : isDenied A address = false) :
    canonicalGlobalIp A (some (str address)) = .ok (str address) := by
  unfold canonicalGlobalIp
  dsimp only
  rw [if_neg (by simp [str_ne_nil hplain, str_percent hplain])]
  simp only [LawfulIpAddresses.parse_str address hplain, hsame, ok_bind, hdenied]
  rfl

variable (h : canonicalGlobalIp A value = .ok text)

include h

theorem canonicalGlobalIp_idem : canonicalGlobalIp A (some text) = .ok text := by
  obtain ⟨address, hplain, hsame, hdenied, rfl⟩ := canonicalGlobalIp_ok h
  exact canonicalGlobalIp_str hplain hsame hdenied

theorem canonicalGlobalIp_global : GlobalAddress A text := by
  obtain ⟨address, hplain, -, hdenied, rfl⟩ := canonicalGlobalIp_ok h
  refine ⟨address, LawfulIpAddresses.parse_str address hplain, ?_, hdenied⟩
  simp only [isDenied, Bool.or_eq_false_iff, Bool.not_eq_false'] at hdenied
  exact hdenied.2

end Addresses

/-! ## Domains -/

def isHostChar (c : Char) : Bool := isLabelChar c || c == '.' || c == ':'

variable {c : Char}

theorem toNat_lt_of_isHostChar (h : isHostChar c = true) : c.toNat < 128 := by
  simp only [isHostChar, isLabelChar, isDigit, Bool.or_eq_true, Bool.and_eq_true,
    decide_eq_true_eq, ge_iff_le, le_def, UInt32.le_iff_toNat_le, beq_iff_eq] at h
  rcases h with (((h | h) | rfl) | rfl) | rfl
  any_goals decide
  all_goals exact Nat.lt_of_le_of_lt h.2 (by decide)

theorem isHostChar_lower (h : isHostChar c = true) : c.toLower = c := by
  have hall : ∀ n < 128, isHostChar (ofNat n) = true →
      (ofNat n).toLower = ofNat n := by decide +kernel
  exact ascii_cases (P := fun c => isHostChar c = true → c.toLower = c) hall
    (toNat_lt_of_isHostChar h) h

theorem isHostChar_of_address (h : isAddressChar c = true) : isHostChar c = true := by
  have hlt : c.toNat < 128 := by
    simp only [isAddressChar, isDigit, Bool.or_eq_true, Bool.and_eq_true,
      decide_eq_true_eq, ge_iff_le, le_def, UInt32.le_iff_toNat_le, beq_iff_eq] at h
    rcases h with ((h | h) | rfl) | rfl
    any_goals decide
    all_goals exact Nat.lt_of_le_of_lt h.2 (by decide)
  have hall : ∀ n < 128, isAddressChar (ofNat n) = true →
      isHostChar (ofNat n) = true := by decide +kernel
  exact ascii_cases (P := fun c => isAddressChar c = true → isHostChar c = true) hall hlt h

theorem isHostChar_of_label (h : isLabelChar c = true ∨ c = '.') : isHostChar c = true := by
  rcases h with h | rfl
  · rw [isHostChar, h, Bool.true_or, Bool.true_or]
  · decide

/-- A text of such characters is ASCII, and in lower case. -/
theorem hostChars_ascii {text : Chars} (h : ∀ c ∈ text, isHostChar c = true) :
    isAscii text = true ∧ text.map toLower = text := by
  constructor
  · rw [isAscii, List.all_eq_true]
    intro c hc
    rw [decide_eq_true_eq]
    exact toNat_lt_of_isHostChar (h c hc)
  · exact (List.map_congr_left fun c hc => isHostChar_lower (h c hc)).trans (List.map_id text)

variable {name : Chars}

section Domains

variable [Unicode]

theorem checkLabels_ok {labels : List Chars} (h : checkLabels labels = .ok ()) :
    ∀ label ∈ labels, labelValid label = true := by
  induction labels with
  | nil => simp
  | cons label rest ih =>
    simp only [checkLabels, ok_rules] at h
    obtain ⟨_, hvalid, _, -, hrest⟩ := h
    intro other hother
    rcases List.mem_cons.mp hother with rfl | hmem
    · simpa using hvalid
    · exact ih hrest other hmem

/-- The checks that a canonical domain has passed. -/
structure DomainValid (name : Chars) : Prop where
  labels : ∀ label ∈ splitAt '.' name, labelValid label = true
  several : 2 ≤ (splitAt '.' name).length
  named : ¬ (splitAt '.' name).all (fun label => label.all isDigit) = true
  checked : checkDomain name = .ok ()

theorem checkDomain_ok (h : checkDomain name = .ok ()) : DomainValid name := by
  have hchecked := h
  simp only [checkDomain, ok_rules, not_or, not_lt] at h
  obtain ⟨_, ⟨hseveral, -⟩, _, -, _, hnamed, _, hlabels, -⟩ := h
  exact ⟨checkLabels_ok hlabels, hseveral, hnamed, hchecked⟩

namespace DomainValid

variable (h : DomainValid name)

include h

theorem chars (hc : c ∈ name) : isLabelChar c = true ∨ c = '.' := by
  rcases mem_splitAt hc with hdot | ⟨label, hlabel, hmem⟩
  · exact .inr hdot
  · have hvalid := h.labels label hlabel
    simp only [labelValid, Bool.and_eq_true, List.all_eq_true] at hvalid
    exact .inl (hvalid.1.1.2 c hmem)

theorem not_mem (hc : isLabelChar c = false) (hdot : c ≠ '.') : c ∉ name := by
  intro hmem
  rcases h.chars hmem with hlabel | heq
  · rw [hc] at hlabel
    cases hlabel
  · exact hdot heq

theorem last : name.getLast? ≠ some '.' := by
  intro hlast
  have hvalid := h.labels [] (nil_mem_splitAt hlast)
  exact absurd hvalid (by decide)

theorem ne_nil : name ≠ [] := by
  rintro rfl
  exact absurd h.several (by simp [splitAt])

theorem hostChars : ∀ c ∈ name, isHostChar c = true := fun _ hc =>
  isHostChar_of_label (h.chars hc)

theorem encode : encodeIdna name = some name := by
  have hsize : ∀ label ∈ splitAt '.' name, (!label.isEmpty && label.length < 64) = true := by
    intro label hlabel
    have hvalid := h.labels label hlabel
    simp only [labelValid, Bool.and_eq_true, decide_eq_true_eq] at hvalid ⊢
    exact ⟨hvalid.1.1.1.1, Nat.lt_succ_of_le hvalid.1.1.1.2⟩
  have hfront : (splitAt '.' name).dropLast.all
      (fun label => !label.isEmpty && label.length < 64) = true := by
    rw [List.all_eq_true]
    intro label hlabel
    exact hsize label ( List.dropLast_subset _ hlabel)
  have hlast : (splitAt '.' name).getLast?.all (fun label => label.length < 64) = true := by
    cases hfound : (splitAt '.' name).getLast? with
    | none => rfl
    | some label =>
      exact (Bool.and_eq_true_iff.mp (hsize label (List.mem_of_getLast? hfound))).2
  simp [encodeIdna, (hostChars_ascii h.hostChars).1, hfront, hlast]

theorem canonical : canonicalDomain name = .ok name := by
  have hroot : withoutRoot name = name := if_neg h.last
  have hpercent : '%' ∉ name := h.not_mem (by decide) (by decide)
  have hcolon : ':' ∉ name := h.not_mem (by decide) (by decide)
  have hname : asciiName name = some name := by
    obtain ⟨hascii, hlower⟩ := hostChars_ascii h.hostChars
    simp [asciiName, h.encode, hascii, hlower]
  have hpass : ¬ (name = [] ∨ name.contains '%' = true ∨ name.contains ':' = true) := by
    simp [h.ne_nil, hpercent, hcolon]
  simp only [canonicalDomain, hroot, failIf, if_neg hpass, ok_bind, hname, h.checked]
  rfl

theorem no_address (A : Type) [IpAddresses A] [LawfulIpAddresses A] :
    canonicalGlobalIp A (some name) = .error .invalidAddress := by
  have hpercent : '%' ∉ name := h.not_mem (by decide) (by decide)
  have hparse : (parse name : Option A) = none := by
    cases hfound : (parse name : Option A) with
    | none => rfl
    | some address =>
      cases hv6 : isV6 address with
      | true =>
        have hcolon := (LawfulIpAddresses.parse_v6 _ _ hpercent hfound hv6).1
        exact absurd hcolon (h.not_mem (by decide) (by decide))
      | false =>
        have hlabels := (LawfulIpAddresses.parse_v4 _ _ hfound hv6).2
        refine absurd (List.all_eq_true.mpr fun label hlabel => ?_) h.named
        exact (hlabels label hlabel).2
  simp only [canonicalGlobalIp, hparse]
  rw [if_neg (by simp [h.ne_nil, hpercent])]

end DomainValid

theorem canonicalDomain_ok {host : Chars} (h : canonicalDomain host = .ok name) :
    DomainValid name := by
  simp only [canonicalDomain, ok_rules] at h
  obtain ⟨_, -, h⟩ := h
  cases hname : asciiName (withoutRoot host) with
  | none => rw [hname] at h; cases h
  | some found =>
    simp only [hname, ok_rules] at h
    obtain ⟨_, hchecked, rfl⟩ := h
    exact checkDomain_ok hchecked

end Domains

/-! ## Hosts -/

/-- What a canonical host is. One with a colon is an IPv6 address. -/
structure HostValid (A : Type) [IpAddresses A] [Unicode] (host : Chars) (literal : Bool) : Prop where
  canonical : canonicalHost A host = .ok (host, literal)
  ne_nil : host ≠ []
  chars : ∀ c ∈ host, isHostChar c = true
  last : host.getLast? ≠ some '.'
  colon : ':' ∈ host → (parse host : Option A).any isV6 = true ∧
    ∀ c ∈ host, isAddressChar c = true
  address : literal = true → canonicalGlobalIp A (some host) = .ok host

section Hosts

variable {A : Type} [IpAddresses A] [LawfulIpAddresses A]

theorem str_last {address : A} (hplain : PlainAddress address) :
    (str address).getLast? ≠ some '.' := by
  have hparse := LawfulIpAddresses.parse_str address hplain
  cases hv6 : isV6 address with
  | true => exact (LawfulIpAddresses.parse_v6 _ _ (str_percent hplain) hparse hv6).2
  | false =>
    intro hlast
    exact ((LawfulIpAddresses.parse_v4 _ _ hparse hv6).2 [] (nil_mem_splitAt hlast)).1 rfl

theorem str_colon {address : A} (hplain : PlainAddress address)
    (hcolon : ':' ∈ str address) : isV6 address = true := by
  have hparse := LawfulIpAddresses.parse_str address hplain
  cases hv6 : isV6 address with
  | true => rfl
  | false =>
    rcases mem_splitAt (c := '.') hcolon with hdot | ⟨label, hlabel, hmem⟩
    · exact absurd hdot (by decide)
    · have hdigits := ((LawfulIpAddresses.parse_v4 _ _ hparse hv6).2 label hlabel).2
      exact absurd (List.all_eq_true.mp hdigits _ hmem) (by decide)

variable [Unicode]

theorem hostValid_address {address : A} (hplain : PlainAddress address)
    (hsame : unmapped A address = .ok address) (hdenied : isDenied A address = false) :
    HostValid A (str address) true := by
  have haddress := canonicalGlobalIp_str hplain hsame hdenied
  refine ⟨?_, str_ne_nil hplain, fun c hc => ?_, str_last hplain, fun hcolon => ?_,
    fun _ => haddress⟩
  · have hroot : withoutRoot (str address) = str address :=
      if_neg (str_last hplain)
    rw [canonicalHost, if_neg (str_ne_nil hplain), hroot, haddress]
  · exact isHostChar_of_address (LawfulIpAddresses.str_chars address hplain c hc)
  · rw [LawfulIpAddresses.parse_str address hplain]
    exact ⟨str_colon hplain hcolon, LawfulIpAddresses.str_chars address hplain⟩

theorem hostValid_domain (h : DomainValid name) : HostValid A name false := by
  refine ⟨?_, h.ne_nil, h.hostChars, h.last, fun hcolon => ?_, fun hfalse => by cases hfalse⟩
  · have hroot : withoutRoot name = name := if_neg h.last
    rw [canonicalHost, if_neg h.ne_nil, hroot, h.no_address A]
    simp only [h.canonical, ok_bind]
    rfl
  · exact absurd hcolon (h.not_mem (by decide) (by decide))

theorem canonicalHost_ok {host : Chars} {literal : Bool}
    (h : canonicalHost A host = .ok (name, literal)) : HostValid A name literal := by
  unfold canonicalHost at h
  split at h
  · cases h
  · split at h
    · rename_i address haddress
      cases h
      obtain ⟨address, hplain, hsame, hdenied, rfl⟩ := canonicalGlobalIp_ok haddress
      exact hostValid_address hplain hsame hdenied
    · cases h
    · simp only [bind_eq_ok, pure_eq_ok] at h
      obtain ⟨found, hfound, heq⟩ := h
      cases heq
      exact hostValid_domain (canonicalDomain_ok hfound)

end Hosts

end SuperMew.WebResearch
