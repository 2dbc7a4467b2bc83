import SuperMew.WebResearch.Hosts
import Mathlib.Data.Bool.AllAny

/-! A canonical URL is split into the parts that it was made of. -/

namespace SuperMew.WebResearch

open List

/-! ## Characters -/

variable {c : Char}

theorem isPathSafe_bounds (h : isPathSafe c = true) : c.toNat < 128 := by
  rcases Bool.or_eq_true_iff.mp h with h | h
  · exact (toNat_lt_of_isUnreserved h).1
  · have hall : ∀ d ∈ "/!$&'()*+,;=:@".toList, d.toNat < 128 :=
      all_iff_forall_prop.mp (by decide)
    exact hall c (by simpa using h)

def isPathChar (c : Char) : Bool := isPathSafe c || c == '%'

def isQueryChar (c : Char) : Bool := isQuerySafe c || c == '%'

theorem isQueryChar_bounds (h : isQueryChar c = true) : c.toNat < 128 := by
  simp only [isQueryChar, isQuerySafe, Bool.or_eq_true, beq_iff_eq] at h
  rcases h with (h | rfl) | rfl
  · exact isPathSafe_bounds h
  · decide
  · decide

theorem isQueryChar_of_path (h : isPathChar c = true) : isQueryChar c = true := by
  simp only [isPathChar, isQueryChar, isQuerySafe, Bool.or_eq_true] at h ⊢
  tauto

theorem isQueryChar_visible (h : isQueryChar c = true) : 32 < c.toNat ∧ c ≠ '#' := by
  exact ascii_cases (P := fun c => isQueryChar c = true → 32 < c.toNat ∧ c ≠ '#')
    (by decide +kernel)
    (isQueryChar_bounds h) h

theorem isPathChar_ne_question (h : isPathChar c = true) : c ≠ '?' := by
  rintro rfl
  exact absurd h (by decide)

def isAuthorityChar (c : Char) : Bool := isHostChar c || c == '[' || c == ']'

theorem isAuthorityChar_spec (h : isAuthorityChar c = true) :
    c.toNat < 128 ∧ 32 < c.toNat ∧ isNetlocEnd c = false ∧ c ≠ '@' := by
  have hlt : c.toNat < 128 := by
    simp only [isAuthorityChar, Bool.or_eq_true, beq_iff_eq] at h
    rcases h with (h | rfl) | rfl
    · exact toNat_lt_of_isHostChar h
    · decide
    · decide
  exact ascii_cases (P := fun c => isAuthorityChar c = true →
    c.toNat < 128 ∧ 32 < c.toNat ∧ isNetlocEnd c = false ∧ c ≠ '@') (by decide +kernel) hlt h

/-! ## Ports -/

theorem toString_digits (port : ℕ) : (toString port).toList = Nat.toDigits 10 port := by
  rw [Nat.toString_eq_ofList_toDigits, String.toList_ofList]

theorem digitsValue_toString (port : ℕ) :
    SplitResult.digitsValue (toString port).toList = port := by
  rw [toString_digits, SplitResult.digitsValue]
  have hvalue := Nat.ofDigitChars_ten_toDigits (n := port)
  rw [Nat.ofDigitChars_eq_foldl] at hvalue
  exact hvalue

variable {port : ℕ}

theorem isDigit_toString (h : c ∈ (toString port).toList) : c.isDigit = true := by
  rw [toString_digits] at h
  exact Nat.isDigit_of_mem_toDigits (by decide : 0 < 10) le_rfl h

theorem toString_ne_nil (port : ℕ) : (toString port).toList ≠ [] := by
  rw [toString_digits]
  exact Nat.toDigits_ne_nil

theorem isHostChar_of_digit (h : c.isDigit = true) : isHostChar c = true := by
  simp [isHostChar, isLabelChar, h]

/-! ## Authorities -/

variable {scheme : Scheme}

section Authorities

variable {host : Chars} {literal : Bool}

theorem hostChar_ne_bracket (h : isHostChar c = true) : c ≠ '[' ∧ c ≠ ']' ∧ c ≠ '%' := by
  refine ⟨?_, ?_, ?_⟩ <;> rintro rfl <;> exact absurd h (by decide)

/-- The text of the port, if the authority has one. -/
def portSuffix (scheme : Scheme) (port : ℕ) : Chars :=
  if port = scheme.defaultPort then [] else ':' :: (toString port).toList

theorem authorityOf_eq : authorityOf scheme host port =
    bracketedHost host ++ portSuffix scheme port := by
  unfold authorityOf portSuffix
  split <;> simp

theorem portSuffix_chars (h : c ∈ portSuffix scheme port) : isHostChar c = true := by
  unfold portSuffix at h
  split at h
  · cases h
  · rcases mem_cons.mp h with rfl | hdigit
    · decide
    · exact isHostChar_of_digit (isDigit_toString hdigit)

theorem partition_portSuffix :
    (partition ':' (portSuffix scheme port)).2.2 =
      if port = scheme.defaultPort then [] else (toString port).toList := by
  unfold portSuffix
  split
  · rfl
  · have hsplit : partition ':' ([] ++ ':' :: (toString port).toList) =
        ([], true, (toString port).toList) := partition_append (by simp)
    exact congrArg (fun parts => parts.2.2) hsplit

theorem partition_cons (c : Char) (text : Chars) : partition c (c :: text) = ([], true, text) := by
  simp [partition]

theorem bracketedHost_colon (h : ':' ∈ host) (rest : Chars) :
    bracketedHost host ++ rest = '[' :: (host ++ ']' :: rest) := by
  simp [bracketedHost, h]

theorem bracketedHost_plain (h : ':' ∉ host) : bracketedHost host = host := by
  simp [bracketedHost, h]

variable {A : Type} [IpAddresses A] [Unicode] (h : HostValid A host literal)

include h

theorem authority_chars (hc : c ∈ authorityOf scheme host port) : isAuthorityChar c = true := by
  have hhost : ∀ d, isHostChar d = true → isAuthorityChar d = true := by
    intro d hd
    rw [isAuthorityChar, hd, Bool.true_or, Bool.true_or]
  rw [authorityOf_eq] at hc
  rcases mem_append.mp hc with hc | hc
  · unfold bracketedHost at hc
    split at hc
    · simp only [cons_append, mem_cons, mem_append, not_mem_nil, or_false] at hc
      rcases hc with rfl | hc | rfl
      · decide
      · exact hhost c (h.chars c hc)
      · decide
    · exact hhost c (h.chars c hc)
  · exact hhost c (portSuffix_chars hc)

theorem authority_no_user : '@' ∉ authorityOf scheme host port := fun hmem =>
  (isAuthorityChar_spec (authority_chars h hmem)).2.2.2 rfl

theorem hostinfo_authority (parts : SplitResult)
    (hnetloc : parts.netloc = authorityOf scheme host port) :
    parts.hostinfo = (host, if port = scheme.defaultPort then [] else (toString port).toList) := by
  have hopen : '[' ∉ host := fun hmem => (hostChar_ne_bracket (h.chars _ hmem)).1 rfl
  have hclose : ']' ∉ host := fun hmem => (hostChar_ne_bracket (h.chars _ hmem)).2.1 rfl
  have hinfo : afterLast '@' parts.netloc = bracketedHost host ++ portSuffix scheme port := by
    rw [hnetloc, afterLast_none (authority_no_user h), authorityOf_eq]
  simp only [SplitResult.hostinfo, hinfo]
  by_cases hcolon : ':' ∈ host
  · rw [bracketedHost_colon hcolon, partition_cons]
    simp only [if_true, partition_append hclose, partition_portSuffix]
  · rw [bracketedHost_plain hcolon]
    have hplain : '[' ∉ host ++ portSuffix scheme port := by
      intro hmem
      rcases mem_append.mp hmem with hmem | hmem
      · exact hopen hmem
      · exact (hostChar_ne_bracket (portSuffix_chars hmem)).1 rfl
    simp only [partition_none hplain, Bool.false_eq_true, if_false]
    unfold portSuffix
    split
    · rw [append_nil, partition_none hcolon]
    · rw [partition_append hcolon]

theorem authority_valid :
    bracketsValid A (authorityOf scheme host port) = true ∧
      netlocValid (authorityOf scheme host port) = true := by
  have hclose : ']' ∉ host := fun hmem => (hostChar_ne_bracket (h.chars _ hmem)).2.1 rfl
  have hascii : isAscii (authorityOf scheme host port) = true := by
    rw [isAscii, all_eq_true]
    intro c hc
    rw [decide_eq_true_eq]
    exact (isAuthorityChar_spec (authority_chars h hc)).1
  refine ⟨?_, by rw [netlocValid, hascii, Bool.true_or]⟩
  unfold bracketsValid
  rw [afterLast_none (authority_no_user h), authorityOf_eq]
  by_cases hcolon : ':' ∈ host
  · obtain ⟨hv6, hchars⟩ := h.colon hcolon
    have hhost : bracketedHostValid A host = true := by
      unfold bracketedHostValid
      split
      · exact absurd (hchars 'v' mem_cons_self) (by decide)
      · exact hv6
    rw [bracketedHost_colon hcolon, partition_cons]
    simp only [partition_append hclose, hhost]
    unfold portSuffix
    split <;> simp
  · rw [bracketedHost_plain hcolon]
    have hplain : ∀ c ∈ host ++ portSuffix scheme port, isHostChar c = true := by
      intro c hmem
      rcases mem_append.mp hmem with hmem | hmem
      · exact h.chars c hmem
      · exact portSuffix_chars hmem
    rw [if_neg]
    simp only [contains_eq_mem, Bool.or_eq_true, decide_eq_true_eq, not_or]
    exact ⟨fun hmem => (hostChar_ne_bracket (hplain _ hmem)).1 rfl,
      fun hmem => (hostChar_ne_bracket (hplain _ hmem)).2.1 rfl⟩

theorem hostname_authority (parts : SplitResult)
    (hnetloc : parts.netloc = authorityOf scheme host port) : parts.hostname = host := by
  have hpercent : '%' ∉ host := fun hmem => (hostChar_ne_bracket (h.chars _ hmem)).2.2 rfl
  obtain ⟨hascii, hlower⟩ := hostChars_ascii h.chars
  simp only [SplitResult.hostname, hostinfo_authority h parts hnetloc, partition_none hpercent,
    lower, hascii, if_true, hlower, Bool.false_eq_true, if_false, append_nil]

theorem port_authority (parts : SplitResult)
    (hnetloc : parts.netloc = authorityOf scheme host port) (hport : port ≤ 65535) :
    parts.port.map (fun found => found.getD scheme.defaultPort) = some port := by
  have hdigits : (toString port).toList.all Char.isDigit = true := by
    rw [all_eq_true]
    intro c hc
    exact isDigit_toString hc
  simp only [SplitResult.port, hostinfo_authority h parts hnetloc]
  by_cases hdefault : port = scheme.defaultPort
  · simp [hdefault]
  · have hempty : (toString port).toList.isEmpty = false := by
      rw [isEmpty_eq_false_iff]
      exact toString_ne_nil port
    simp only [if_neg hdefault, hempty, hdigits, digitsValue_toString, hport, decide_true,
      Bool.false_eq_true, if_false, Bool.and_self, if_true, Option.map_some, Option.getD_some]

end Authorities

/-! ## URLs -/

def targetOf (path query : Chars) : Chars := if query = [] then path else path ++ '?' :: query

theorem urlunsplit_eq {netloc path query : Chars} (hnetloc : netloc ≠ [])
    (hpath : path.head? = some '/') :
    urlunsplit ⟨scheme.name, netloc, path, query, []⟩ =
      scheme.name ++ ':' :: '/' :: '/' :: netloc ++ targetOf path query := by
  have hscheme : scheme.name ≠ [] := by cases scheme <;> decide
  simp only [urlunsplit, hnetloc, hscheme, ne_eq, not_false_eq_true, true_or, if_true, hpath,
    not_true_eq_false, and_false, if_false, targetOf]
  by_cases hquery : query = []
  · simp [hquery]
  · simp [hquery]

/-- A path from the root and a query, both of canonical characters. -/
structure CanonicalTarget (path query : Chars) : Prop where
  root : path.head? = some '/'
  path : ∀ c ∈ path, isPathChar c = true
  query : ∀ c ∈ query, isQueryChar c = true

namespace CanonicalTarget

variable {path query : Chars} (h : CanonicalTarget path query)

include h

theorem head : (targetOf path query).head? = some '/' := by
  unfold targetOf
  split
  · exact h.root
  · rw [head?_append, h.root, Option.some_or]

theorem chars (hc : c ∈ targetOf path query) : isQueryChar c = true := by
  unfold targetOf at hc
  split at hc
  · exact isQueryChar_of_path (h.path c hc)
  · rcases mem_append.mp hc with hc | hc
    · exact isQueryChar_of_path (h.path c hc)
    · rcases mem_cons.mp hc with rfl | hc
      · decide
      · exact h.query c hc

theorem no_fragment : '#' ∉ targetOf path query :=
  fun hmem => (isQueryChar_visible (h.chars hmem)).2 rfl

theorem split :
    (partition '?' (targetOf path query)).1 = path ∧
      (partition '?' (targetOf path query)).2.2 = query := by
  have hquestion : '?' ∉ path := fun hmem => isPathChar_ne_question (h.path _ hmem) rfl
  unfold targetOf
  split
  · rename_i hnil
    rw [partition_none hquestion, hnil]
    exact ⟨rfl, rfl⟩
  · rw [partition_append hquestion]
    exact ⟨rfl, rfl⟩

end CanonicalTarget

section Urls

variable {host path query : Chars} {literal : Bool}

theorem splitScheme_name (rest : Chars) :
    splitScheme [] (scheme.name ++ ':' :: rest) = (scheme.name, rest) := by
  have hcolon : ':' ∉ scheme.name := by cases scheme <;> decide
  simp only [splitScheme, partition_append hcolon]
  cases scheme <;> rfl

theorem urlsplit_clean {url : Chars} (h : ∀ c ∈ url, 32 < c.toNat) :
    ((url.dropWhile fun c => decide (c.toNat ≤ 32)).filter fun c =>
      c != '\t' && c != '\r' && c != '\n') = url := by
  have hdrop : (url.dropWhile fun c => decide (c.toNat ≤ 32)) = url := by
    cases url with
    | nil => rfl
    | cons c rest =>
      have hc := h c mem_cons_self
      rw [dropWhile_cons_of_neg (by simpa using hc)]
  rw [hdrop, filter_eq_self]
  intro c hc
  have hvisible := h c hc
  simp only [Bool.and_eq_true, bne_iff_ne, ne_eq]
  refine ⟨⟨?_, ?_⟩, ?_⟩ <;> rintro rfl <;> exact absurd hvisible (by decide)

variable {A : Type} [IpAddresses A] [Unicode] (h : HostValid A host literal)

include h

theorem splitNetloc_authority (rest : Chars) (hrest : rest.head? = some '/') :
    splitNetloc (authorityOf scheme host port ++ rest) = (authorityOf scheme host port, rest) := by
  obtain ⟨tail, rfl⟩ : ∃ tail, rest = '/' :: tail := by
    cases rest with
    | nil => cases hrest
    | cons c tail =>
      cases hrest
      exact ⟨tail, rfl⟩
  have hfront : ∀ c ∈ authorityOf scheme host port, (!isNetlocEnd c) = true := by
    intro c hc
    rw [(isAuthorityChar_spec (authority_chars h hc)).2.2.1]
    rfl
  have hstop : (!isNetlocEnd '/') = false := by decide
  obtain ⟨htake, hdrop⟩ : (authorityOf scheme host port ++ '/' :: tail).takeWhile
        (fun c => !isNetlocEnd c) = authorityOf scheme host port ∧
      (authorityOf scheme host port ++ '/' :: tail).dropWhile (fun c => !isNetlocEnd c) =
        '/' :: tail := takeWhile_stop hfront hstop
  rw [splitNetloc, htake, hdrop]

variable (htarget : CanonicalTarget path query)

include htarget

/-- The characters of a canonical URL can be seen, so `urlsplit` removes none. -/
theorem canonical_visible :
    ∀ c ∈ scheme.name ++ ':' :: '/' :: '/' :: authorityOf scheme host port ++ targetOf path query,
      32 < c.toNat := by
  intro c hc
  have hname : ∀ c ∈ scheme.name, 32 < c.toNat := by
    cases scheme <;> exact all_iff_forall_prop.mp (by decide)
  simp only [mem_append, mem_cons] at hc
  rcases hc with (hc | rfl | rfl | rfl | hc) | hc
  · exact hname c hc
  · decide
  · decide
  · decide
  · exact (isAuthorityChar_spec (authority_chars h hc)).2.1
  · exact (isQueryChar_visible (htarget.chars hc)).1

theorem urlsplit_canonical :
    urlsplit A [] (scheme.name ++ ':' :: '/' :: '/' :: authorityOf scheme host port ++
        targetOf path query) =
      some ⟨scheme.name, authorityOf scheme host port, path, query, []⟩ := by
  have hvisible : ∀ c ∈ scheme.name ++ ':' :: '/' :: '/' :: authorityOf scheme host port ++
      targetOf path query, 32 < c.toNat := canonical_visible h htarget
  obtain ⟨hfound, hrest⟩ := htarget.split
  obtain ⟨hbrackets, hnetloc⟩ : bracketsValid A (authorityOf scheme host port) = true ∧
      netlocValid (authorityOf scheme host port) = true := authority_valid h
  unfold urlsplit
  rw [urlsplit_clean hvisible]
  simp only [append_assoc, cons_append, splitScheme_name,
    splitNetloc_authority h _ htarget.head, partition_none htarget.no_fragment, hfound, hrest,
    hbrackets, hnetloc, Bool.and_self, if_true]

end Urls

end SuperMew.WebResearch
