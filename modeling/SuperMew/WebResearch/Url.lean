import Mathlib.Algebra.GroupWithZero.Nat
import Mathlib.Data.List.Infix
import Mathlib.Data.List.Sort
import SuperMew.Core.Text

/-! `urllib.parse`: how a URL is split into its parts, put together and joined. -/

namespace SuperMew.WebResearch

abbrev Chars := List Char

scoped instance : LawfulBEq Chars := inferInstance

/-! ## Texts -/

/-- What the Unicode tables say of texts that are not ASCII: their lower case, their case
folding, whether NFKC gives them a delimiter, and the codec `idna`, undefined where it
raises. -/
class Unicode where
  lower : Chars → Chars
  casefold : Chars → Chars
  expands : Chars → Bool
  idnaEncode : Chars → Option Chars
  idnaDecode : Chars → Option Chars

def isAscii (text : Chars) : Bool := text.all fun c => c.toNat < 128

section Lower

variable [Unicode]

def lower (text : Chars) : Chars := if isAscii text then text.map Char.toLower else Unicode.lower text

def casefold (text : Chars) : Chars :=
  if isAscii text then text.map Char.toLower else Unicode.casefold text

end Lower

/-- The text before the first `c`, whether there is one, and the text after it. -/
def partition (c : Char) (text : Chars) : Chars × Bool × Chars :=
  (text.takeWhile (· != c), text.contains c, (text.dropWhile (· != c)).tail)

/-- The text after the last `c`, or all of it. -/
def afterLast (c : Char) (text : Chars) : Chars := (text.reverse.takeWhile (· != c)).reverse

/-- The text before the last `c`, or nothing. -/
def beforeLast (c : Char) (text : Chars) : Chars :=
  ((text.reverse.dropWhile (· != c)).tail).reverse

/-- `text.split(c)`. -/
def splitAt (c : Char) : Chars → List Chars
  | [] => [[]]
  | d :: rest =>
    if d = c then [] :: splitAt c rest
    else
      match splitAt c rest with
      | [] => [[d]]
      | part :: parts => (d :: part) :: parts

/-! ## Addresses -/

/-- The module `ipaddress`: texts of addresses, and how the addresses are classified. -/
class IpAddresses (A : Type) where
  parse : Chars → Option A
  str : A → Chars
  isV6 : A → Bool
  ipv4Mapped : A → Option A
  /-- A 6to4, Teredo or NAT64 address. -/
  isTransition : A → Bool
  isPrivate : A → Bool
  isLoopback : A → Bool
  isLinkLocal : A → Bool
  isMulticast : A → Bool
  isReserved : A → Bool
  isUnspecified : A → Bool
  isSiteLocal : A → Bool
  isGlobal : A → Bool
  /-- The order by version and bytes. -/
  before : A → A → Bool

/-! ## Splitting -/

structure SplitResult where
  scheme : Chars
  netloc : Chars
  path : Chars
  query : Chars
  fragment : Chars
  deriving DecidableEq, Repr

def isSchemeChar (c : Char) : Bool :=
  c.isAlpha || c.isDigit || c == '+' || c == '-' || c == '.'

/-- The scheme and the rest, if the text before the first colon is one. -/
def splitScheme (default url : Chars) : Chars × Chars :=
  let parts := partition ':' url
  if parts.2.1 && parts.1.head?.any Char.isAlpha && parts.1.all isSchemeChar then
    (parts.1.map Char.toLower, parts.2.2)
  else (default, url)

def isNetlocEnd (c : Char) : Bool := c == '/' || c == '?' || c == '#'

/-- `_splitnetloc`, after the two slashes. -/
def splitNetloc (url : Chars) : Chars × Chars :=
  (url.takeWhile fun c => !isNetlocEnd c, url.dropWhile fun c => !isNetlocEnd c)

def isHexDigit (c : Char) : Bool :=
  c.isDigit || ('a' ≤ c && c ≤ 'f') || ('A' ≤ c && c ≤ 'F')

section Split

variable (A : Type) [IpAddresses A] [Unicode]

/-- `_check_bracketed_host` does not raise. -/
def bracketedHostValid (host : Chars) : Bool :=
  match host with
  | 'v' :: rest =>
    let parts := partition '.' rest
    !parts.1.isEmpty && parts.1.all isHexDigit && parts.2.1 && !parts.2.2.isEmpty
  | _ => (IpAddresses.parse host : Option A).any IpAddresses.isV6

/-- The brackets of the netloc are balanced, and `_check_bracketed_netloc` does not raise. -/
def bracketsValid (netloc : Chars) : Bool :=
  if netloc.contains '[' || netloc.contains ']' then
    let (before, opened, bracketed) := partition '[' (afterLast '@' netloc)
    let (host, _, after) := partition ']' bracketed
    netloc.contains '[' && netloc.contains ']' &&
      if opened then
        before.isEmpty && (after.isEmpty || after.head? == some ':') && bracketedHostValid A host
      else bracketedHostValid A (partition ':' (afterLast '@' netloc)).1
  else true

/-- `_checknetloc` does not raise. -/
def netlocValid (netloc : Chars) : Bool := isAscii netloc || !Unicode.expands netloc

/-- `urlsplit`, undefined where it raises. -/
def urlsplit (default url : Chars) : Option SplitResult :=
  let url := (url.dropWhile fun c => c.toNat ≤ 32).filter fun c =>
    c != '\t' && c != '\r' && c != '\n'
  let (scheme, url) := splitScheme default url
  let (netloc, url) := match url with
    | '/' :: '/' :: rest => splitNetloc rest
    | _ => ([], url)
  let (url, _, fragment) := partition '#' url
  let (path, _, query) := partition '?' url
  if bracketsValid A netloc && netlocValid netloc then
    some ⟨scheme, netloc, path, query, fragment⟩
  else none

end Split

namespace SplitResult

variable (parts : SplitResult)

/-- `_hostinfo`: the host and the text of the port. -/
def hostinfo : Chars × Chars :=
  let info := afterLast '@' parts.netloc
  let (_, opened, bracketed) := partition '[' info
  if opened then
    let (host, _, after) := partition ']' bracketed
    (host, (partition ':' after).2.2)
  else ((partition ':' info).1, (partition ':' info).2.2)

/-- `hostname`, empty if there is none. The zone of an address keeps its case. -/
def hostname [Unicode] : Chars :=
  let (host, zoned, zone) := partition '%' parts.hostinfo.1
  lower host ++ if zoned then '%' :: zone else []

def digitsValue (digits : Chars) : ℕ :=
  digits.foldl (fun n c => 10 * n + (c.toNat - '0'.toNat)) 0

/-- `port`, undefined where it raises. -/
def port : Option (Option ℕ) :=
  if parts.hostinfo.2.isEmpty then some none
  else if parts.hostinfo.2.all Char.isDigit && digitsValue parts.hostinfo.2 ≤ 65535 then
    some (some (digitsValue parts.hostinfo.2))
  else none

end SplitResult

/-! ## Putting together -/

def usesNetloc : List Chars :=
  ["", "ftp", "http", "gopher", "nntp", "telnet", "imap", "wais", "file", "mms", "https", "shttp",
    "snews", "prospero", "rtsp", "rtsps", "rtspu", "rsync", "svn", "svn+ssh", "sftp", "nfs",
    "git", "git+ssh", "ws", "wss", "itms-services"].map String.toList

def usesRelative : List Chars :=
  ["", "ftp", "http", "gopher", "nntp", "imap", "wais", "file", "https", "shttp", "mms",
    "prospero", "rtsp", "rtsps", "rtspu", "sftp", "svn", "svn+ssh", "ws", "wss"].map String.toList

def usesParams : List Chars :=
  ["", "ftp", "hdl", "prospero", "http", "imap", "https", "shttp", "rtsp", "rtsps", "rtspu",
    "sip", "sips", "mms", "sftp", "tel"].map String.toList

def urlunsplit (parts : SplitResult) : Chars :=
  let url := parts.path
  let url :=
    if parts.netloc ≠ [] ∨ (parts.scheme ≠ [] ∧ parts.scheme ∈ usesNetloc) ∨
        url.take 2 = ['/', '/'] then
      '/' :: '/' :: parts.netloc ++
        if url ≠ [] ∧ url.head? ≠ some '/' then '/' :: url else url
    else url
  let url := if parts.scheme ≠ [] then parts.scheme ++ ':' :: url else url
  let url := if parts.query ≠ [] then url ++ '?' :: parts.query else url
  if parts.fragment ≠ [] then url ++ '#' :: parts.fragment else url

/-! ## Joining -/

/-- `_splitparams`: the parameters of the last segment. -/
def splitParams (scheme path : Chars) : Chars × Chars :=
  if scheme ∈ usesParams ∧ path.contains ';' = true then
    let last := afterLast '/' path
    let front := path.take (path.length - last.length)
    if last.contains ';' then (front ++ (partition ';' last).1, (partition ';' last).2.2)
    else (path, [])
  else (path, [])

def urlunparse (parts : SplitResult) (params : Chars) : Chars :=
  urlunsplit { parts with path := if params ≠ [] then parts.path ++ ';' :: params else parts.path }

/-- The segments after `.` and `..` are taken away. -/
def resolveSegments (segments : List Chars) : List Chars :=
  segments.foldl (fun done segment =>
    if segment = ['.', '.'] then done.dropLast
    else if segment = ['.'] then done
    else done ++ [segment]) []

def joinSegments : List Chars → Chars
  | [] => []
  | [segment] => segment
  | segment :: rest => segment ++ '/' :: joinSegments rest

def joinPath (base path : Chars) : Chars :=
  let parts := splitAt '/' base
  let parts := if parts.getLast? = some [] then parts else parts.dropLast
  let segments :=
    if path.head? = some '/' then splitAt '/' path
    else
      let all := parts ++ splitAt '/' path
      all.take 1 ++ (all.tail.dropLast.filter fun segment => !segment.isEmpty) ++
        (if all.length ≤ 1 then [] else all.getLast?.toList)
  let resolved := resolveSegments segments
  let resolved :=
    if segments.getLast? = some ['.'] ∨ segments.getLast? = some ['.', '.'] then resolved ++ [[]]
    else resolved
  let joined := joinSegments resolved
  if joined = [] then ['/'] else joined

/-- `urljoin`, undefined where it raises. -/
def urljoin (A : Type) [IpAddresses A] [Unicode] (base url : Chars) : Option Chars :=
  if base = [] then some url
  else if url = [] then some base
  else do
    let baseParts ← urlsplit A [] base
    let parts ← urlsplit A baseParts.scheme url
    let (basePath, baseParams) := splitParams baseParts.scheme baseParts.path
    let (path, params) := splitParams parts.scheme parts.path
    if parts.scheme ≠ baseParts.scheme ∨ parts.scheme ∉ usesRelative then pure url
    else if parts.scheme ∈ usesNetloc ∧ parts.netloc ≠ [] then
      pure (urlunparse { parts with path := path } params)
    else
      let netloc := if parts.scheme ∈ usesNetloc then baseParts.netloc else parts.netloc
      if path = [] ∧ params = [] then
        let query := if parts.query = [] then baseParts.query else parts.query
        pure (urlunparse ⟨parts.scheme, netloc, basePath, query, parts.fragment⟩ baseParams)
      else
        pure (urlunparse
          ⟨parts.scheme, netloc, joinPath basePath path, parts.query, parts.fragment⟩ params)

end SuperMew.WebResearch
