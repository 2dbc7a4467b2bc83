import Mathlib.Data.Finset.Sort
import Mathlib.Data.Rat.Floor
import SuperMew.Skills.Registry

/-! The records of the capability control plane, and the checks made whenever one is built:
from a request, or from the row that was stored. -/

namespace SuperMew.Capabilities

open Tools Skills

/-! ## Identifiers -/

/-- The text matches `[first][rest]*`. -/
def isWord (first rest : Char → Bool) (text : String) : Bool :=
  match text.toList with
  | [] => false
  | c :: cs => first c && cs.all rest

def isRoleName : String → Bool :=
  isWord Char.isLower fun c => isLowerAlnum c || c == ':' || c == '_' || c == '-'

def isSecretName : String → Bool := isWord Char.isUpper fun c => c.isUpper || c.isDigit || c == '_'

def isHeaderName (name : String) : Bool :=
  isWord Char.isAlpha (fun c => c.isAlphanum || c == '-') name && decide (name.length ≤ 127)

/-- The name matches `[a-z0-9]+(?:-[a-z0-9]+)*`. -/
def isDashedName (name : String) : Bool :=
  (name.toList.splitOn '-').all fun part => !part.isEmpty && part.all isLowerAlnum

def isKebabName (name : String) : Bool := name.toList.head?.any Char.isLower && isDashedName name

/-! ## Versions -/

/-- The text before the first `mark`, and the text after it. -/
def cut (mark : Char) (text : List Char) : List Char × Option (List Char) :=
  (text.takeWhile (· != mark), (text.dropWhile (· != mark)).tail?)

def isNumber : List Char → Bool
  | [] => false
  | ['0'] => true
  | c :: cs => c != '0' && c.isDigit && cs.all Char.isDigit

def coreNumbers (text : List Char) : Option (List Char × List Char × List Char) :=
  match text.splitOn '.' with
  | [major, minor, patch] =>
    if isNumber major && isNumber minor && isNumber patch then some (major, minor, patch) else none
  | _ => none

def isVersionChar (c : Char) : Bool := c.isAlphanum || c == '-'

def isPrerelease (text : List Char) : Bool :=
  (text.splitOn '.').all fun part =>
    isNumber part || !part.isEmpty && part.all isVersionChar && part.any fun c => !c.isDigit

def isBuild (text : List Char) : Bool :=
  (text.splitOn '.').all fun part => !part.isEmpty && part.all isVersionChar

/-- `_SEMVER` of the skills. -/
def isSemver (version : String) : Bool :=
  let (front, build) := cut '+' version.toList
  let (core, prerelease) := cut '-' front
  (coreNumbers core).isSome && prerelease.all isPrerelease && build.all isBuild

/-- `_SEMVER_PATTERN` of the tools. -/
def isToolVersion (version : String) : Bool :=
  let loose := fun text : List Char => !text.isEmpty && text.all fun c => isVersionChar c || c == '.'
  let (front, build) := cut '+' version.toList
  let (core, prerelease) := cut '-' front
  (coreNumbers core).isSome && prerelease.all loose && build.all loose

def digitsValue (digits : List Char) : ℕ :=
  digits.foldl (fun n c => 10 * n + (c.toNat - '0'.toNat)) 0

/-- `_next_patch`, undefined where it raises. -/
def nextPatch (version : String) : Option String :=
  let isMark := fun c : Char => c == '-' || c == '+'
  let core := version.toList.takeWhile fun c => !isMark c
  if '\n' ∈ version.toList.dropWhile fun c => !isMark c then none
  else (coreNumbers core).map fun (major, minor, patch) =>
    String.ofList major ++ "." ++ String.ofList minor ++ "." ++ toString (digitsValue patch + 1)

/-! ## Lists of names -/

/-- `_unique`: the names without blanks around them, each once, in the order of their first
occurrence. -/
def unique (values : List String) : List String :=
  ((values.map strip).filter (· ≠ "")).reverse.dedup.reverse

/-- The entry is a name that a list of names may hold. -/
def IsEntry (pattern : String → Bool) (item : String) : Prop :=
  item ≠ "" ∧ item.length ≤ 128 ∧ pattern item = true

instance (pattern : String → Bool) (item : String) : Decidable (IsEntry pattern item) :=
  inferInstanceAs (Decidable (_ ∧ _))

def normalizeEntry (label : String) (pattern : String → Bool) (value : String) :
    Except String { item : String // pattern item = true } :=
  if h : IsEntry pattern (strip value) then .ok ⟨strip value, h.2.2⟩
  else .error ("invalid " ++ label ++ " entry: " ++ value)

/-- `_normalize_unique_values`, with the greatest length that every caller gives. -/
def normalizeUniqueValues (label : String) (pattern : String → Bool) (values : List String) :
    Except String { items : List String // ∀ item ∈ items, pattern item = true } := do
  let normalized ← values.mapM (normalizeEntry label pattern)
  failIf (¬ (normalized.map Subtype.val).Nodup) (label ++ " must not contain duplicates")
  pure ⟨(normalized.map Subtype.val).insertionSort (· ≤ ·), fun item hitem => by
    obtain ⟨entry, -, rfl⟩ := List.mem_map.mp ((List.mem_insertionSort _).mp hitem)
    exact entry.2⟩

/-! ## Manifests -/

/-- What a manifest is built with: `schema_version` is 1 and `entrypoint` is `SKILL.md`. -/
structure ManifestFields where
  name : String
  version : String
  description : String
  allowedTools : List String
  requiredRoles : List String
  requiredSecrets : List String

/-- A field that must have `low` to `high` characters. -/
def sized (field : String) (low high : ℕ) (text : String) : Except String Unit :=
  failIf (text.length < low ∨ high < text.length) (field ++ " has a wrong length")

/-- A field that may have `high` entries. -/
def counted {α : Type} (field : String) (high : ℕ) (items : List α) : Except String Unit :=
  failIf (high < items.length) (field ++ " has too many entries")

/-- The validators of `SkillManifest`. -/
def validateManifest (f : ManifestFields) : Except String SkillManifest := do
  sized "name" 1 64 f.name
  sized "version" 1 64 f.version
  sized "description" 1 500 f.description
  failIf (isKebabName (strip f.name) = false) "name must use lowercase kebab-case"
  failIf (isSemver (strip f.version) = false) "version must be a semantic version"
  failIf (strip f.description = "") "description must not be blank"
  let tools ← normalizeUniqueValues "allowed_tools" isToolName f.allowedTools
  let roles ← normalizeUniqueValues "required_roles" isRoleName f.requiredRoles
  let secrets ← normalizeUniqueValues "required_secrets" isSecretName f.requiredSecrets
  pure
    { name := strip f.name
      version := strip f.version
      description := strip f.description
      allowedTools := tools.1
      requiredRoles := roles.1.toFinset
      requiredSecrets := secrets.1.toFinset
      toolNames := tools.2 }

/-- `model_dump`. -/
def dump (m : SkillManifest) : ManifestFields :=
  { name := m.name
    version := m.version
    description := m.description
    allowedTools := m.allowedTools
    requiredRoles := m.requiredRoles.sort (· ≤ ·)
    requiredSecrets := m.requiredSecrets.sort (· ≤ ·) }

/-! ## Skills -/

inductive SkillSource where
  | builtin
  | custom
  deriving DecidableEq, Repr

/-- The columns of a `CapabilitySkillProfile`, without its timestamps. -/
structure SkillProfile where
  name : String
  version : String
  description : String
  instructions : String
  allowedTools : List String
  requiredRoles : List String
  requiredSecrets : List String
  enabled : Bool
  source : SkillSource
  deriving DecidableEq, Repr

def SkillProfile.manifestFields (p : SkillProfile) : ManifestFields :=
  { name := p.name
    version := p.version
    description := p.description
    allowedTools := p.allowedTools
    requiredRoles := p.requiredRoles
    requiredSecrets := p.requiredSecrets }

def validateSkill (p : SkillProfile) : Except String SkillManifest := do
  sized "name" 0 64 p.name
  failIf (isDashedName p.name = false) "name"
  sized "version" 5 64 p.version
  sized "description" 1 500 p.description
  sized "instructions" 1 262144 p.instructions
  counted "allowed_tools" 128 p.allowedTools
  counted "required_roles" 32 p.requiredRoles
  counted "required_secrets" 32 p.requiredSecrets
  validateManifest p.manifestFields

structure ManagedSkillRecord where
  profile : SkillProfile
  valid : (validateSkill profile).isOk = true

/-- The constructor of `ManagedSkillRecord`. -/
def managedSkillRecord (p : SkillProfile) : Except String ManagedSkillRecord :=
  match h : validateSkill p with
  | .ok _ => .ok ⟨p, by rw [h]; rfl⟩
  | .error message => .error message

/-! ## Input schemas -/

mutual

/-- A JSON value; a number is its text. -/
inductive JsonValue where
  | null
  | bool (b : Bool)
  | number (text : String)
  | string (text : String)
  | array (items : JsonItems)
  | object (fields : JsonFields)

inductive JsonItems where
  | nil
  | cons (item : JsonValue) (rest : JsonItems)

inductive JsonFields where
  | nil
  | cons (key : String) (value : JsonValue) (rest : JsonFields)

end

deriving instance DecidableEq for JsonValue, JsonItems, JsonFields

def JsonItems.toList : JsonItems → List JsonValue
  | .nil => []
  | .cons item rest => item :: rest.toList

def JsonFields.toList : JsonFields → List (String × JsonValue)
  | .nil => []
  | .cons key value rest => (key, value) :: rest.toList

/-- Libraries that the records rely on: `check_schema` of `jsonschema`, the length in bytes of
`json.dumps`, undefined where it raises, and `validate_custom_http_endpoint`, which parses
URLs and addresses. The schema of tool results, which the code itself holds, is a good one. -/
class Libraries extends Platform where
  checkSchema : JsonFields → Bool
  dumpedBytes : JsonFields → Option ℕ
  validateEndpoint : String → Except String String
  toolResultSchema : JsonFields
  checkSchema_toolResult : checkSchema toolResultSchema = true
  dumpedBytes_toolResult : (dumpedBytes toolResultSchema).isSome = true

/-- `$ref` and `$dynamicRef` must be texts that start with `#`. -/
def isLocalField : String × JsonValue → Bool
  | (key, value) =>
    !(key == "$ref" || key == "$dynamicRef") ||
      match value with
      | .string text => text.toList.head? == some '#'
      | _ => false

/-- The values below one value. -/
def children : JsonValue → List JsonValue
  | .array items => items.toList
  | .object fields => fields.toList.map Prod.snd
  | _ => []

/-- The loop of `_validate_custom_input_schema`; `budget` is the number of nodes that may
still be seen. -/
def walkSchema : ℕ → List (JsonValue × ℕ) → Except String Unit
  | _, [] => .ok ()
  | 0, _ :: _ => .error "input_schema exceeds the node limit"
  | budget + 1, (value, depth) :: stack => do
      failIf (32 < depth) "input_schema exceeds the depth limit"
      match value with
      | .object fields =>
        failIf (fields.toList.all isLocalField = false) "input_schema references must stay local"
      | _ => pure ()
      -- The last child is on top of the stack.
      walkSchema budget ((children value).reverse.map (·, depth + 1) ++ stack)

variable [Libraries]

def validateCustomInputSchema (schema : JsonFields) : Except String Unit := do
  failIf (Libraries.dumpedBytes schema = none) "input_schema must be JSON serializable"
  failIf ((Libraries.dumpedBytes schema).any (65536 < ·) = true)
    "input_schema exceeds the size limit"
  walkSchema 4096 [(.object schema, 0)]

/-! ## Descriptors -/

/-- What a `ToolDescriptor` is built with. -/
structure DescriptorFields where
  name : String
  description : String
  group : String
  version : String
  inputSchema : JsonFields
  outputSchema : JsonFields
  timeout : ℚ
  maxConcurrency : ℤ
  requiredRoles : List String
  requiredSecrets : List String
  requiresApproval : Bool
  networkPolicy : String
  resultSizeLimit : ℤ
  resourceScope : String
  observabilityMetadataKeys : List String

def isPolicyName (name : String) : Bool := isToolName name && decide (name.length ≤ 64)

def isShort (pattern : String → Bool) (name : String) : Bool :=
  pattern name && decide (name.length ≤ 128)

def normalizeStringSet (field : String) (values : List String) : Except String (List String) := do
  failIf (values.any (strip · == "") = true) (field ++ " must contain only non-empty strings")
  pure (values.map strip)

def jsonSchemaCopy (field : String) (schema : JsonFields) : Except String Unit := do
  failIf (Libraries.checkSchema schema = false) (field ++ " is not a JSON Schema")
  failIf (Libraries.dumpedBytes schema = none) (field ++ " must be JSON serializable")

def checkDescriptorTexts (f : DescriptorFields) : Except String Unit := do
  failIf (isShort isToolName f.name = false) "name must be a valid tool identifier"
  failIf (strip f.description = "") "description must be a non-empty string"
  failIf (strip f.group = "") "group must be a non-empty string"
  failIf (strip f.version = "") "version must be a non-empty string"
  failIf (strip f.networkPolicy = "") "network_policy must be a non-empty string"
  failIf (strip f.resourceScope = "") "resource_scope must be a non-empty string"
  failIf (1000 < (strip f.description).length) "description must be at most 1000 characters"
  failIf (128 < (strip f.group).length) "group must be at most 128 characters"
  failIf (64 < (strip f.version).length) "version must be at most 64 characters"
  failIf (isToolVersion (strip f.version) = false) "version must be semantic version text"
  failIf (isPolicyName (strip f.networkPolicy) = false)
    "network_policy must be a stable policy identifier"
  failIf (isPolicyName (strip f.resourceScope) = false)
    "resource_scope must be a stable policy identifier"

def checkDescriptorBounds (f : DescriptorFields) : Except String Unit := do
  failIf (f.timeout ≤ 0) "timeout must be greater than zero"
  failIf (3600 < f.timeout) "timeout must not exceed 3600 seconds"
  failIf (f.maxConcurrency ≤ 0) "max_concurrency must be greater than zero"
  failIf (256 < f.maxConcurrency) "max_concurrency must not exceed 256"
  failIf (f.resultSizeLimit ≤ 0) "result_size_limit must be greater than zero"
  failIf (104857600 < f.resultSizeLimit) "result_size_limit must not exceed 100 MiB"

/-- A set of names that must all match a pattern. -/
def nameSet (field kind : String) (pattern : String → Bool) (values : List String) :
    Except String (Finset String) := do
  let names ← normalizeStringSet field values
  failIf (names.all pattern = false) (field ++ " contains an invalid " ++ kind)
  pure names.toFinset

/-- `ToolDescriptor.__post_init__`. -/
def toolDescriptor (f : DescriptorFields) : Except String ToolDescriptor := do
  checkDescriptorTexts f
  checkDescriptorBounds f
  jsonSchemaCopy "input_schema" f.inputSchema
  jsonSchemaCopy "output_schema" f.outputSchema
  let roles ← nameSet "required_roles" "role identifier" (isShort isRoleName) f.requiredRoles
  let secrets ← nameSet "required_secrets" "secret identifier" (isShort isSecretName)
    f.requiredSecrets
  let _ ← nameSet "observability_metadata_keys" "identifier" isPolicyName
    f.observabilityMetadataKeys
  pure
    { name := f.name
      description := strip f.description
      group := strip f.group
      requiredRoles := roles
      requiredSecrets := secrets
      requiresApproval := f.requiresApproval
      networkPolicy := strip f.networkPolicy }

/-! ## Custom HTTP tools -/

inductive HttpMethod where
  | get
  | post
  deriving DecidableEq, Repr

/-- The columns of a `CapabilityHttpToolProfile`, without its timestamps. -/
structure HttpToolProfile where
  name : String
  version : String
  description : String
  group : String
  endpoint : String
  method : HttpMethod
  inputSchema : JsonFields
  staticHeaders : List (String × String)
  secretHeaders : List (String × String)
  requiredRoles : List String
  requiresApproval : Bool
  idempotent : Bool
  timeoutSeconds : ℚ
  maxResponseBytes : ℤ
  enabled : Bool
  deriving DecidableEq

section Headers

variable [CaseFold]

def blockedHeaders : List String := [
  "accept-encoding", "connection", "content-type", "content-length", "cookie", "host",
  "proxy-authorization", "proxy-connection", "transfer-encoding"]

def sensitiveHeaders : List String := [
  "authorization", "proxy-authorization", "x-api-key", "api-key"]

def sensitiveMarkers : List String := [
  "authorization", "api-key", "apikey", "access-token", "auth-token", "credential", "password",
  "secret", "signature"]

def isSafeHeaderValue (item : String) : Bool :=
  item != "" && decide (item.length ≤ 4096) &&
    item.toList.all (fun c => c != '\r' && c != '\n' && c.toNat != 0) &&
    !("bearer ".toList.isPrefixOf (CaseFold.casefold item).toList) &&
    !("basic ".toList.isPrefixOf (CaseFold.casefold item).toList)

/-- One header of `_validate_headers`, stripped; `seen` are the folded names before it. -/
def validateHeader (secretRefs : Bool) (seen : List String) (header : String × String) :
    Except String (String × String) := do
  let name := strip header.1
  let folded := CaseFold.casefold name
  let item := strip header.2
  failIf (isHeaderName name = false ∨ folded ∈ blockedHeaders ∨ folded ∈ seen)
    "headers contain an invalid or duplicate name"
  failIf (secretRefs = false ∧
      (folded ∈ sensitiveHeaders ∨ sensitiveMarkers.any (occursIn · folded) = true))
    "sensitive headers must use secret_headers"
  failIf (secretRefs = true ∧ isShort isSecretName item = false)
    "secret_headers values must be environment Secret names"
  failIf (secretRefs = false ∧ isSafeHeaderValue item = false)
    "static header values must be safe single-line text"
  pure (name, item)

def validateHeaders (secretRefs : Bool) : List String → List (String × String) →
    Except String (List (String × String))
  | _, [] => pure []
  | seen, header :: rest => do
      let normalized ← validateHeader secretRefs seen header
      let others ← validateHeaders secretRefs (CaseFold.casefold normalized.1 :: seen) rest
      pure (normalized :: others)

/-- The descriptor of a custom tool, with the two things its callers give it. -/
def HttpToolProfile.descriptorFields (p : HttpToolProfile) (outputSchema : JsonFields)
    (observabilityMetadataKeys : List String) : DescriptorFields :=
  { name := p.name
    description := p.description
    group := p.group
    version := p.version
    inputSchema := p.inputSchema
    outputSchema := outputSchema
    timeout := p.timeoutSeconds
    maxConcurrency := 4
    requiredRoles := p.requiredRoles
    requiredSecrets := p.secretHeaders.map Prod.snd
    requiresApproval := p.requiresApproval
    networkPolicy := "restricted"
    resultSizeLimit := p.maxResponseBytes + 65536
    resourceScope := "public-web"
    observabilityMetadataKeys := observabilityMetadataKeys }

def objectSchema : JsonFields := .cons "type" (.string "object") .nil

def JsonFields.get? (fields : JsonFields) (key : String) : Option JsonValue :=
  fields.toList.lookup key

def isObject : JsonValue → Bool
  | .object _ => true
  | _ => false

def checkHttpToolBounds (p : HttpToolProfile) : Except String Unit := do
  failIf (p.timeoutSeconds ≤ 0 ∨ 120 < p.timeoutSeconds) "timeout_seconds"
  failIf (p.maxResponseBytes < 1024 ∨ 8388608 < p.maxResponseBytes) "max_response_bytes"

/-- The other fields of `ManagedHttpToolRecord`, and what its last validator says about the
headers and the input schema. -/
def checkHttpToolFields (p : HttpToolProfile) : Except String Unit := do
  failIf (isShort isToolName p.name = false) "name"
  sized "version" 5 64 p.version
  sized "description" 1 1000 p.description
  failIf (isShort isToolName p.group = false) "group"
  sized "endpoint" 1 2048 p.endpoint
  counted "static_headers" 32 p.staticHeaders
  counted "secret_headers" 16 p.secretHeaders
  counted "required_roles" 32 p.requiredRoles
  failIf (p.staticHeaders.any (fun header => (p.secretHeaders.map fun other =>
      CaseFold.casefold other.1).contains (CaseFold.casefold header.1)) = true)
    "static_headers and secret_headers cannot overlap"
  failIf (p.inputSchema.get? "type" ≠ some (.string "object"))
    "input_schema root type must be object"
  failIf (isObject ((p.inputSchema.get? "properties").getD (.object .nil)) = false)
    "input_schema properties must be an object"
  validateCustomInputSchema p.inputSchema

/-- The validators of `ManagedHttpToolRecord`. Stripping keeps the number of headers. -/
def validateHttpTool (p : HttpToolProfile) : Except String HttpToolProfile := do
  let staticHeaders ← validateHeaders false [] p.staticHeaders
  let secretHeaders ← validateHeaders true [] p.secretHeaders
  let normalized := { p with staticHeaders := staticHeaders, secretHeaders := secretHeaders }
  checkHttpToolBounds normalized
  checkHttpToolFields normalized
  let _ ← toolDescriptor (normalized.descriptorFields objectSchema [])
  pure normalized

/-! ### Checking a checked record again -/

omit [Libraries] [CaseFold] in
theorem strip_strip (s : String) : strip (strip s) = strip s := by
  simp [strip, stripChars_stripChars]

omit [Libraries] in
theorem validateHeader_eq_ok {secretRefs : Bool} {seen : List String}
    {header normalized : String × String}
    (h : validateHeader secretRefs seen header = .ok normalized) :
    normalized = (strip header.1, strip header.2) ∧
      validateHeader secretRefs seen normalized = .ok normalized := by
  have hstripped : normalized = (strip header.1, strip header.2) := by
    simp only [validateHeader, ok_rules] at h
    obtain ⟨-, -, -, -, -, -, -, -, rfl⟩ := h
    rfl
  refine ⟨hstripped, ?_⟩
  rw [← h, hstripped]
  simp [validateHeader, strip_strip]

omit [Libraries] in
theorem validateHeaders_again {secretRefs : Bool} {seen : List String}
    {headers normalized : List (String × String)}
    (h : validateHeaders secretRefs seen headers = .ok normalized) :
    validateHeaders secretRefs seen normalized = .ok normalized := by
  induction headers generalizing seen normalized with
  | nil =>
    rw [validateHeaders, pure_eq_ok] at h
    rw [← h]
    rfl
  | cons header rest ih =>
    simp only [validateHeaders, ok_rules] at h
    obtain ⟨first, hfirst, others, hothers, rfl⟩ := h
    simp only [validateHeaders, (validateHeader_eq_ok hfirst).2, ih hothers, ok_bind]
    rfl

theorem validateHttpTool_again {p q : HttpToolProfile} (h : validateHttpTool p = .ok q) :
    validateHttpTool q = .ok q := by
  simp only [validateHttpTool, ok_rules] at h
  obtain ⟨staticHeaders, hstatic, secretHeaders, hsecret, _, hbounds, _, hfields, _, hdescriptor,
    rfl⟩ := h
  simp only [validateHttpTool, validateHeaders_again hstatic, validateHeaders_again hsecret,
    ok_bind, hbounds, hfields, hdescriptor]
  rfl

structure ManagedHttpToolRecord where
  profile : HttpToolProfile
  valid : validateHttpTool profile = .ok profile

/-- The constructor of `ManagedHttpToolRecord`. -/
def managedHttpToolRecord (p : HttpToolProfile) : Except String ManagedHttpToolRecord :=
  match h : validateHttpTool p with
  | .ok q => .ok ⟨q, validateHttpTool_again h⟩
  | .error message => .error message

end Headers

end SuperMew.Capabilities
