import SuperMew.Runs.Model
import Mathlib.Data.List.Sort

/-! What the run operations return, and the normalisation of what they are given. -/

namespace SuperMew.Runs

open Relational

structure RunRecord where
  id : RunId
  threadId : String
  status : RunStatus
  idempotencyKey : String
  requestHash : String
  multitaskStrategy : MultitaskStrategy
  fencingToken : ℕ
  userMessageId : Id
  assistantMessageId : Id
  supersedesRunId : Option RunId
  modelName : String
  modelCatalogHash : String
  onDisconnect : String
  ownerWorkerId : Option String
  leaseExpiresAt : Option Time
  deadlineAt : Option Time
  startedAt : Option Time
  finishedAt : Option Time
  errorCode : Option String
  skill : Option SkillActivation
  inputTokens : ℕ
  outputTokens : ℕ
  cost : String
  createdAt : Time
  updatedAt : Time
  error : Option Json

def Run.record [ErrorCodec] (run : Run) (runId : RunId) (threadId : String) : RunRecord where
  id := runId
  threadId := threadId
  status := run.status
  idempotencyKey := run.idempotencyKey
  requestHash := run.requestHash
  multitaskStrategy := run.multitaskStrategy
  fencingToken := run.fencingToken
  userMessageId := run.userMessageId.getD 0
  assistantMessageId := run.assistantMessageId.getD 0
  supersedesRunId := run.supersedesRunId
  modelName := run.modelName
  modelCatalogHash := run.modelCatalogHash
  onDisconnect := run.onDisconnect
  ownerWorkerId := run.ownerWorkerId
  leaseExpiresAt := run.leaseExpiresAt
  deadlineAt := run.deadlineAt
  startedAt := run.startedAt
  finishedAt := run.finishedAt
  errorCode := run.errorCode
  skill := run.skill
  inputTokens := run.inputTokens
  outputTokens := run.outputTokens
  cost := run.cost.text
  createdAt := run.createdAt
  updatedAt := run.updatedAt
  error := run.errorDetailRedacted.bind ErrorCodec.contract

structure RunReservation where
  run : RunRecord
  created : Bool
  threadVersion : ℕ
  createdEvent : Option RunEvent

/-! ## Requests -/

/-- A model snapshot, whose hash is checked when it is built. -/
structure ModelCatalogSnapshot where
  catalogHash : String
  body : Json
  hash_length : catalogHash.length = 64

def emptyModelCatalogSnapshot : ModelCatalogSnapshot where
  catalogHash := "44136fa355b3678a1146ad16f7e8649e94fb4fc21fe77e8310c060f61caaff8a"
  body := .other "empty_model_snapshot"
  hash_length := by decide

/-- `value or default`, where an empty text counts as absent. -/
def orDefault (value : Option String) (default : String) : String :=
  (value.filter (· ≠ "")).getD default

def isDigit (c : Char) : Bool := '0' ≤ c && c ≤ '9'

def isLower (c : Char) : Bool := 'a' ≤ c && c ≤ 'z'

def isUpper (c : Char) : Bool := 'A' ≤ c && c ≤ 'Z'

/-- A text whose first character meets `first` and whose others meet `rest`. -/
def matchesPattern (first rest : Char → Bool) (value : String) : Bool :=
  match value.toList with
  | [] => false
  | c :: cs => first c && cs.all rest

/-- `validate_thread_id`; the pattern is `[A-Za-z0-9][A-Za-z0-9_.:-]{0,119}`. -/
def validateThreadId (value : String) : Except Fault String :=
  let alphanumeric := fun c => isLower c || isUpper c || isDigit c
  if matchesPattern alphanumeric (fun c => alphanumeric c || "_.:-".toList.contains c) value &&
      value.length ≤ 120 then .ok value
  else .error (.runtime "ValueError")

def validateIdempotencyKey (value : String) : Except Fault String := do
  let key := strip value
  raiseIf (key = "" ∨ 128 < key.length) {
    code := .invalidRequest
    message := "idempotency_key 必须为 1-128 个字符"
    statusCode := 400 }
  pure key

/-- `_security_identifier`; the pattern is `[a-z][a-z0-9_.:-]*`. -/
def securityIdentifier (value fieldName : String) (maximum : ℕ) : Except Fault String := do
  let candidate := strip value
  raiseIf (maximum < candidate.length ∨ matchesPattern isLower
      (fun c => isLower c || isDigit c || "_.:-".toList.contains c) candidate = false) {
    code := .invalidRequest
    message := s!"{fieldName} 不是有效的安全标识符"
    statusCode := 400 }
  pure candidate

/-- `_approved_tools`; a name matches `[a-z][a-z0-9_.-]{0,127}`. -/
def checkApprovedTools (values : List String) : Except Fault (List String) := do
  let normalized := values.dedup
  raiseIf (32 < normalized.length ∨ ∃ name ∈ normalized, 128 < name.length ∨ matchesPattern isLower
      (fun c => isLower c || isDigit c || "_.-".toList.contains c) name = false) {
    code := .invalidRequest
    message := "approved_tools 包含非法工具名称"
    statusCode := 400 }
  pure normalized

def sortedTools (tools : List String) : List String := tools.insertionSort (· ≤ ·)

def hashRunRequest [Platform] (message modelName modelCatalogHash tenantId channel : String)
    (approvedTools : List String) : String :=
  let tools := sortedTools approvedTools
  Platform.payloadHash [("message", .str message), ("model_name", .str modelName),
    ("model_catalog_hash", .str modelCatalogHash), ("tenant_id", .str tenantId),
    ("channel", .str channel), ("approved_tools", .other s!"{tools}"), ("schema_version", .int 2)]

end SuperMew.Runs
