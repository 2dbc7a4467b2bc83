import SuperMew.Core.Text
import SuperMew.Library.Table
import SuperMew.Runs.State

/-! Threads, runs, their messages, events and checkpoints. -/

namespace SuperMew.Runs

open Relational

abbrev Id := ℕ

abbrev RunId := String

/-! ## Rows -/

structure User where
  username : String
  role : String

structure Thread where
  userId : Id
  threadId : String
  version : ℕ
  messageCount : ℕ
  lastSequence : ℕ
  title : Option String
  updatedAt : Time
  createdAt : Time

/-- The four `skill_*` columns, which are set together. -/
structure SkillActivation where
  name : String
  version : String
  contentHash : String
  source : String
  deriving DecidableEq, Repr

/-- A cost is stored, printed and compared with zero. -/
structure Decimal where
  text : String
  isZero : Bool
  deriving DecidableEq, Repr

def Decimal.zero : Decimal := ⟨"0", true⟩

structure Run where
  threadRefId : Id
  userId : Id
  tenantId : String
  channel : String
  approvedTools : List String
  status : RunStatus
  idempotencyKey : String
  requestHash : String
  modelName : String
  modelCatalogHash : String
  modelSnapshot : Json
  onDisconnect : String
  multitaskStrategy : MultitaskStrategy
  fencingToken : ℕ
  userMessageId : Option Id
  assistantMessageId : Option Id
  supersedesRunId : Option RunId
  lastEventSequence : ℕ
  ownerWorkerId : Option String
  leaseExpiresAt : Option Time
  deadlineAt : Option Time
  startedAt : Option Time
  finishedAt : Option Time
  errorCode : Option String
  errorDetailRedacted : Option String
  skill : Option SkillActivation
  inputTokens : ℕ
  outputTokens : ℕ
  cost : Decimal
  createdAt : Time
  updatedAt : Time

inductive MessageType where
  | human
  | ai
  /-- Any other role that `append_message` is given. -/
  | other (role : String)
  deriving DecidableEq, Repr

inductive MessageStatus where
  | completed
  | streaming
  | queued
  | waitingInput
  | incomplete
  | cancelled
  | failed
  /-- Any other status that `append_message` or `finalize_message` is given; its text is one
  that the engine leaves alone. -/
  | other (status : String)
  deriving DecidableEq, Repr

def MessageStatus.value : MessageStatus → String
  | completed => "completed"
  | streaming => "streaming"
  | queued => "queued"
  | waitingInput => "waiting_input"
  | incomplete => "incomplete"
  | cancelled => "cancelled"
  | failed => "failed"
  | other status => status

/-- A row of `messages`, with its texts as a session hands them to the engine. -/
structure Message where
  threadRefId : Id
  runId : Option RunId
  clientMessageId : Option String
  sequence : ℕ
  messageType : MessageType
  content : String
  status : MessageStatus
  timestamp : Time
  updatedAt : Time
  ragTrace : Option Json

/-- The row as the database holds it and later sessions read it. -/
def Message.stored [Platform] (row : Message) : Message :=
  { row with
    clientMessageId := row.clientMessageId.map cleanText
    content := cleanText row.content }

inductive RunEventType where
  | runCreated
  | runStarted
  | runWaitingInput
  | runCompleted
  | runFailed
  | runCancelled
  | plannerStarted
  | plannerCompleted
  | toolStarted
  | toolProgress
  | toolCompleted
  | toolFailed
  | toolDenied
  | retrievalStarted
  | retrievalCandidates
  | retrievalRerankCompleted
  | retrievalCompleted
  | messageDelta
  | messageCompleted
  | hitlRequired
  | hitlResumed
  | usageUpdated
  | artifactCreated
  | warningCreated
  deriving DecidableEq, Repr

/-- `TERMINAL_EVENT_TYPES`. -/
def RunEventType.terminal : RunEventType → Bool
  | runCompleted | runFailed | runCancelled => true
  | _ => false

structure RunEvent where
  runId : RunId
  sequence : ℕ
  type : RunEventType
  data : Dict
  createdAt : Time
  deriving DecidableEq, Repr

structure RunCheckpoint where
  runId : RunId
  threadRefId : Id
  userId : Id
  checkpointId : String
  hitlToken : String
  interruptId : String
  resumeIdempotencyKey : Option String
  /-- The stored answer, the one field of the resume payload. -/
  resumeAnswer : Option String
  state : Json
  nextNodes : List String
  consumedAt : Option Time
  createdAt : Time
  updatedAt : Time

structure ToolAudit where
  userId : Id
  threadId : String
  runId : RunId
  auditKey : String
  toolCallId : Option String
  toolName : String
  toolVersion : String
  skillName : String
  decision : String
  reasonCode : Option String
  policyVersion : Option String
  policyHash : Option String
  success : Bool
  errorCode : Option String
  durationMs : ℕ
  resultSize : ℕ
  metadata : Dict
  deriving DecidableEq, Repr

structure Store where
  users : Table Id User
  threads : Table Id Thread
  runs : Table RunId Run
  messages : Table Id Message
  events : List RunEvent
  checkpoints : Table Id RunCheckpoint
  audits : List ToolAudit
  /-- The sequences behind the integer keys. -/
  nextThread : Id
  nextMessage : Id
  nextCheckpoint : Id

/-- The state before the first run: some users and nothing else. -/
def Store.initial (users : Table Id User) : Store := ⟨users, ∅, ∅, ∅, [], ∅, [], 1, 1, 1⟩

structure Settings where
  leaseSeconds : ℕ
  multitaskStrategy : MultitaskStrategy
  disconnectPolicy : String
  defaultDeadlineSeconds : ℕ

/-- What an operation reads from outside: the clock of the process at the start and inside
the transaction, the identifiers it draws and the settings. -/
structure Env where
  now : Time
  utcnow : Time
  runId : RunId
  hitlToken : String
  settings : Settings

/-- `now + timedelta(seconds=lease_seconds)`. -/
def Env.lease (env : Env) (clock : Time) (leaseSeconds : Option ℕ) : Time :=
  let seconds := (leaseSeconds.filter (· ≠ 0)).getD env.settings.leaseSeconds
  clock + secondsSpan seconds

def Run.nextEvent (run : Run) (r : RunId) (type : RunEventType) (data : Dict) (clock : Time) :
    RunEvent :=
  ⟨r, run.lastEventSequence + 1, type, data, clock⟩

/-! ## Writes -/

namespace Store

variable (s : Store)

def putThread (t : Id) (row : Thread) : Store := { s with threads := s.threads.put t row }

def putRun (r : RunId) (row : Run) : Store := { s with runs := s.runs.put r row }

def putMessage (m : Id) (row : Message) : Store := { s with messages := s.messages.put m row }

def putCheckpoint (c : Id) (row : RunCheckpoint) : Store :=
  { s with checkpoints := s.checkpoints.put c row }

/-- Another run of the thread is active: the partial index
`uq_runs_one_active_per_thread` would hold two entries. -/
def otherActive (t : Id) (r : RunId) : Bool :=
  s.runs.rows.any fun e => e.1 != r && e.2.threadRefId == t && e.2.status.active

/-- Write a run whose status may have changed; the database checks the partial index. -/
def writeRun (r : RunId) (row : Run) : Except Fault Store := do
  violatedIf (row.status.active = true ∧ s.otherActive row.threadRefId r = true)
    "uq_runs_one_active_per_thread"
  pure (s.putRun r row)

def appendEvent (r : RunId) (type : RunEventType) (data : Dict) (clock : Time) : Store :=
  match s.runs.get r with
  | none => s
  | some run =>
    { s.putRun r { run with lastEventSequence := run.lastEventSequence + 1 } with
      events := s.events ++ [run.nextEvent r type data clock] }

/-- Set the status of the assistant message, if the run has one. -/
def setMessageStatus (message : Option Id) (status : MessageStatus) (clock : Time) : Store :=
  match message.bind fun m => (s.messages.get m).map fun row => (m, row) with
  | some (m, row) => s.putMessage m { row with status := status, updatedAt := clock }
  | none => s

end Store

/-! ## Errors -/

def runNotFound : AppError where
  code := .runNotFound
  message := "Run 不存在"
  statusCode := 404

def stateConflict (message : String) : AppError where
  code := .runStateConflict
  message := message
  statusCode := 409

/-- A lookup by a foreign key, on whose result the caller takes an attribute. -/
def orAttributeError {α : Type} (row : Option α) : Except Fault α :=
  match row with
  | some a => .ok a
  | none => .error (.runtime "AttributeError")

@[simp] theorem orAttributeError_eq_ok {α : Type} {row : Option α} {a : α} :
    orAttributeError row = .ok a ↔ row = some a := by
  cases row <;> simp [orAttributeError]

@[simp] theorem orAttributeError_eq_error {α : Type} {row : Option α} {fault : Fault} :
    orAttributeError row = .error fault ↔ row = none ∧ fault = .runtime "AttributeError" := by
  cases row <;> simp [orAttributeError, eq_comm]

/-- `PublicError`, with the fields that the run operations give. -/
structure PublicError where
  code : String
  message : String
  statusCode : ℕ
  retryable : Bool
  category : String
  stage : String

/-- `serialize_public_error`, and the contract of the error that
`deserialize_public_error` reads from a stored text. -/
class ErrorCodec where
  serialize : PublicError → String
  contract : String → Option Json

def cancelledPublicError : PublicError where
  code := "RUN_CANCELLED"
  message := "运行已由用户取消。"
  statusCode := 409
  retryable := false
  category := "run"
  stage := "cancellation"

end SuperMew.Runs

namespace SuperMew.PlainPlatform

/-- Errors are stored as their code, and no contract is read back. -/
scoped instance plainCodec : Runs.ErrorCodec where
  serialize e := e.code
  contract _ := none

end SuperMew.PlainPlatform
