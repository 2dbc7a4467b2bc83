import SuperMew.Documents.Retire

/-! The deletion progress shown to an administrator. -/

namespace SuperMew.Documents

open Relational

def listCleanupJobsForVersions (s : Catalog) (versionIds : List Id) (tenantId : String) :
    Except Fault (List CleanupBuild) :=
  let rows := versionIds.eraseDups.filterMap fun v => do
    let (c, job) ← s.cleanupForVersion v
    let version ← s.versions.get v
    let document ← s.documents.get version.documentId
    if document.tenantId = tenantId then pure (c, job, v, version, document) else none
  rows.mapM fun (c, job, v, version, document) => do
    let record ← documentRecord s version.documentId document
    pure ⟨(c, job), record, (v, version)⟩

inductive DeleteStatus where
  | failed
  | completed
  | cleanupFailed
  | running
  deriving DecidableEq, Repr

inductive StepStatus where
  | completed
  | failed
  | running
  | pending
  deriving DecidableEq, Repr

structure DeleteStep where
  key : String
  label : String
  percent : ℕ
  status : StepStatus
  message : String
  deriving DecidableEq, Repr

def deleteSteps : List (String × String) :=
  [("prepare", "原子撤销检索范围"), ("milvus", "清理向量索引"), ("parent_store", "清理父级分块与缓存"),
    ("object_store", "清理版本对象"), ("finalize", "确认清理状态")]

structure DeleteJobView where
  jobId : String
  cleanupJobId : Option Id
  deadLetterJobIds : List Id
  documentId : Id
  documentVersionId : Option Id
  filename : String
  status : DeleteStatus
  currentStep : String
  message : String
  totalChunks : ℕ
  processedChunks : ℕ
  error : Option String
  attempts : ℕ
  maxAttempts : ℕ
  executionFence : ℕ
  nextRetryAt : Option Time
  createdAt : Time
  updatedAt : Time
  steps : List DeleteStep

/-- What the view decides from the operation and its cleanup jobs. -/
structure DeleteOutcome where
  operationError : Option String
  ledgerIncomplete : Bool
  completed : Bool
  deadLetter : Bool

def deleteOutcome (operation : DocumentRetirementJob) (jobs : List CleanupBuild) : DeleteOutcome :=
  let operationError := operation.errorCode.filter fun code => decide (code ≠ "")
  let ledgerIncomplete := operation.cleanupVersionIds.any fun v =>
    !jobs.any fun item => item.version.1 == v
  { operationError := operationError
    ledgerIncomplete := ledgerIncomplete
    completed := operationError.isNone && !ledgerIncomplete &&
      jobs.all fun item => item.job.2.status == .completed
    deadLetter := jobs.any fun item => item.job.2.status == .deadLetter }

namespace DeleteOutcome

variable (o : DeleteOutcome)

def status : DeleteStatus :=
  if o.operationError.isSome then .failed
  else if o.ledgerIncomplete then .failed
  else if o.completed then .completed
  else if o.deadLetter then .cleanupFailed
  else .running

def message : String :=
  if o.operationError.isSome then "文档删除 scope 未能完整持久化，请重试"
  else if o.ledgerIncomplete then "文档清理账本不完整，不能确认物理数据已清理"
  else if o.completed then "文档物理数据已完成清理"
  else if o.deadLetter then "文档已不可检索，但物理清理失败，需要管理员受控重试"
  else "文档已不可检索，持久化 worker 正在清理物理数据"

def failureCode : Option String :=
  o.operationError <|> if o.ledgerIncomplete then some "CLEANUP_JOB_MISSING" else none

def currentStep (diagnostic : Option CleanupBuild) : String :=
  if o.operationError.isSome then "prepare"
  else if o.ledgerIncomplete then "finalize"
  else if o.completed then "finalize"
  else match diagnostic with
    | none => "milvus"
    | some item =>
      let job := item.job.2
      let raw := if job.status = .deadLetter
        then (job.stepState.get? "failed_step").map Json.text else some job.currentStep
      (raw.filter fun step => deleteSteps.any fun e => e.1 == step).getD "milvus"

def step (index current : ℕ) (key : String) : StepStatus × ℕ :=
  if o.completed then (.completed, 100)
  else if o.operationError.isSome then
    if key = "prepare" then (.failed, 100) else (.pending, 0)
  else if o.ledgerIncomplete then
    (if key = "finalize" then .failed else .pending,
      if key = "prepare" ∨ key = "finalize" then 100 else 0)
  else if index < current then (.completed, 100)
  else if index = current then if o.deadLetter then (.failed, 100) else (.running, 20)
  else (.pending, 0)

def steps (currentStep : String) : List DeleteStep :=
  let current := deleteSteps.findIdx fun e => e.1 == currentStep
  deleteSteps.mapIdx fun index e =>
    let (status, percent) := o.step index current e.1
    ⟨e.1, e.2, percent, status, if index = current then o.message else ""⟩

end DeleteOutcome

/-- The job that the view describes: a dead letter, else an unfinished one, else the last. -/
def diagnosticJob (jobs : List CleanupBuild) : Option CleanupBuild :=
  (jobs.find? fun item => item.job.2.status == .deadLetter) <|>
    (jobs.find? fun item => item.job.2.status != .completed) <|> jobs.getLast?

/-- `_delete_job_view_sync`. -/
def deleteJobView (tenantId retirementJobId : String) (s : Catalog) :
    Except Fault DeleteJobView := do
  let operation ← getRetirementJob s retirementJobId tenantId
  let jobs ← listCleanupJobsForVersions s operation.cleanupVersionIds tenantId
  let o := deleteOutcome operation jobs
  let diagnostic := diagnosticJob jobs
  pure {
    jobId := retirementJobId
    cleanupJobId := diagnostic.map (·.job.1)
    deadLetterJobIds := (jobs.filter fun item => item.job.2.status == .deadLetter).map (·.job.1)
    documentId := operation.documentId
    documentVersionId := diagnostic.map (·.version.1)
    filename := operation.canonicalName
    status := o.status
    currentStep := o.currentStep diagnostic
    message := o.message
    totalChunks := operation.cleanupVersionIds.length
    processedChunks := (jobs.filter fun item => item.job.2.status == .completed).length
    error := o.failureCode <|> diagnostic.bind (·.job.2.errorCode)
    attempts := (diagnostic.map (·.job.2.attempts)).getD 0
    maxAttempts := (diagnostic.map (·.job.2.maxAttempts)).getD 0
    executionFence := (diagnostic.map (·.job.2.executionFence)).getD 0
    nextRetryAt := diagnostic.bind (·.job.2.nextRetryAt)
    createdAt := operation.createdAt
    updatedAt := (jobs.map (·.job.2.updatedAt)).foldl max operation.updatedAt
    steps := o.steps (o.currentStep diagnostic) }

end SuperMew.Documents
