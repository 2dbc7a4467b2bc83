import SuperMew.Documents.Jobs

/-! The queue of physical cleanups. -/

namespace SuperMew.Documents

open Relational

variable [Platform]

/-! ## Claiming -/

variable (s : Catalog) (g : CleanupGraph) (env : Env) (job : DocumentCleanupJob) (worker : String)
  (clock : Time)

/-- The `ready` predicate of `claim_cleanup_job` on the job row. -/
def DocumentCleanupJob.ready : Bool :=
  match job.status with
  | .pending =>
    job.nextRetryAt.all (fun due => decide (due ≤ clock)) && job.ownerWorkerId.isNone
  | .retryWait =>
    job.nextRetryAt.any (fun due => decide (due ≤ clock)) && job.ownerWorkerId.isNone
  | .running => leaseFree job.ownerWorkerId job.leaseExpiresAt clock
  | _ => false

def CleanupJobStatus.priority : CleanupJobStatus → ℕ
  | .pending => 0
  | .retryWait => 1
  | _ => 2

def Catalog.cleanupGraphs : List CleanupGraph :=
  s.cleanups.rows.filterMap fun e => s.joinCleanup e.1

def CleanupGraph.ownedBy : Bool :=
  g.job.ownerWorkerId == some worker && g.job.status == .running &&
    g.job.leaseExpiresAt.any fun e => decide (clock < e)

def CleanupGraph.due : Bool :=
  g.job.ready clock && g.version.cleanupAfter.any (fun t => decide (t ≤ clock)) &&
    g.version.indexCleanedAt.isNone

def ownedCleanup : Option CleanupGraph :=
  firstBy (fun g => toLex (g.job.createdAt, g.jobId))
    (s.cleanupGraphs.filter fun g => g.ownedBy worker clock)

/-- `NULL` sorts last, as PostgreSQL orders an ascending key. -/
def nullsLast (t : Option Time) : ℕ ×ₗ ℕ :=
  match t with
  | some t => toLex (0, t)
  | none => toLex (1, 0)

def readyCleanup : Option CleanupGraph :=
  firstBy (fun g => toLex (g.job.status.priority,
      toLex (nullsLast g.job.nextRetryAt, toLex (g.job.createdAt, g.jobId))))
    (s.cleanupGraphs.filter fun g => g.due clock)

/-- The version is dead and no pointer of its document names it. -/
def CleanupGraph.safeScope : Bool :=
  (g.version.status == .failed || g.version.status == .superseded) &&
    g.document.currentVersionId != some g.versionId &&
    g.document.pendingVersionId != some g.versionId

def DocumentCleanupJob.deadLettered (code : String)
    (detail : Option String) (now : Time) : DocumentCleanupJob :=
  { job with
    status := .deadLetter
    currentStep := "dead_letter"
    errorCode := some code
    errorDetailRedacted := detail
    ownerWorkerId := none
    leaseExpiresAt := none
    nextRetryAt := none
    stepState := (job.stepState.set "failed_step" (.str job.currentStep)).set "last_error_code"
      (.str code)
    finishedAt := some now
    updatedAt := now }

/-- The writes of a dead letter; `claim_cleanup_job` keeps the old error detail. -/
def deadLetterCleanup (code : String) (detail : Option String) (now : Time)
    (s : Catalog) : Catalog :=
  (s.putCleanup g.jobId (g.job.deadLettered code detail now)).putVersion g.versionId
    { g.version with cleanupErrorCode := some code, updatedAt := now }

def DocumentCleanupJob.claimed (leaseSeconds : ℤ) : DocumentCleanupJob :=
  { job with
    status := .running
    ownerWorkerId := some worker
    executionFence := job.executionFence + 1
    attempts := job.attempts + 1
    startedAt := some (job.startedAt.getD clock)
    heartbeatAt := some clock
    leaseExpiresAt := some (clock + secondsSpan leaseSeconds)
    nextRetryAt := none
    errorCode := none
    errorDetailRedacted := none
    updatedAt := clock }

def DocumentCleanupJob.renewed (leaseSeconds : ℤ) :
    DocumentCleanupJob :=
  { job with
    heartbeatAt := some clock
    leaseExpiresAt := some (clock + secondsSpan leaseSeconds)
    updatedAt := clock }

/-- The `while True` loop of `claim_cleanup_job`; `fuel` bounds its iterations. -/
def claimCleanupLoop (worker : String) (clock : Time) (leaseSeconds : ℤ) :
    ℕ → Catalog → Except Fault (Option Id × Catalog)
  | 0, _ => .error .diverges
  | fuel + 1, s =>
    match readyCleanup s clock with
    | none => .ok (none, s)
    | some g =>
      if ¬ g.safeScope ∨ g.job.maxAttempts ≤ g.job.attempts then
        let code := if ¬ g.safeScope then "CLEANUP_SCOPE_REACTIVATED"
          else "CLEANUP_ATTEMPTS_EXHAUSTED"
        claimCleanupLoop worker clock leaseSeconds fuel
          (deadLetterCleanup g code g.job.errorDetailRedacted clock s)
      else .ok (some g.jobId, s.putCleanup g.jobId (g.job.claimed worker clock leaseSeconds))

structure CleanupClaimRequest where
  workerId : String
  leaseSeconds : ℤ
  now : Option Time

def renewOrClaimCleanup (leaseSeconds : ℤ) (s : Catalog) :
    Except Fault (Option Id × Catalog) :=
  match ownedCleanup s worker clock with
  | some g => .ok (some g.jobId, s.putCleanup g.jobId (g.job.renewed clock leaseSeconds))
  | none => claimCleanupLoop worker clock leaseSeconds (s.cleanups.rows.length + 1) s

def claimedCleanup (claimed : Option Id) : Except Fault (Option CleanupBuild) :=
  match claimed with
  | some c => (cleanupBuild s c).map some
  | none => .ok none

def claimCleanupJob (r : CleanupClaimRequest) (s : Catalog) :
    Except Fault (Option CleanupBuild × Catalog) := do
  let worker ← requiredText r.workerId "worker_id" 128
  raiseIf (r.leaseSeconds < 1) leaseSecondsInvalid
  let clock := env.leaseClock r.now
  let (claimed, s) ← renewOrClaimCleanup worker clock r.leaseSeconds s
  let build ← claimedCleanup s claimed
  pure (build, s)

/-! ## Calls of the owner -/

structure CleanupLeaseRequest where
  jobId : Id
  execution : CleanupJobExecution
  leaseSeconds : ℤ
  now : Option Time

def heartbeatCleanupJob (r : CleanupLeaseRequest) (s : Catalog) :
    Except Fault ((Id × DocumentCleanupJob) × Catalog) := do
  raiseIf (r.leaseSeconds < 1) leaseSecondsInvalid
  let g ← cleanupGraph s r.jobId
  let clock := env.leaseClock r.now
  assertCleanupExecution g.job r.execution clock
  let job := g.job.renewed clock r.leaseSeconds
  pure ((r.jobId, job), s.putCleanup r.jobId job)

structure CleanupUpdateRequest where
  jobId : Id
  execution : CleanupJobExecution
  currentStep : String
  stepStatePatch : Dict

def updateCleanupJob (r : CleanupUpdateRequest) (s : Catalog) :
    Except Fault ((Id × DocumentCleanupJob) × Catalog) := do
  let step ← requiredText r.currentStep "current_step" 64
  let g ← cleanupGraph s r.jobId
  let clock := env.databaseNow
  assertCleanupExecution g.job r.execution clock
  let job := { g.job with
    currentStep := step
    stepState := g.job.stepState.merge r.stepStatePatch
    updatedAt := clock }
  pure ((r.jobId, job), s.putCleanup r.jobId job)

def DocumentCleanupJob.retried (delay : Time) (code : String)
    (detail : Option String) : DocumentCleanupJob :=
  { job with
    status := .retryWait
    errorCode := some code
    errorDetailRedacted := detail
    nextRetryAt := some (clock + delay)
    ownerWorkerId := none
    leaseExpiresAt := none
    heartbeatAt := some clock
    stepState := (job.stepState.set "last_error_code" (.str code)).set "retry_scheduled_at"
      (.int (clock + delay))
    updatedAt := clock }

def scheduleCleanupRetry (r : RetryRequest) (s : Catalog) :
    Except Fault ((Id × DocumentCleanupJob) × Catalog) := do
  let delay ← r.delay
  let code ← requiredText r.errorCode "error_code" 64
  let detail := errorDetail r.errorDetailRedacted
  let g ← cleanupGraph s r.jobId
  let clock := env.leaseClock r.now
  assertCleanupExecution g.job ⟨r.workerId, r.executionFence⟩ clock
  if g.job.maxAttempts ≤ g.job.attempts then
    pure ((r.jobId, g.job.deadLettered code detail clock), deadLetterCleanup g code detail clock s)
  else
    let job := g.job.retried clock delay code detail
    let version := { g.version with cleanupErrorCode := some code, updatedAt := clock }
    pure ((r.jobId, job), (s.putCleanup r.jobId job).putVersion g.versionId version)

structure CleanupDeadLetterRequest where
  jobId : Id
  execution : CleanupJobExecution
  errorCode : String
  errorDetailRedacted : Option String

def deadLetterCleanupJob (r : CleanupDeadLetterRequest) (s : Catalog) :
    Except Fault ((Id × DocumentCleanupJob) × Catalog) := do
  let code ← requiredText r.errorCode "error_code" 64
  let detail := errorDetail r.errorDetailRedacted
  let g ← cleanupGraph s r.jobId
  assertCleanupExecution g.job r.execution env.databaseNow
  pure ((r.jobId, g.job.deadLettered code detail env.databaseNow),
    deadLetterCleanup g code detail env.databaseNow s)

/-! ## Completion and requeue -/

def DocumentCleanupJob.completed (job : DocumentCleanupJob) (finishedAt now : Time) :
    DocumentCleanupJob :=
  { job with
    status := .completed
    currentStep := "completed"
    ownerWorkerId := none
    leaseExpiresAt := none
    nextRetryAt := none
    errorCode := none
    errorDetailRedacted := none
    finishedAt := some finishedAt
    updatedAt := now }

def DocumentVersion.cleaned (version : DocumentVersion) (now : Time) : DocumentVersion :=
  { version with indexCleanedAt := some now, cleanupErrorCode := none, updatedAt := now }

def completeCleanupJob (jobId : Id) (execution : CleanupJobExecution) (s : Catalog) :
    Except Fault (CleanupBuild × Catalog) := do
  let g ← cleanupGraph s jobId
  let clock := env.databaseNow
  assertCleanupExecution g.job execution clock
  raiseIf (¬ g.safeScope) {
    code := .conflict
    message := "当前或候选版本不能确认物理清理完成"
    statusCode := 409 }
  let s := s.putVersion g.versionId (g.version.cleaned clock)
  let s := s.putCleanup jobId (g.job.completed clock clock)
  let s := s.bumpRevision g.document.knowledgeBaseId clock
  let build ← cleanupBuild s jobId
  pure (build, s)

/-- `int(step_state.get("operator_requeues", 0))`. -/
def operatorRequeues (stepState : Dict) : Except Fault ℤ :=
  match stepState.get? "operator_requeues" with
  | none => .ok 0
  | some value =>
    match Platform.toInt value with
    | some n => .ok n
    | none => .error (.runtime "int")

def DocumentCleanupJob.requeued (maxAttempts : Option ℕ)
    (requeues : ℤ) (clock : Time) : DocumentCleanupJob :=
  { job with
    status := .pending
    currentStep := "pending"
    attempts := 0
    maxAttempts := maxAttempts.getD job.maxAttempts
    ownerWorkerId := none
    leaseExpiresAt := none
    heartbeatAt := none
    nextRetryAt := some clock
    errorCode := none
    errorDetailRedacted := none
    stepState := (job.stepState.set "operator_requeues" (.int (requeues + 1))).set
      "last_operator_requeue_at" (.int clock)
    startedAt := none
    finishedAt := none
    updatedAt := clock }

def requeueCleanupJob (jobId : Id) (maxAttempts : Option ℤ) (now : Option Time)
    (s : Catalog) : Except Fault (CleanupBuild × Catalog) := do
  raiseIf (maxAttempts.any fun n => decide (n < 1)) {
    code := .invalidRequest
    message := "max_attempts 必须大于 0"
    statusCode := 400 }
  let g ← cleanupGraph s jobId
  let clock := env.leaseClock now
  raiseIf (g.job.status ≠ .deadLetter) {
    code := .conflict
    message := "仅 dead-letter 清理任务可以由 operator 重新排队"
    statusCode := 409 }
  raiseIf (¬ g.safeScope ∨ g.version.indexCleanedAt ≠ none) {
    code := .conflict
    message := "清理目标 scope 已不满足重新排队条件"
    statusCode := 409 }
  let requeues ← operatorRequeues g.job.stepState
  let s := s.putCleanup jobId (g.job.requeued (maxAttempts.map Int.toNat) requeues clock)
  let s := s.putVersion g.versionId { g.version with cleanupErrorCode := none, updatedAt := clock }
  let build ← cleanupBuild s jobId
  pure (build, s)

/-! ## Cleanup recorded without a worker -/

/-- The refusals of `record_cleanup` on the state of the cleanup job; the result
says whether the cleanup was already recorded. -/
def recordCleanupCheck (version : DocumentVersion) (job : Option (Id × DocumentCleanupJob)) :
    Except Fault Bool := do
  raiseIf (job.any fun e => e.2.status == .running) {
    code := .conflict
    message := "清理任务已由 worker 领取，必须使用 execution finalize"
    statusCode := 409 }
  raiseIf (job.any fun e => e.2.status == .deadLetter) {
    code := .conflict
    message := "dead-letter 清理任务必须先由 operator 重新排队"
    statusCode := 409 }
  raiseIf (job.any (fun e => e.2.status == .completed) ∧ version.indexCleanedAt = none) {
    code := .conflict
    message := "cleanup job 与版本清理状态不一致"
    statusCode := 409 }
  pure (job.any fun e => e.2.status == .completed)

/-- The writes of `record_cleanup` with an error code. -/
def recordCleanupError (v : Id) (version : DocumentVersion)
    (job : Option (Id × DocumentCleanupJob)) (code : String) (now : Time) (s : Catalog) : Catalog :=
  let version := if version.indexCleanedAt.isNone
    then { version with cleanupErrorCode := some code } else version
  let s := s.putVersion v { version with updatedAt := now }
  match job with
  | some (c, row) => s.putCleanup c { row with errorCode := some code, updatedAt := now }
  | none => s

/-- The writes of `record_cleanup` without an error code. -/
def recordCleanupDone (v : Id) (version : DocumentVersion)
    (job : Option (Id × DocumentCleanupJob)) (now : Time) (s : Catalog) : Catalog :=
  let s := s.putVersion v (version.cleaned now)
  match job with
  | some (c, row) => s.putCleanup c (row.completed (row.finishedAt.getD now) now)
  | none => s

def Catalog.joinVersion (v : Id) :
    Option (DocumentVersion × Document × KnowledgeBase) := do
  let version ← s.versions.get v
  let document ← s.documents.get version.documentId
  let knowledgeBase ← s.knowledgeBases.get document.knowledgeBaseId
  pure (version, document, knowledgeBase)

def recordOutcome (v : Id) (version : DocumentVersion) (job : Option (Id × DocumentCleanupJob))
    (errorCode : Option String) (now : Time) (s : Catalog) : Except Fault Catalog :=
  match errorCode.filter (fun text => decide (text ≠ "")) with
  | some text => do
      let code ← requiredText text "error_code" 64
      pure (recordCleanupError v version job code now s)
  | none => .ok (recordCleanupDone v version job now s)

def recordCleanup (v : Id) (errorCode : Option String) (s : Catalog) :
    Except Fault ((Id × DocumentVersion) × Catalog) := do
  let (version, document, _) ← orRaise (s.joinVersion v) {
    code := .notFound
    message := "文档版本不存在"
    statusCode := 404 }
  raiseIf (version.status ≠ .failed ∧ version.status ≠ .superseded) {
    code := .conflict
    message := "仅 failed/superseded 版本可以记录清理结果"
    statusCode := 409 }
  raiseIf (document.currentVersionId = some v ∨ document.pendingVersionId = some v) {
    code := .conflict
    message := "当前或候选版本不能记录物理清理结果"
    statusCode := 409 }
  let now := env.databaseNow
  let job := s.cleanupForVersion v
  let recorded ← recordCleanupCheck version job
  if recorded then pure ((v, version), s)
  else
    let s ← recordOutcome v version job errorCode now s
    let s := s.bumpRevision document.knowledgeBaseId now
    let row ← orRaise (s.versions.get v) {
      code := .notFound
      message := "文档版本不存在"
      statusCode := 404 }
    pure ((v, row), s)

end SuperMew.Documents
