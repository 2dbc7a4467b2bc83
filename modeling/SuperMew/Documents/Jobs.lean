import SuperMew.Documents.Publish

/-! The life of an index job between its reservation and its end. -/

namespace SuperMew.Documents

open Relational

variable [Platform]

/-! ## Progress -/

structure UpdateRequest where
  jobId : Id
  publicationFence : ℕ
  status : Option IndexJobStatus
  currentStep : Option String
  progress : Option ℤ
  stepStatePatch : Dict
  incrementAttempts : Bool
  execution : Option IndexJobExecution

variable (env : Env) (r : UpdateRequest) (g : JobGraph) (step : Option String) (job : IndexJob)
  (next : IndexJobStatus)

/-- The job fields that `update_job` writes before it looks at the new status. -/
def IndexJob.updated (r : UpdateRequest) (next : IndexJobStatus)
    (step : Option String) (now : Time) : IndexJob :=
  { job with
    status := next
    currentStep := step.getD job.currentStep
    progress := r.progress.getD job.progress
    attempts := if r.incrementAttempts then job.attempts + 1 else job.attempts
    stepState := job.stepState.merge r.stepStatePatch
    updatedAt := now }

def IndexJob.released (now : Time) : IndexJob :=
  { job with finishedAt := some now, ownerWorkerId := none, leaseExpiresAt := none }

/-- The version of a job that `update_job` ends with CANCELLED or DEAD_LETTER. -/
def endVersion (now : Time) (s : Catalog) : Except Fault Catalog :=
  if next = .cancelled then
    supersedeVersion env env.draws s g.versionId g.version now now false
  else do
    let code ← requiredText (((r.stepStatePatch.get? "error_code").map Json.text).getD
      "INDEX_DEAD_LETTER") "error_code" 64
    let detail := errorDetail ((r.stepStatePatch.get? "error_detail_redacted").map Json.text)
    pure (s.putVersion g.versionId (g.version.failedWith code detail now))

def updateTerminal (now : Time) (s : Catalog) : Except Fault Catalog := do
  let s ← endVersion env r g next now s
  raiseIf (¬ (g.document.pendingVersionId = some g.versionId ∧
      g.document.publicationFence = r.publicationFence)) {
    code := .conflict
    message := "终态任务清除 pending_version CAS 冲突"
    statusCode := 409
    retryable := true }
  let s := s.putDocument g.documentId (g.document.withoutPending now)
  let s ← (if next = .deadLetter then
      ensureCleanupJob env env.draws s g.versionId now job.maxAttempts
    else .ok s)
  pure (s.putJob r.jobId (job.released now))

def runningVersionStatus (step : String) : DocumentVersionStatus :=
  if step ∈ ["parse", "parsing"] then .parsing else .indexing

/-- What `update_job` writes for the new status, once the job row is written. -/
def followStatus (now : Time) (s : Catalog) : Except Fault Catalog :=
  match next with
  | .running =>
    .ok (s.putVersion g.versionId {
      g.version with status := runningVersionStatus job.currentStep, updatedAt := now })
  | .cancelled | .deadLetter => updateTerminal env r g job next now s
  | _ => .ok s

def updateWrites (now : Time) (s : Catalog) : Except Fault Catalog := do
  let job := g.job.updated r next step now
  let s ← followStatus env r g job next now (s.putJob r.jobId job)
  pure (s.bumpRevision g.document.knowledgeBaseId now)

def updateChecks :
    Except Fault Unit := do
  raiseIf (next = .completed ∧ ¬ (g.document.currentVersionId = some g.versionId ∧
      g.version.status = .ready)) {
    code := .conflict
    message := "只有已原子发布的版本才能完成任务"
    statusCode := 409 }
  raiseIf (next = .staged ∧ g.version.status ≠ .staged) {
    code := .conflict
    message := "必须先记录 exact manifest 才能进入 staged"
    statusCode := 409 }
  (if next ≠ .completed then assertCandidate g r.publicationFence else .ok ())
  raiseIf (r.progress.any fun p => decide (p < g.job.progress)) {
    code := .conflict
    message := "progress 不能倒退"
    statusCode := 409 }

def normalizedStep (currentStep : Option String) : Except Fault (Option String) :=
  match currentStep with
  | some text => (requiredText text "current_step" 64).map some
  | none => .ok none

/-- `update_job` after its common checks. -/
def updateTo (clock : Time) (s : Catalog) : Except Fault Catalog :=
  if next = .failed then do
    let code ← requiredText (((r.stepStatePatch.get? "error_code").map Json.text).getD
      "INDEX_BUILD_FAILED") "error_code" 64
    let detail := errorDetail ((r.stepStatePatch.get? "error_detail_redacted").map Json.text)
    let patch := (r.stepStatePatch.erase "error_code").erase "error_detail_redacted"
    failLocked env g r.publicationFence code detail patch r.execution clock s
  else do
    updateChecks r g next
    updateWrites env r g step next clock s

def updateJob (s : Catalog) :
    Except Fault (JobRecord × Catalog) := do
  raiseIf (r.progress.any fun p => decide (¬ (0 ≤ p ∧ p ≤ 100))) {
    code := .invalidRequest
    message := "progress 必须位于 0-100"
    statusCode := 400 }
  let step ← normalizedStep r.currentStep
  let g ← jobGraph s r.jobId none
  raiseIf (r.publicationFence ≠ g.job.publicationFence) {
    code := .conflict
    message := "索引任务 fencing token 已失效"
    statusCode := 409 }
  let clock := env.databaseNow
  assertIndexExecution g.job r.execution clock
  let next := r.status.getD g.job.status
  raiseIf (next ∉ g.job.status.transitions) {
    code := .conflict
    message := s!"索引任务不能从 {g.job.status.value} 转换到 {next.value}"
    statusCode := 409 }
  let s ← updateTo env r g step next clock s
  let record ← jobAfter s r.jobId
  pure (record, s)

/-! ## Claiming -/

def leaseFree (owner : Option String) (lease : Option Time) (clock : Time) : Bool :=
  owner.isNone || lease.all fun e => decide (e ≤ clock)

def IndexJob.ready (clock : Time) : Bool :=
  match job.status with
  | .pending | .running => leaseFree job.ownerWorkerId job.leaseExpiresAt clock
  | .retryWait =>
    job.nextRetryAt.any (fun due => decide (due ≤ clock)) &&
      leaseFree job.ownerWorkerId job.leaseExpiresAt clock
  | .staged =>
    job.nextRetryAt.all (fun due => decide (due ≤ clock)) &&
      leaseFree job.ownerWorkerId job.leaseExpiresAt clock
  | _ => false

def IndexJobStatus.priority : IndexJobStatus → ℕ
  | .staged => 0
  | .pending => 1
  | .retryWait => 2
  | _ => 3

def JobGraph.capable (capability : Option String) : Bool :=
  capability.all fun fingerprint =>
    g.job.status == .staged || g.version.buildFingerprint == fingerprint

def JobGraph.ownedBy (worker : String) (clock : Time) : Bool :=
  g.job.ownerWorkerId == some worker && (g.job.status == .running || g.job.status == .staged) &&
    g.job.leaseExpiresAt.any fun e => decide (clock < e)

/-- The jobs joined with their version, document and knowledge base. -/
def Catalog.jobGraphs (s : Catalog) : List JobGraph := s.jobs.rows.filterMap fun e => s.joinJob e.1

def ownedJob (s : Catalog) (worker : String) (capability : Option String) (clock : Time) :
    Option JobGraph :=
  firstBy (fun g => toLex (g.job.createdAt, g.jobId))
    (s.jobGraphs.filter fun g => g.capable capability && g.ownedBy worker clock)

def readyJob (s : Catalog) (capability : Option String) (clock : Time) : Option JobGraph :=
  firstBy (fun g => toLex (g.job.status.priority, toLex (g.job.createdAt, g.jobId)))
    (s.jobGraphs.filter fun g => g.capable capability && g.job.ready clock)

def JobGraph.candidateOwned : Bool :=
  g.document.deletedAt.isNone && g.document.pendingVersionId == some g.versionId &&
    g.document.publicationFence == g.job.publicationFence && g.version.status.active

/-- The branch that cancels a job whose version is no longer the candidate. -/
def cancelOrphan (clock : Time) (s : Catalog) : Except Fault Catalog :=
  let s := s.putJob g.jobId (g.job.cancelled clock)
  if g.document.currentVersionId ≠ some g.versionId ∧ g.version.status.active then
    supersedeVersion env env.draws s g.versionId g.version clock clock false
  else .ok s

def JobGraph.stagedCrashRecovery : Bool :=
  g.job.status == .staged && g.job.attempts == g.job.maxAttempts && g.job.nextRetryAt.isNone

def IndexJob.claimed (worker : String) (clock : Time) (leaseSeconds : ℤ) : IndexJob :=
  { job with
    status := if job.status = .staged then .staged else .running
    ownerWorkerId := some worker
    executionFence := job.executionFence + 1
    attempts := job.attempts + 1
    startedAt := some (job.startedAt.getD clock)
    heartbeatAt := some clock
    leaseExpiresAt := some (clock + secondsSpan leaseSeconds)
    nextRetryAt := none
    errorCode := none
    errorDetailRedacted := none
    updatedAt := clock }

def IndexJob.renewed (clock : Time) (leaseSeconds : ℤ) : IndexJob :=
  { job with
    heartbeatAt := some clock
    leaseExpiresAt := some (clock + secondsSpan leaseSeconds)
    updatedAt := clock }

def claimedVersionStatus (step : String) : DocumentVersionStatus :=
  if step ∈ ["upload", "uploaded", "reserve", "parse", "parsing"] then .parsing else .indexing

def grantJob (worker : String) (clock : Time) (leaseSeconds : ℤ) (s : Catalog) :
    Catalog :=
  let s := s.putJob g.jobId (g.job.claimed worker clock leaseSeconds)
  if g.job.status = .staged then s
  else s.putVersion g.versionId {
    g.version with status := claimedVersionStatus g.job.currentStep, updatedAt := clock }

/-- The `while True` loop of `claim_index_job`; `fuel` bounds its iterations. -/
def claimLoop (env : Env) (worker : String) (capability : Option String) (clock : Time)
    (leaseSeconds : ℤ) : ℕ → Catalog → Except Fault (Option Id × Catalog)
  | 0, _ => .error .diverges
  | fuel + 1, s =>
    match readyJob s capability clock with
    | none => .ok (none, s)
    | some g =>
      if ¬ g.candidateOwned then do
        let s ← cancelOrphan env g clock s
        claimLoop env worker capability clock leaseSeconds fuel s
      else if g.job.maxAttempts ≤ g.job.attempts ∧ ¬ g.stagedCrashRecovery then do
        let s ← deadLetterLocked env g g.job.publicationFence "INDEX_ATTEMPTS_EXHAUSTED" none
          clock s
        claimLoop env worker capability clock leaseSeconds fuel s
      else .ok (some g.jobId, grantJob g worker clock leaseSeconds s)

structure ClaimRequest where
  workerId : String
  leaseSeconds : ℤ
  buildFingerprint : Option String
  now : Option Time

def leaseSecondsInvalid : AppError where
  code := .invalidRequest
  message := "lease_seconds 必须大于 0"
  statusCode := 400

def claimCapability (buildFingerprint : Option String) : Except Fault (Option String) :=
  match buildFingerprint with
  | some text => (contentHash text).map some
  | none => .ok none

/-- Renew the lease on a job that the worker already owns, or claim a ready one. -/
def renewOrClaim (worker : String) (capability : Option String) (clock : Time)
    (leaseSeconds : ℤ) (s : Catalog) : Except Fault (Option Id × Catalog) :=
  match ownedJob s worker capability clock with
  | some g => .ok (some g.jobId, s.putJob g.jobId (g.job.renewed clock leaseSeconds))
  | none => claimLoop env worker capability clock leaseSeconds (s.jobs.rows.length + 1) s

def claimedBuild (s : Catalog) (claimed : Option Id) : Except Fault (Option VersionBuild) :=
  match claimed with
  | some j => (versionBuild s j).map some
  | none => .ok none

def claimIndexJob (r : ClaimRequest) (s : Catalog) :
    Except Fault (Option VersionBuild × Catalog) := do
  let worker ← requiredText r.workerId "worker_id" 128
  let capability ← claimCapability r.buildFingerprint
  raiseIf (r.leaseSeconds < 1) leaseSecondsInvalid
  let clock := env.leaseClock r.now
  let (claimed, s) ← renewOrClaim env worker capability clock r.leaseSeconds s
  let build ← claimedBuild s claimed
  pure (build, s)

/-! ## Calls of the owner -/

structure LeaseRequest where
  jobId : Id
  execution : IndexJobExecution
  leaseSeconds : ℤ
  now : Option Time

def assertIndexLease (jobId : Id) (execution : IndexJobExecution) (now : Option Time)
    (s : Catalog) : Except Fault VersionBuild := do
  let g ← jobGraph s jobId none
  assertIndexExecution g.job (some execution) (env.leaseClock now)
  assertCandidate g g.job.publicationFence
  versionBuild s jobId

def heartbeatIndexJob (r : LeaseRequest) (s : Catalog) :
    Except Fault (JobRecord × Catalog) := do
  raiseIf (r.leaseSeconds < 1) leaseSecondsInvalid
  let g ← jobGraph s r.jobId none
  let clock := env.leaseClock r.now
  assertIndexExecution g.job (some r.execution) clock
  assertCandidate g g.job.publicationFence
  let s := s.putJob r.jobId (g.job.renewed clock r.leaseSeconds)
  let record ← jobAfter s r.jobId
  pure (record, s)

/-- The delay is a float; `micros` is `none` where it is not finite. -/
structure RetryRequest where
  jobId : Id
  workerId : String
  executionFence : ℕ
  micros : Option ℤ
  errorCode : String
  errorDetailRedacted : Option String
  now : Option Time

def RetryRequest.delay (r : RetryRequest) : Except Fault Time := do
  let delay ← orRaise (r.micros.filter fun n => decide (0 ≤ n)) {
    code := .invalidRequest
    message := "retry_delay_seconds 必须是非负有限数"
    statusCode := 400 }
  pure delay.toNat

def IndexJob.retried (clock delay : Time) (code : String) (detail : Option String) : IndexJob :=
  { job with
    status := if job.status = .staged then .staged else .retryWait
    currentStep := if job.status = .staged then "publish" else job.currentStep
    nextRetryAt := some (clock + delay)
    errorCode := some code
    errorDetailRedacted := detail
    stepState := (job.stepState.set "last_error_code" (.str code)).set "retry_scheduled_at"
      (.int (clock + delay))
    ownerWorkerId := none
    leaseExpiresAt := none
    heartbeatAt := some clock
    updatedAt := clock }

def scheduleIndexRetry (r : RetryRequest) (s : Catalog) :
    Except Fault (JobRecord × Catalog) := do
  let delay ← r.delay
  let code ← requiredText r.errorCode "error_code" 64
  let detail := errorDetail r.errorDetailRedacted
  let g ← jobGraph s r.jobId none
  let clock := env.leaseClock r.now
  assertIndexExecution g.job (some ⟨r.workerId, r.executionFence⟩) clock
  assertCandidate g g.job.publicationFence
  let s ← (if g.job.maxAttempts ≤ g.job.attempts then
      deadLetterLocked env g g.job.publicationFence code detail clock s
    else .ok (s.putJob r.jobId (g.job.retried clock delay code detail)))
  let record ← jobAfter s r.jobId
  pure (record, s)

structure DeadLetterRequest where
  jobId : Id
  execution : IndexJobExecution
  errorCode : String
  errorDetailRedacted : Option String

def deadLetterIndexJob (r : DeadLetterRequest) (s : Catalog) :
    Except Fault (JobRecord × Catalog) := do
  let code ← requiredText r.errorCode "error_code" 64
  let detail := errorDetail r.errorDetailRedacted
  let g ← jobGraph s r.jobId none
  assertIndexExecution g.job (some r.execution) env.databaseNow
  let s ← deadLetterLocked env g g.job.publicationFence code detail env.databaseNow s
  let record ← jobAfter s r.jobId
  pure (record, s)

end SuperMew.Documents
