import SuperMew.Documents.Model

/-! Joins, guards and the shared row updates of the catalog operations. -/

namespace SuperMew.Documents

open Relational

/-! ## Joins -/

structure JobGraph where
  jobId : Id
  job : IndexJob
  version : DocumentVersion
  document : Document
  knowledgeBase : KnowledgeBase

namespace JobGraph

def versionId (g : JobGraph) : Id := g.job.documentVersionId

def documentId (g : JobGraph) : Id := g.version.documentId

end JobGraph

structure CleanupGraph where
  jobId : Id
  job : DocumentCleanupJob
  version : DocumentVersion
  document : Document
  knowledgeBase : KnowledgeBase

namespace CleanupGraph

def versionId (g : CleanupGraph) : Id := g.job.documentVersionId

def documentId (g : CleanupGraph) : Id := g.version.documentId

end CleanupGraph

namespace Catalog

variable (s : Catalog)

def joinJob (j : Id) : Option JobGraph := do
  let job ← s.jobs.get j
  let version ← s.versions.get job.documentVersionId
  let document ← s.documents.get version.documentId
  let knowledgeBase ← s.knowledgeBases.get document.knowledgeBaseId
  pure ⟨j, job, version, document, knowledgeBase⟩

def joinCleanup (c : Id) : Option CleanupGraph := do
  let job ← s.cleanups.get c
  let version ← s.versions.get job.documentVersionId
  let document ← s.documents.get version.documentId
  let knowledgeBase ← s.knowledgeBases.get document.knowledgeBaseId
  pure ⟨c, job, version, document, knowledgeBase⟩

end Catalog

variable (s : Catalog)

def jobGraph (jobId : Id) (tenantId : Option String) : Except Fault JobGraph :=
  orRaise ((s.joinJob jobId).filter fun g => tenantId.all (· == g.document.tenantId)) {
    code := .notFound
    message := "索引任务不存在"
    statusCode := 404 }

def cleanupGraph (jobId : Id) : Except Fault CleanupGraph :=
  orRaise (s.joinCleanup jobId) {
    code := .notFound
    message := "文档清理任务不存在"
    statusCode := 404 }

def knowledgeBase (tenantId knowledgeBaseId : String) :
    Except Fault KnowledgeBase :=
  orRaise ((s.knowledgeBases.get knowledgeBaseId).filter fun kb =>
    kb.tenantId == tenantId && kb.active) {
    code := .notFound
    message := "知识库不存在"
    statusCode := 404 }

def documentByName (tenantId canonicalName : String)
    (knowledgeBaseId : Option String) : Except Fault (Option (Id × Document)) :=
  let rows := s.documents.select fun _ doc =>
    doc.tenantId == tenantId && doc.canonicalName == canonicalName &&
      knowledgeBaseId.all (· == doc.knowledgeBaseId)
  match rows with
  | [] => .ok none
  | [row] => .ok (some row)
  | _ => .error (.app {
      code := .conflict
      message := "canonical_name 在多个知识库中不唯一，请指定 knowledge_base_id"
      statusCode := 409 })

def pointerMismatch : AppError where
  code := .conflict
  message := "文档版本指针不属于当前文档"
  statusCode := 409

def versionByPointer (d : Id) (pointer : Option Id) :
    Except Fault (Option (Id × DocumentVersion)) :=
  match pointer with
  | none => .ok none
  | some v =>
    match s.versions.get v with
    | some row => if row.documentId = d then .ok (some (v, row)) else .error (.app pointerMismatch)
    | none => .error (.app pointerMismatch)

/-! ## Records returned to callers -/

structure JobRecord where
  id : Id
  row : IndexJob
  documentId : Id
  canonicalName : String
  tenantId : String

structure DocumentRecord where
  id : Id
  row : Document
  catalogRevision : ℕ
  currentVersion : Option (Id × DocumentVersion)
  pendingVersion : Option (Id × DocumentVersion)
  pendingJob : Option JobRecord

structure VersionBuild where
  job : JobRecord
  document : DocumentRecord
  version : Id × DocumentVersion

structure CleanupBuild where
  job : Id × DocumentCleanupJob
  document : DocumentRecord
  version : Id × DocumentVersion

def jobRecord (j : Id) (job : IndexJob) (d : Id) (doc : Document) : JobRecord :=
  ⟨j, job, d, doc.canonicalName, doc.tenantId⟩

/-- `_document_records` of one document. -/
def documentRecord (d : Id) (doc : Document) : Except Fault DocumentRecord := do
  let load (pointer : Option Id) := pointer.bind fun v => (s.versions.get v).map fun row => (v, row)
  let current := load doc.currentVersionId
  let pending := load doc.pendingVersionId
  let foreign (row : Option (Id × DocumentVersion)) := row.any fun e => e.2.documentId != d
  raiseIf (foreign current || foreign pending) pointerMismatch
  let pendingJob := doc.pendingVersionId.bind s.jobForVersion
  pure {
    id := d
    row := doc
    catalogRevision := ((s.knowledgeBases.get doc.knowledgeBaseId).map (·.catalogRevision)).getD 0
    currentVersion := current
    pendingVersion := pending
    pendingJob := pendingJob.map fun e => jobRecord e.1 e.2 d doc }

/-- `_version_build`, from rows as they stand in `s`. -/
def versionBuild (j : Id) : Except Fault VersionBuild := do
  let g ← jobGraph s j none
  let document ← documentRecord s g.documentId g.document
  pure ⟨jobRecord j g.job g.documentId g.document, document, (g.versionId, g.version)⟩

/-- `_cleanup_build`, from rows as they stand in `s`. -/
def cleanupBuild (c : Id) : Except Fault CleanupBuild := do
  let g ← cleanupGraph s c
  let document ← documentRecord s g.documentId g.document
  pure ⟨(c, g.job), document, (g.versionId, g.version)⟩

/-! ## Guards -/

/-- The lease of a job is the live one of this execution. -/
def liveExecution (owner : Option String) (fence : ℕ) (lease : Option Time)
    (workerId : String) (executionFence : ℕ) (now : Time) : Bool :=
  owner == some workerId && fence == executionFence && lease.any fun e => decide (now < e)

def assertIndexExecution (job : IndexJob) (execution : Option IndexJobExecution) (now : Time) :
    Except Fault Unit :=
  match execution with
  | none =>
    raiseIf (job.ownerWorkerId ≠ none) {
      code := .conflict
      message := "索引任务已由 worker 领取，写入必须携带 execution fence"
      statusCode := 409 }
  | some e =>
    raiseIf (¬ liveExecution job.ownerWorkerId job.executionFence job.leaseExpiresAt
        e.workerId e.executionFence now) {
      code := .conflict
      message := "索引任务 execution lease 已失效"
      statusCode := 409
      safeDetails := [("current_execution_fence", .int job.executionFence)] }

def assertCleanupExecution (job : DocumentCleanupJob) (e : CleanupJobExecution) (now : Time) :
    Except Fault Unit :=
  raiseIf (¬ (liveExecution job.ownerWorkerId job.executionFence job.leaseExpiresAt
      e.workerId e.executionFence now ∧ job.status = .running)) {
    code := .conflict
    message := "清理任务 execution lease 已失效"
    statusCode := 409
    safeDetails := [("current_execution_fence", .int job.executionFence)] }

def assertCandidate (g : JobGraph) (publicationFence : ℕ) : Except Fault Unit := do
  raiseIf g.job.status.terminal {
    code := .conflict
    message := s!"终态索引任务 {g.job.status.value} 不能继续写入候选版本"
    statusCode := 409 }
  raiseIf (publicationFence ≠ g.job.publicationFence ∨
      publicationFence ≠ g.document.publicationFence ∨
      g.document.pendingVersionId ≠ some g.versionId) {
    code := .conflict
    message := "候选版本 fencing token 已失效"
    statusCode := 409
    safeDetails := [("current_publication_fence", .int g.document.publicationFence)] }
  raiseIf (g.document.deletedAt ≠ none) {
    code := .conflict
    message := "已删除文档不能继续发布"
    statusCode := 409 }

/-! ## Shared updates -/

def ensureCleanupJob (env : Env) (draws : Draws) (s : Catalog) (v : Id) (nextRetryAt : Time)
    (maxAttempts : ℕ) : Except Fault Catalog :=
  match s.cleanupForVersion v with
  | some (c, job) =>
    if (job.status = .pending ∨ job.status = .retryWait) ∧
        job.nextRetryAt.all (fun due => decide (nextRetryAt < due)) then
      .ok (s.putCleanup c { job with nextRetryAt := some nextRetryAt, updatedAt := env.utcnow })
    else .ok s
  | none => do
      let cleanups ← s.cleanups.insertNew (draws.cleanup v) {
        documentVersionId := v
        status := .pending
        currentStep := "pending"
        attempts := 0
        maxAttempts := max maxAttempts 1
        ownerWorkerId := none
        executionFence := 0
        leaseExpiresAt := none
        heartbeatAt := none
        nextRetryAt := some nextRetryAt
        errorCode := none
        errorDetailRedacted := none
        stepState := []
        startedAt := none
        finishedAt := none
        createdAt := env.utcnow
        updatedAt := env.utcnow } (.integrity "document_cleanup_jobs_pkey")
      pure { s with cleanups := cleanups }

def IndexJob.cancelled (job : IndexJob) (now : Time) : IndexJob :=
  { job with
    status := .cancelled
    currentStep := "superseded"
    finishedAt := some now
    ownerWorkerId := none
    leaseExpiresAt := none
    updatedAt := now }

def supersedeVersion (env : Env) (draws : Draws) (s : Catalog) (v : Id) (row : DocumentVersion)
    (now cleanupAfter : Time) (cancelJob : Bool) : Except Fault Catalog :=
  let s := s.putVersion v {
    row with
    status := .superseded
    supersededAt := some now
    cleanupAfter := some cleanupAfter
    updatedAt := now }
  match (if cancelJob then s.jobForVersion v else none) with
  | some (j, job) =>
    let s := if job.status.terminal then s else s.putJob j (job.cancelled now)
    ensureCleanupJob env draws s v cleanupAfter job.maxAttempts
  | none => ensureCleanupJob env draws s v cleanupAfter 3

end SuperMew.Documents
