import SuperMew.Documents.Guards

/-! Recording the manifest of a candidate, publishing it and the terminal paths of
an index job. -/

namespace SuperMew.Documents

open Relational

/-! ## Manifest -/

structure ManifestEntry where
  chunkId : String
  contentHash : String
  storeKind : String
  sectionId : String
  chunkLevel : ℤ

/-- A manifest entry that has passed validation. -/
structure ManifestRow where
  chunkId : String
  contentHash : String
  storeKind : StoreKind
  sectionId : String
  chunkLevel : ℕ
  deriving DecidableEq, Repr

variable (env : Env)

section Manifest

variable [Platform]

def manifestEntry (entry : ManifestEntry) : Except Fault ManifestRow := do
  let chunkId ← requiredText entry.chunkId "chunk_id" 512
  let hash ← contentHash entry.contentHash
  let kindText ← requiredText entry.storeKind "store_kind" 32
  let kind ← orRaise
    (if kindText = "vector" then some StoreKind.vector
      else if kindText = "parent" then some StoreKind.parent else none) {
      code := .invalidRequest
      message := "store_kind 仅支持 vector 或 parent"
      statusCode := 400 }
  raiseIf (entry.chunkLevel < 0) {
    code := .invalidRequest
    message := "chunk_level 不能为负数"
    statusCode := 400 }
  pure ⟨chunkId, hash, kind, stripTo entry.sectionId 256, entry.chunkLevel.toNat⟩

/-- The loop of `record_manifest` that rejects repeated `(store_kind, chunk_id)`. -/
def normalizeManifest : List ManifestEntry → List ManifestRow → Except Fault (List ManifestRow)
  | [], normalized => .ok normalized
  | value :: rest, normalized => do
      let entry ← manifestEntry value
      raiseIf (normalized.any fun row =>
          row.storeKind == entry.storeKind && row.chunkId == entry.chunkId) {
        code := .invalidRequest
        message := "manifest 中存在重复的 (store_kind, chunk_id)"
        statusCode := 400 }
      normalizeManifest rest (normalized ++ [entry])

def countKind (rows : List ManifestRow) (kind : StoreKind) : ℕ :=
  (rows.filter fun row => row.storeKind == kind).length

def ManifestRow.stored (row : ManifestRow) (v : Id) (now : Time) : IndexManifest :=
  ⟨v, row.chunkId, row.storeKind, row.sectionId, row.chunkLevel, row.contentHash, now⟩

def Catalog.replaceManifest (s : Catalog) (v : Id) (rows : List IndexManifest) : Catalog :=
  { s with manifests := (s.manifests.filter fun m => m.documentVersionId != v) ++ rows }

structure ManifestRequest where
  jobId : Id
  publicationFence : ℕ
  entries : List ManifestEntry
  vectorChunkCount : Option ℤ
  parentChunkCount : Option ℤ
  execution : Option IndexJobExecution

def recordManifest (r : ManifestRequest) (s : Catalog) :
    Except Fault (VersionBuild × Catalog) := do
  let normalized ← normalizeManifest r.entries []
  let inferredVectors := countKind normalized .vector
  let inferredParents := countKind normalized .parent
  let vectorCount := r.vectorChunkCount.getD inferredVectors
  let parentCount := r.parentChunkCount.getD inferredParents
  raiseIf (vectorCount < 1 ∨ parentCount < 0) {
    code := .invalidRequest
    message := "已验证的向量 chunk 数必须大于 0"
    statusCode := 400 }
  raiseIf (vectorCount ≠ inferredVectors ∨ parentCount ≠ inferredParents) {
    code := .invalidRequest
    message := "显式 chunk count 必须与 exact manifest 完全一致"
    statusCode := 400 }
  let g ← jobGraph s r.jobId none
  let now := env.databaseNow
  assertIndexExecution g.job r.execution now
  assertCandidate g r.publicationFence
  let s := s.replaceManifest g.versionId (normalized.map fun row => row.stored g.versionId now)
  let s := s.putVersion g.versionId {
    g.version with
    status := .staged
    chunkCount := vectorCount.toNat
    parentChunkCount := parentCount.toNat
    errorCode := none
    errorDetailRedacted := none
    updatedAt := now }
  let s := s.putJob r.jobId {
    g.job with
    status := .staged
    currentStep := "verified"
    progress := 95
    stepState := g.job.stepState.merge [
      ("manifest_entry_count", .int normalized.length),
      ("vector_chunk_count", .int vectorCount),
      ("parent_chunk_count", .int parentCount)]
    updatedAt := now }
  let s := s.bumpRevision g.document.knowledgeBaseId now
  let build ← versionBuild s r.jobId
  pure (build, s)

end Manifest

/-! ## Publication -/

structure PublishRequest where
  jobId : Id
  publicationFence : ℕ
  expectedCurrentVersionId : Option Id
  execution : Option IndexJobExecution

structure PublicationResult where
  document : DocumentRecord
  version : Id × DocumentVersion
  previousVersion : Option (Id × DocumentVersion)
  published : Bool

def replacementCleanupGrace : Time := secondsSpan 3600

def Document.published (doc : Document) (v : Id) (now : Time) : Document :=
  { doc with currentVersionId := some v, pendingVersionId := none, status := .ready, updatedAt := now }

def DocumentVersion.published (version : DocumentVersion) (now : Time) : DocumentVersion :=
  { version with
    status := .ready
    publishedAt := some now
    supersededAt := none
    cleanupAfter := none
    indexCleanedAt := none
    cleanupErrorCode := none
    updatedAt := now }

def IndexJob.published (job : IndexJob) (now : Time) : IndexJob :=
  { job with
    status := .completed
    currentStep := "published"
    progress := 100
    ownerWorkerId := none
    leaseExpiresAt := none
    nextRetryAt := none
    finishedAt := some now
    updatedAt := now }

def supersedePrevious (v : Id) (previous : Option (Id × DocumentVersion))
    (s : Catalog) : Except Fault Catalog :=
  match previous with
  | some (p, row) =>
    if p ≠ v then
      supersedeVersion env env.draws s p row env.databaseNow
        (env.databaseNow + replacementCleanupGrace) false
    else .ok s
  | none => .ok s

def publishCandidate (g : JobGraph) (expected : Option Id) (s : Catalog) :
    Except Fault (PublicationResult × Catalog) := do
  let now := env.databaseNow
  let s := s.putDocument g.documentId (g.document.published g.versionId now)
  let previous ← versionByPointer s g.documentId expected
  let s ← supersedePrevious env g.versionId previous s
  let version := g.version.published now
  let s := s.putVersion g.versionId version
  let s := s.putJob g.jobId (g.job.published now)
  let s := s.bumpRevision g.document.knowledgeBaseId now
  let record ← documentRecord s g.documentId (g.document.published g.versionId now)
  pure ({
    document := record
    version := (g.versionId, version)
    previousVersion := previous.bind fun e => (s.versions.get e.1).map fun row => (e.1, row)
    published := true }, s)

def publish (r : PublishRequest) (s : Catalog) :
    Except Fault (PublicationResult × Catalog) := do
  let g ← jobGraph s r.jobId none
  if g.document.currentVersionId = some g.versionId ∧ g.version.status = .ready ∧
      g.job.status = .completed then
    let record ← documentRecord s g.documentId g.document
    pure (⟨record, (g.versionId, g.version), none, false⟩, s)
  else
    assertIndexExecution g.job r.execution env.databaseNow
    assertCandidate g r.publicationFence
    raiseIf (g.job.expectedCurrentVersionId ≠ r.expectedCurrentVersionId) {
      code := .conflict
      message := "预期 current_version 与任务预留不一致"
      statusCode := 409 }
    raiseIf (g.version.status ≠ .staged) {
      code := .conflict
      message := "候选版本尚未完成索引验证"
      statusCode := 409 }
    raiseIf (s.manifestCount g.versionId .vector < 1 ∨
        s.manifestCount g.versionId .vector ≠ g.version.chunkCount ∨
        s.manifestCount g.versionId .parent ≠ g.version.parentChunkCount) {
      code := .conflict
      message := "候选版本 exact manifest 计数不一致"
      statusCode := 409 }
    raiseIf (¬ (g.document.deletedAt = none ∧ g.document.pendingVersionId = some g.versionId ∧
        g.document.publicationFence = r.publicationFence ∧
        g.document.currentVersionId = r.expectedCurrentVersionId)) {
      code := .conflict
      message := "文档 current_version CAS 冲突"
      statusCode := 409
      retryable := true }
    publishCandidate env g r.expectedCurrentVersionId s

/-! ## Terminal paths -/

/-- The version update shared by the failing paths. -/
def DocumentVersion.failedWith (version : DocumentVersion) (code : String)
    (detail : Option String) (now : Time) : DocumentVersion :=
  { version with
    status := .failed
    errorCode := some code
    errorDetailRedacted := detail
    cleanupAfter := some now
    indexCleanedAt := none
    cleanupErrorCode := none
    updatedAt := now }

/-- The document update that clears the pending pointer. -/
def Document.withoutPending (doc : Document) (now : Time) : Document :=
  { doc with
    pendingVersionId := none
    status := if doc.currentVersionId.isSome then .ready else .failed
    updatedAt := now }

/-- The tail shared by `_dead_letter_locked` and `_fail_locked`: fail the version,
clear the pointer if the version still is the candidate, and enqueue its cleanup. -/
def failCandidate (g : JobGraph) (job : IndexJob) (publicationFence : ℕ)
    (code : String) (detail : Option String) (now : Time) (s : Catalog) :
    Except Fault Catalog := do
  let s := s.putJob g.jobId job
  let s :=
    if g.document.pendingVersionId = some g.versionId ∧
        g.document.publicationFence = publicationFence then
      (s.putVersion g.versionId (g.version.failedWith code detail now)).putDocument g.documentId
        (g.document.withoutPending now)
    else if g.version.status ≠ .superseded then
      s.putVersion g.versionId (g.version.failedWith code detail now)
    else s
  let s ← ensureCleanupJob env env.draws s g.versionId now job.maxAttempts
  pure (s.bumpRevision g.document.knowledgeBaseId now)

def deadLetterLocked (g : JobGraph) (publicationFence : ℕ) (code : String)
    (detail : Option String) (now : Time) (s : Catalog) : Except Fault Catalog := do
  raiseIf (publicationFence ≠ g.job.publicationFence) {
    code := .conflict
    message := "索引任务 publication fence 已失效"
    statusCode := 409 }
  if g.job.status = .deadLetter then pure s
  else
    raiseIf (g.job.status ∈ [.completed, .failed, .cancelled]) {
      code := .conflict
      message := s!"终态任务 {g.job.status.value} 不能改写为 dead_letter"
      statusCode := 409 }
    failCandidate env g {
      g.job with
      status := .deadLetter
      currentStep := "dead_letter"
      errorCode := some code
      errorDetailRedacted := detail
      stepState := g.job.stepState.set "last_error_code" (.str code)
      ownerWorkerId := none
      leaseExpiresAt := none
      nextRetryAt := none
      finishedAt := some now
      updatedAt := now } publicationFence code detail now s

def failLocked (g : JobGraph) (publicationFence : ℕ) (code : String)
    (detail : Option String) (patch : Dict) (execution : Option IndexJobExecution)
    (clock : Time) (s : Catalog) : Except Fault Catalog := do
  raiseIf (publicationFence ≠ g.job.publicationFence) {
    code := .conflict
    message := "索引任务 fencing token 已失效"
    statusCode := 409 }
  if g.job.status = .failed ∧ execution = none then pure s
  else
    assertIndexExecution g.job execution clock
    raiseIf (g.job.status ∈ [.completed, .cancelled, .deadLetter]) {
      code := .conflict
      message := s!"终态任务 {g.job.status.value} 不能改写为 failed"
      statusCode := 409 }
    failCandidate env g {
      g.job with
      status := .failed
      currentStep := "failed"
      errorCode := some code
      errorDetailRedacted := detail
      stepState := g.job.stepState.merge patch
      ownerWorkerId := none
      leaseExpiresAt := none
      finishedAt := some clock
      updatedAt := clock } publicationFence code detail clock s

section Fail

variable [Platform]

structure FailRequest where
  jobId : Id
  publicationFence : ℕ
  errorCode : String
  errorDetailRedacted : Option String
  execution : Option IndexJobExecution

def jobAfter (s : Catalog) (j : Id) : Except Fault JobRecord := do
  let g ← jobGraph s j none
  pure (jobRecord j g.job g.documentId g.document)

def fail (r : FailRequest) (s : Catalog) : Except Fault (JobRecord × Catalog) := do
  let code ← requiredText r.errorCode "error_code" 64
  let detail := errorDetail r.errorDetailRedacted
  let g ← jobGraph s r.jobId none
  let s ← failLocked env g r.publicationFence code detail [] r.execution env.databaseNow s
  let record ← jobAfter s r.jobId
  pure (record, s)

end Fail

end SuperMew.Documents
