import SuperMew.Documents.Guards

/-! Knowledge bases and the reservation of a candidate version. -/

namespace SuperMew.Documents

open Relational

variable [Platform]

/-! ## Knowledge bases -/

variable (env : Env) (draws : Draws) (u : Upload)

/-- `ensure_knowledge_base`; `newId` is the identifier given or drawn. -/
def ensureKnowledgeBase (tenantId : String) (ownerId : ℤ) (name newId : String)
    (s : Catalog) : Except Fault ((String × KnowledgeBase) × Catalog) := do
  let tenant ← requiredText tenantId "tenant_id" 64
  let normalizedName ← requiredText name "name" 160
  match s.knowledgeBases.find fun _ kb => kb.tenantId == tenant && kb.name == normalizedName with
  | some (k, row) =>
    raiseIf (row.ownerId ≠ ownerId) {
      code := .permissionDenied
      message := "无权使用该知识库"
      statusCode := 403 }
    pure ((k, row), s)
  | none =>
    let row : KnowledgeBase := {
      tenantId := tenant
      name := normalizedName
      ownerId := ownerId
      active := true
      catalogRevision := 0
      updatedAt := env.utcnow }
    let knowledgeBases ← s.knowledgeBases.insertNew newId row (.app {
      code := .conflict
      message := "知识库并发创建冲突，请重试"
      statusCode := 409
      retryable := true })
    pure ((newId, row), { s with knowledgeBases := knowledgeBases })

/-! ## Requests -/

structure UploadRequest where
  tenantId : String
  knowledgeBaseId : String
  canonicalName : String
  ownerId : ℤ
  contentSha256 : String
  sourceObjectKey : String
  mediaType : String
  sizeBytes : ℤ
  processingProfile : BuildProfile
  vectorCollection : String
  maxAttempts : ℤ

/-- A request that has passed validation. -/
structure Upload where
  tenant : String
  knowledgeBaseKey : String
  name : String
  ownerId : ℤ
  digest : String
  sourceKey : String
  media : String
  sizeBytes : ℕ
  profile : BuildProfile
  collection : String
  maxAttempts : ℕ

def UploadRequest.validate (r : UploadRequest) : Except Fault Upload := do
  let tenant ← requiredText r.tenantId "tenant_id" 64
  let knowledgeBaseKey ← requiredText r.knowledgeBaseId "knowledge_base_id" 64
  let name ← requiredText r.canonicalName "canonical_name" 255
  let digest ← contentHash r.contentSha256
  let sourceKey ← requiredText r.sourceObjectKey "source_object_key" 512
  raiseIf (r.sizeBytes < 0 ∨ r.maxAttempts < 1) {
    code := .invalidRequest
    message := "size_bytes 和 max_attempts 必须为有效正数"
    statusCode := 400 }
  let parserVersion ← requiredText r.processingProfile.parserVersion "parser_version" 64
  let chunkerVersion ← requiredText r.processingProfile.chunkerVersion "chunker_version" 64
  let indexVersion ← requiredText r.processingProfile.indexVersion "index_version" 64
  pure {
    tenant := tenant
    knowledgeBaseKey := knowledgeBaseKey
    name := name
    ownerId := r.ownerId
    digest := digest
    sourceKey := sourceKey
    media := stripTo r.mediaType 160
    sizeBytes := r.sizeBytes.toNat
    profile := {
      parserVersion := parserVersion
      chunkerVersion := chunkerVersion
      embeddingModel := stripTo r.processingProfile.embeddingModel 160
      indexVersion := indexVersion }
    collection := stripTo r.vectorCollection 160
    maxAttempts := r.maxAttempts.toNat }

structure UploadReservation where
  document : DocumentRecord
  version : Id × DocumentVersion
  job : JobRecord
  created : Bool
  requeued : Bool
  alreadyCurrent : Bool
  publicationFence : ℕ
  expectedCurrentVersionId : Option Id

/-! ## Rows of a new candidate -/

def Upload.document (now : Time) : Document where
  tenantId := u.tenant
  knowledgeBaseId := u.knowledgeBaseKey
  canonicalName := u.name
  ownerId := u.ownerId
  currentVersionId := none
  pendingVersionId := none
  publicationFence := 0
  versionCounter := 0
  status := .pending
  deletedAt := none
  createdAt := now
  updatedAt := now

def Upload.candidate (d : Id) (versionNumber : ℕ) (now : Time) : DocumentVersion where
  documentId := d
  contentSha256 := u.digest
  buildFingerprint := u.profile.fingerprint
  versionNumber := versionNumber
  sourceObjectKey := u.sourceKey
  mediaType := u.media
  sizeBytes := u.sizeBytes
  profile := u.profile
  vectorCollection := u.collection
  status := .uploaded
  chunkCount := 0
  parentChunkCount := 0
  errorCode := none
  errorDetailRedacted := none
  publishedAt := none
  supersededAt := none
  cleanupAfter := none
  indexCleanedAt := none
  cleanupErrorCode := none
  createdAt := now
  updatedAt := now

def Upload.job (v : Id) (doc : Document) (now : Time) : IndexJob where
  documentVersionId := v
  status := .pending
  currentStep := "upload"
  progress := 5
  attempts := 0
  maxAttempts := u.maxAttempts
  publicationFence := doc.publicationFence
  executionFence := 0
  expectedCurrentVersionId := doc.currentVersionId
  ownerWorkerId := none
  leaseExpiresAt := none
  heartbeatAt := none
  nextRetryAt := none
  errorCode := none
  errorDetailRedacted := none
  stepState := [
    ("build_fingerprint", .str u.profile.fingerprint),
    ("message", .str "文件已保存，候选版本等待持久化 worker 构建"),
    ("active_step", .str "upload"),
    ("active_step_percent", .int 100)]
  startedAt := none
  finishedAt := none
  createdAt := now
  updatedAt := now

/-- The completed job that is recreated for a current version without one. -/
def Upload.reusedJob (v : Id) (version : DocumentVersion) (doc : Document)
    (now : Time) : IndexJob :=
  { u.job v doc now with
    status := .completed
    currentStep := "published"
    progress := 100
    expectedCurrentVersionId := some v
    finishedAt := some (version.publishedAt.getD now)
    stepState := [("reused_current", .bool true)] }

def Document.reserved (doc : Document) (v : Id) (now : Time) : Document :=
  { doc with
    versionCounter := doc.versionCounter + 1
    publicationFence := doc.publicationFence + 1
    pendingVersionId := some v
    status := if doc.currentVersionId.isSome then .updating else .indexing
    deletedAt := none
    updatedAt := now }

/-! ## Inserts with their unique constraints -/

def insertVersion (s : Catalog) (v : Id) (row : DocumentVersion) : Except Fault Catalog := do
  violatedIf (s.versions.find fun _ r =>
    r.documentId == row.documentId && r.versionNumber == row.versionNumber).isSome
    "uq_document_version_number"
  violatedIf (row.status.active && (s.versions.find fun _ r =>
    r.status.active && r.documentId == row.documentId &&
      r.contentSha256 == row.contentSha256 && r.buildFingerprint == row.buildFingerprint).isSome)
    "uq_document_content_build_active"
  let versions ← s.versions.insertNew v row (.integrity "document_versions_pkey")
  pure { s with versions := versions }

def insertJob (s : Catalog) (j : Id) (row : IndexJob) : Except Fault Catalog := do
  violatedIf (s.jobForVersion row.documentVersionId).isSome "uq_index_job_document_version"
  let jobs ← s.jobs.insertNew j row (.integrity "index_jobs_pkey")
  pure { s with jobs := jobs }

def insertDocument (s : Catalog) (d : Id) (row : Document) : Except Fault Catalog := do
  violatedIf (s.documents.find fun _ r => r.knowledgeBaseId == row.knowledgeBaseId &&
    r.canonicalName == row.canonicalName).isSome "uq_document_canonical_name"
  let documents ← s.documents.insertNew d row (.integrity "documents_pkey")
  pure { s with documents := documents }

/-! ## Reservation -/

def completedJob (doc : Document) (v : Id)
    (version : DocumentVersion) (s : Catalog) : Except Fault ((Id × IndexJob) × Catalog) :=
  match s.jobForVersion v with
  | none => do
      let row := u.reusedJob v version doc env.utcnow
      let s ← insertJob s draws.job row
      pure ((draws.job, row), s)
  | some (j, job) => do
      raiseIf (job.status ≠ .completed) {
        code := .conflict
        message := "current_version 对应索引任务未完成"
        statusCode := 409 }
      pure ((j, job), s)

/-- The branch that finds the requested content already current. -/
def reuseCurrent (d : Id) (doc : Document) (v : Id) (version : DocumentVersion) (s : Catalog) :
    Except Fault (UploadReservation × Catalog) := do
  raiseIf (version.status ≠ .ready) {
    code := .conflict
    message := "current_version 身份匹配但未处于 ready 状态"
    statusCode := 409 }
  let ((j, job), s) ← completedJob env draws u doc v version s
  let record ← documentRecord s d doc
  pure ({
    document := record
    version := (v, version)
    job := jobRecord j job d doc
    created := false
    requeued := false
    alreadyCurrent := true
    publicationFence := doc.publicationFence
    expectedCurrentVersionId := some v }, s)

def supersedePending (oldPending : Option (Id × DocumentVersion))
    (s : Catalog) : Except Fault Catalog :=
  match oldPending with
  | some (p, row) => supersedeVersion env draws s p row env.utcnow env.utcnow true
  | none => .ok s

def createCandidate (d : Id) (doc : Document)
    (matching : List (Id × DocumentVersion)) (s : Catalog) :
    Except Fault (UploadReservation × Catalog) := do
  raiseIf (matching.any fun e => e.2.status.active &&
      some e.1 != doc.currentVersionId && some e.1 != doc.pendingVersionId) {
    code := .conflict
    message := "存在未被 current/pending 指针持有的活跃同身份版本"
    statusCode := 409 }
  let oldPending ← versionByPointer s d doc.pendingVersionId
  let s ← supersedePending env draws oldPending s
  let doc := doc.reserved draws.version env.utcnow
  let candidate := u.candidate d doc.versionCounter env.utcnow
  let s ← insertVersion s draws.version candidate
  let s := s.putDocument d doc
  let job := u.job draws.version doc env.utcnow
  let s ← insertJob s draws.job job
  let s := s.bumpRevision u.knowledgeBaseKey env.utcnow
  let record ← documentRecord s d doc
  pure ({
    document := record
    version := (draws.version, candidate)
    job := jobRecord draws.job job d doc
    created := true
    requeued := !matching.isEmpty
    alreadyCurrent := false
    publicationFence := doc.publicationFence
    expectedCurrentVersionId := doc.currentVersionId }, s)

def findVersion (matching : List (Id × DocumentVersion)) (pointer : Option Id) :
    Option (Id × DocumentVersion) :=
  matching.find? fun e => some e.1 == pointer

/-- The transaction after the document row is loaded or created. -/
def reserveFor (d : Id) (doc : Document) (s : Catalog) :
    Except Fault (UploadReservation × Catalog) :=
  let matching := s.versions.select fun _ row =>
    row.documentId == d && row.contentSha256 == u.digest &&
      row.buildFingerprint == u.profile.fingerprint
  match findVersion matching doc.currentVersionId with
  | some (v, version) => reuseCurrent env draws u d doc v version s
  | none =>
    let pendingMatch := findVersion matching doc.pendingVersionId
    let pendingJob := pendingMatch.bind fun e => s.jobForVersion e.1
    match pendingMatch, pendingJob with
    | some (v, version), some (j, job) =>
      if version.status.active ∧ job.publicationFence = doc.publicationFence ∧
          job.status ∉ [.failed, .cancelled, .deadLetter] then do
        let record ← documentRecord s d doc
        pure ({
          document := record
          version := (v, version)
          job := jobRecord j job d doc
          created := false
          requeued := false
          alreadyCurrent := false
          publicationFence := doc.publicationFence
          expectedCurrentVersionId := job.expectedCurrentVersionId }, s)
      else createCandidate env draws u d doc matching s
    | _, _ => createCandidate env draws u d doc matching s

def reserveAttempt (s : Catalog) :
    Except Fault (UploadReservation × Catalog) := do
  let _ ← knowledgeBase s u.tenant u.knowledgeBaseKey
  let found ← documentByName s u.tenant u.name (some u.knowledgeBaseKey)
  match found with
  | some (d, doc) =>
    raiseIf (doc.ownerId ≠ u.ownerId) {
      code := .permissionDenied
      message := "无权更新该文档"
      statusCode := 403 }
    reserveFor env draws u d doc s
  | none =>
    let doc := u.document env.utcnow
    let s ← insertDocument s draws.document doc
    reserveFor env draws u draws.document doc s

/-- `reserve_upload`: a violated constraint is retried once with new identifiers. -/
def reserveUpload (request : UploadRequest) (s : Catalog) :
    Except Fault (UploadReservation × Catalog) := do
  let u ← request.validate
  match reserveAttempt env env.draws u s with
  | .error (.integrity _) =>
    match reserveAttempt env env.redraws u s with
    | .error (.integrity _) =>
      .error (.app {
        code := .conflict
        message := "文档候选版本并发预留冲突，请重试"
        statusCode := 409
        retryable := true })
    | outcome => outcome
  | outcome => outcome

end SuperMew.Documents
