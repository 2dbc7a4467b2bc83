import SuperMew.Core.Text
import SuperMew.Library.Table

/-! The tables of the document catalog. Generated identifiers are natural numbers:
only their equality and their use as a last sort key matter. -/

namespace SuperMew.Documents

open Relational

abbrev Id := ℕ

inductive DocumentVersionStatus where
  | uploaded
  | parsing
  | indexing
  | staged
  | ready
  | failed
  | superseded
  deriving DecidableEq, Repr

def DocumentVersionStatus.active : DocumentVersionStatus → Bool
  | uploaded | parsing | indexing | staged | ready => true
  | failed | superseded => false

inductive IndexJobStatus where
  | pending
  | running
  | retryWait
  | staged
  | completed
  | failed
  | cancelled
  | deadLetter
  deriving DecidableEq, Repr

namespace IndexJobStatus

def terminal : IndexJobStatus → Bool
  | completed | failed | cancelled | deadLetter => true
  | pending | running | retryWait | staged => false

def transitions : IndexJobStatus → List IndexJobStatus
  | pending => [pending, running, retryWait, failed, cancelled]
  | running => [running, retryWait, staged, failed, cancelled, deadLetter]
  | retryWait => [retryWait, pending, running, failed, cancelled, deadLetter]
  | staged => [staged, completed, failed, cancelled]
  | completed => [completed]
  | failed => [failed]
  | cancelled => [cancelled]
  | deadLetter => [deadLetter]

/-- The stored text, as it appears in error messages. -/
def value : IndexJobStatus → String
  | pending => "pending"
  | running => "running"
  | retryWait => "retry_wait"
  | staged => "staged"
  | completed => "completed"
  | failed => "failed"
  | cancelled => "cancelled"
  | deadLetter => "dead_letter"

end IndexJobStatus

inductive CleanupJobStatus where
  | pending
  | running
  | retryWait
  | completed
  | deadLetter
  deriving DecidableEq, Repr

inductive DocumentStatus where
  | pending
  | indexing
  | updating
  | ready
  | failed
  | deleted
  deriving DecidableEq, Repr

inductive StoreKind where
  | vector
  | parent
  deriving DecidableEq, Repr

structure BuildProfile where
  parserVersion : String
  chunkerVersion : String
  embeddingModel : String
  indexVersion : String
  deriving DecidableEq, Repr

def BuildProfile.fingerprint [Platform] (p : BuildProfile) : String :=
  Platform.payloadHash [
    ("schema_version", .int 1),
    ("parser_version", .str p.parserVersion),
    ("chunker_version", .str p.chunkerVersion),
    ("embedding_model", .str p.embeddingModel),
    ("index_version", .str p.indexVersion)]

/-! ## Rows -/

structure KnowledgeBase where
  tenantId : String
  name : String
  ownerId : ℤ
  active : Bool
  catalogRevision : ℕ
  updatedAt : Time
  deriving DecidableEq, Repr

structure Document where
  tenantId : String
  knowledgeBaseId : String
  canonicalName : String
  ownerId : ℤ
  currentVersionId : Option Id
  pendingVersionId : Option Id
  publicationFence : ℕ
  versionCounter : ℕ
  status : DocumentStatus
  deletedAt : Option Time
  createdAt : Time
  updatedAt : Time
  deriving DecidableEq, Repr

structure DocumentVersion where
  documentId : Id
  contentSha256 : String
  buildFingerprint : String
  versionNumber : ℕ
  sourceObjectKey : String
  mediaType : String
  sizeBytes : ℕ
  profile : BuildProfile
  vectorCollection : String
  status : DocumentVersionStatus
  chunkCount : ℕ
  parentChunkCount : ℕ
  errorCode : Option String
  errorDetailRedacted : Option String
  publishedAt : Option Time
  supersededAt : Option Time
  cleanupAfter : Option Time
  indexCleanedAt : Option Time
  cleanupErrorCode : Option String
  createdAt : Time
  updatedAt : Time
  deriving DecidableEq, Repr

structure IndexJob where
  documentVersionId : Id
  status : IndexJobStatus
  currentStep : String
  progress : ℤ
  attempts : ℕ
  maxAttempts : ℕ
  publicationFence : ℕ
  executionFence : ℕ
  expectedCurrentVersionId : Option Id
  ownerWorkerId : Option String
  leaseExpiresAt : Option Time
  heartbeatAt : Option Time
  nextRetryAt : Option Time
  errorCode : Option String
  errorDetailRedacted : Option String
  stepState : Dict
  startedAt : Option Time
  finishedAt : Option Time
  createdAt : Time
  updatedAt : Time
  deriving DecidableEq, Repr

structure DocumentCleanupJob where
  documentVersionId : Id
  status : CleanupJobStatus
  currentStep : String
  attempts : ℕ
  maxAttempts : ℕ
  ownerWorkerId : Option String
  executionFence : ℕ
  leaseExpiresAt : Option Time
  heartbeatAt : Option Time
  nextRetryAt : Option Time
  errorCode : Option String
  errorDetailRedacted : Option String
  stepState : Dict
  startedAt : Option Time
  finishedAt : Option Time
  createdAt : Time
  updatedAt : Time
  deriving DecidableEq, Repr

structure DocumentRetirementJob where
  documentId : Id
  tenantId : String
  canonicalName : String
  publicationFence : ℕ
  cleanupVersionIds : List Id
  errorCode : Option String
  createdAt : Time
  updatedAt : Time
  deriving DecidableEq, Repr

structure IndexManifest where
  documentVersionId : Id
  chunkId : String
  storeKind : StoreKind
  sectionId : String
  chunkLevel : ℕ
  contentHash : String
  indexedAt : Time
  deriving DecidableEq, Repr

structure Catalog where
  knowledgeBases : Table String KnowledgeBase
  documents : Table Id Document
  versions : Table Id DocumentVersion
  jobs : Table Id IndexJob
  cleanups : Table Id DocumentCleanupJob
  retirements : Table String DocumentRetirementJob
  manifests : List IndexManifest

def Catalog.empty : Catalog := ⟨∅, ∅, ∅, ∅, ∅, ∅, []⟩

/-! ## What a call reads from outside -/

/-- The identifiers drawn by one attempt of a transaction; `cleanup v` is drawn if
that attempt creates the cleanup job of version `v`. -/
structure Draws where
  document : Id
  version : Id
  job : Id
  cleanup : Id → Id

/-- The database clock, the clock of the process and the identifiers drawn by the
first and by a repeated attempt. -/
structure Env where
  databaseNow : Time
  utcnow : Time
  draws : Draws
  redraws : Draws

def Env.leaseClock (env : Env) (override : Option Time) : Time := override.getD env.databaseNow

structure IndexJobExecution where
  workerId : String
  executionFence : ℕ
  deriving DecidableEq, Repr

structure CleanupJobExecution where
  workerId : String
  executionFence : ℕ
  deriving DecidableEq, Repr

/-! ## Writes -/

namespace Catalog

variable (s : Catalog)

def putDocument (d : Id) (row : Document) : Catalog := { s with documents := s.documents.put d row }

def putVersion (v : Id) (row : DocumentVersion) : Catalog :=
  { s with versions := s.versions.put v row }

def putJob (j : Id) (row : IndexJob) : Catalog := { s with jobs := s.jobs.put j row }

def putCleanup (c : Id) (row : DocumentCleanupJob) : Catalog :=
  { s with cleanups := s.cleanups.put c row }

def putRetirement (r : String) (row : DocumentRetirementJob) : Catalog :=
  { s with retirements := s.retirements.put r row }

def bumpRevision (knowledgeBaseId : String) (now : Time) : Catalog :=
  match s.knowledgeBases.get knowledgeBaseId with
  | some kb =>
    let row := { kb with catalogRevision := kb.catalogRevision + 1, updatedAt := now }
    { s with knowledgeBases := s.knowledgeBases.put knowledgeBaseId row }
  | none => s

/-! ## Lookups -/

def jobForVersion (v : Id) : Option (Id × IndexJob) :=
  s.jobs.find fun _ job => job.documentVersionId == v

def cleanupForVersion (v : Id) : Option (Id × DocumentCleanupJob) :=
  s.cleanups.find fun _ job => job.documentVersionId == v

def manifestOf (v : Id) : List IndexManifest := s.manifests.filter fun m => m.documentVersionId == v

def manifestCount (v : Id) (kind : StoreKind) : ℕ :=
  ((s.manifestOf v).filter fun m => m.storeKind == kind).length

end Catalog

end SuperMew.Documents
