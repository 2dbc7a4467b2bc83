import SuperMew.Documents.Guards
import Mathlib.Data.List.Dedup
import Mathlib.Data.List.Sort

/-! Logical deletion of a document and the ledger of retirement operations. -/

namespace SuperMew.Documents

open Relational

variable [Platform]

def upsertRetirementJob (s : Catalog) (retirementJobId : Option String) (d : Id) (doc : Document)
    (cleanupVersions : List Id) (publicationFence : ℕ) (now : Time) :
    Except Fault (Option String × Catalog) :=
  match retirementJobId with
  | none => .ok (none, s)
  | some text => do
      let jobId ← requiredText text "retirement_job_id" 64
      let sorted (ids : List Id) := ids.dedup.insertionSort (· ≤ ·)
      match s.retirements.get jobId with
      | none =>
        let row : DocumentRetirementJob := {
          documentId := d
          tenantId := doc.tenantId
          canonicalName := doc.canonicalName
          publicationFence := publicationFence
          cleanupVersionIds := sorted cleanupVersions
          errorCode := none
          createdAt := now
          updatedAt := now }
        pure (some jobId, s.putRetirement jobId row)
      | some row =>
        raiseIf (row.documentId ≠ d ∨ row.tenantId ≠ doc.tenantId ∨
            row.canonicalName ≠ doc.canonicalName) {
          code := .conflict
          message := "retirement job identity 与文档不一致"
          statusCode := 409 }
        let row := { row with
          publicationFence := max row.publicationFence publicationFence
          cleanupVersionIds := sorted (row.cleanupVersionIds ++ cleanupVersions)
          errorCode := none
          updatedAt := now }
        pure (some jobId, s.putRetirement jobId row)

structure RetireRequest where
  tenantId : String
  canonicalName : String
  knowledgeBaseId : Option String
  retirementJobId : Option String

structure RetirementResult where
  documentId : Option Id
  tenantId : String
  knowledgeBaseId : Option String
  canonicalName : String
  found : Bool
  alreadyDeleted : Bool
  cleanupVersions : List (Id × DocumentVersion)
  retirementJobId : Option String
  deriving DecidableEq, Repr

/-- The answer for a document that exists, with the version rows as they stand in `s`. -/
def retirementResult (s : Catalog) (d : Id) (doc : Document) (alreadyDeleted : Bool)
    (versions : List Id) (retirementJobId : Option String) : RetirementResult where
  documentId := some d
  tenantId := doc.tenantId
  knowledgeBaseId := some doc.knowledgeBaseId
  canonicalName := doc.canonicalName
  found := true
  alreadyDeleted := alreadyDeleted
  cleanupVersions := versions.filterMap fun v => (s.versions.get v).map fun row => (v, row)
  retirementJobId := retirementJobId

/-! ## Repeated retirement -/

def uncleanedVersions (s : Catalog) (d : Id) : List (Id × DocumentVersion) :=
  (s.versions.select fun _ row =>
    row.documentId == d && (row.status == .failed || row.status == .superseded) &&
      row.indexCleanedAt.isNone).insertionSort fun a b => a.2.versionNumber ≤ b.2.versionNumber

variable (env : Env)

def expediteJob (now : Time) (v : Id) (found : Option (Id × DocumentCleanupJob))
    (s : Catalog) : Except Fault Catalog :=
  match found with
  | none => ensureCleanupJob env env.draws s v now 3
  | some (c, job) =>
    if job.status = .pending ∧ job.nextRetryAt.all (fun due => decide (now < due)) then
      .ok (s.putCleanup c { job with nextRetryAt := some now, updatedAt := now })
    else .ok s

/-- One iteration of the loop over the versions to clean: a cleanup that has never
been tried becomes due at once. -/
def expediteCleanup (now : Time) (s : Catalog) (e : Id × DocumentVersion) :
    Except Fault Catalog := do
  let found := s.cleanupForVersion e.1
  let s ← expediteJob env now e.1 found s
  pure (if found.all (fun e => e.2.status == .pending) ∧
      e.2.cleanupAfter.all (fun due => decide (now < due)) then
    s.putVersion e.1 { e.2 with cleanupAfter := some now, updatedAt := now }
  else s)

def retireAgain (r : RetireRequest) (d : Id) (doc : Document) (s : Catalog) :
    Except Fault (RetirementResult × Catalog) := do
  let now := env.databaseNow
  let cleanupRows := uncleanedVersions s d
  let s ← cleanupRows.foldlM (expediteCleanup env now) s
  let (operationId, s) ← upsertRetirementJob s r.retirementJobId d doc (cleanupRows.map (·.1))
    doc.publicationFence now
  pure (retirementResult s d doc true (cleanupRows.map (·.1)) operationId, s)

/-! ## First retirement -/

def Document.retired (doc : Document) (now : Time) : Document :=
  { doc with
    currentVersionId := none
    pendingVersionId := none
    publicationFence := doc.publicationFence + 1
    status := .deleted
    deletedAt := some now
    updatedAt := now }

def retireCurrent (current : Option (Id × DocumentVersion)) (s : Catalog) :
    Except Fault Catalog :=
  match current with
  | some (v, row) => supersedeVersion env env.draws s v row env.databaseNow env.databaseNow false
  | none => .ok s

def retirePending (current pending : Option (Id × DocumentVersion)) (s : Catalog) :
    Except Fault Catalog :=
  match pending with
  | some (v, row) =>
    if current.all (fun e => e.1 != v) then
      supersedeVersion env env.draws s v row env.databaseNow env.databaseNow true
    else .ok s
  | none => .ok s

def retireFirst (r : RetireRequest) (d : Id) (doc : Document)
    (current pending : Option (Id × DocumentVersion)) (s : Catalog) :
    Except Fault (RetirementResult × Catalog) := do
  let _ ← knowledgeBase s doc.tenantId doc.knowledgeBaseId
  let now := env.databaseNow
  let s ← retireCurrent env current s
  let s ← retirePending env current pending s
  let s := s.putDocument d (doc.retired now)
  let s := s.bumpRevision doc.knowledgeBaseId now
  let cleanupRows := (current.toList.map (·.1) ++ pending.toList.map (·.1)).dedup
  let (operationId, s) ← upsertRetirementJob s r.retirementJobId d doc cleanupRows
    (doc.publicationFence + 1) now
  pure (retirementResult s d doc false cleanupRows operationId, s)

def retire (r : RetireRequest) (s : Catalog) :
    Except Fault (RetirementResult × Catalog) := do
  let name ← requiredText r.canonicalName "canonical_name" 255
  let found ← documentByName s r.tenantId name r.knowledgeBaseId
  match found with
  | none => pure (⟨none, r.tenantId, r.knowledgeBaseId, name, false, false, [], none⟩, s)
  | some (d, doc) =>
    let current ← versionByPointer s d doc.currentVersionId
    let pending ← versionByPointer s d doc.pendingVersionId
    if doc.deletedAt.isSome then retireAgain env r d doc s
    else retireFirst env r d doc current pending s

/-! ## The ledger of retirements -/

def getRetirementJob (s : Catalog) (jobId tenantId : String) :
    Except Fault DocumentRetirementJob :=
  orRaise ((s.retirements.get jobId).filter fun row => row.tenantId == tenantId) {
    code := .notFound
    message := "文档删除任务不存在"
    statusCode := 404 }

def recordRetirementError (jobId tenantId errorCode : String) (s : Catalog) :
    Except Fault (DocumentRetirementJob × Catalog) := do
  let code ← requiredText errorCode "error_code" 64
  let row ← getRetirementJob s jobId tenantId
  let row := { row with errorCode := some code, updatedAt := env.databaseNow }
  pure (row, s.putRetirement jobId row)

end SuperMew.Documents
