import SuperMew.Documents.Cleanup
import SuperMew.Documents.DeleteView
import SuperMew.Documents.Upload
import SuperMew.Library.Run

/-! The catalog as a machine: a call is one transaction, and a run is a list of calls
in the order in which they commit. -/

namespace SuperMew.Documents

variable [Platform]

inductive Op where
  | ensureKnowledgeBase (tenantId : String) (ownerId : ℤ) (name newId : String)
  | reserveUpload (request : UploadRequest)
  | claimIndexJob (request : ClaimRequest)
  | assertIndexLease (jobId : Id) (execution : IndexJobExecution) (now : Option Time)
  | heartbeatIndexJob (request : LeaseRequest)
  | updateJob (request : UpdateRequest)
  | recordManifest (request : ManifestRequest)
  | publish (request : PublishRequest)
  | scheduleIndexRetry (request : RetryRequest)
  | fail (request : FailRequest)
  | deadLetterIndexJob (request : DeadLetterRequest)
  | retire (request : RetireRequest)
  | recordRetirementError (jobId tenantId errorCode : String)
  | claimCleanupJob (request : CleanupClaimRequest)
  | heartbeatCleanupJob (request : CleanupLeaseRequest)
  | updateCleanupJob (request : CleanupUpdateRequest)
  | scheduleCleanupRetry (request : RetryRequest)
  | deadLetterCleanupJob (request : CleanupDeadLetterRequest)
  | completeCleanupJob (jobId : Id) (execution : CleanupJobExecution)
  | requeueCleanupJob (jobId : Id) (maxAttempts : Option ℤ) (now : Option Time)
  | recordCleanup (documentVersionId : Id) (errorCode : Option String)

structure Call where
  env : Env
  op : Op

/-- The clock against which a call measures leases and due times. -/
def Call.clock (call : Call) : Time :=
  match call.op with
  | .claimIndexJob r => call.env.leaseClock r.now
  | .assertIndexLease _ _ now => call.env.leaseClock now
  | .heartbeatIndexJob r => call.env.leaseClock r.now
  | .scheduleIndexRetry r => call.env.leaseClock r.now
  | .claimCleanupJob r => call.env.leaseClock r.now
  | .heartbeatCleanupJob r => call.env.leaseClock r.now
  | .scheduleCleanupRetry r => call.env.leaseClock r.now
  | .requeueCleanupJob _ _ now => call.env.leaseClock now
  | _ => call.env.databaseNow

/-- The catalog after the committed transaction; the answer to the caller is dropped. -/
def Call.commit (call : Call) (s : Catalog) : Except Fault Catalog :=
  let env := call.env
  match call.op with
  | .ensureKnowledgeBase tenantId ownerId name newId =>
    (ensureKnowledgeBase env tenantId ownerId name newId s).map (·.2)
  | .reserveUpload r => (reserveUpload env r s).map (·.2)
  | .claimIndexJob r => (claimIndexJob env r s).map (·.2)
  | .assertIndexLease jobId execution now => (assertIndexLease env jobId execution now s).map fun _ => s
  | .heartbeatIndexJob r => (heartbeatIndexJob env r s).map (·.2)
  | .updateJob r => (updateJob env r s).map (·.2)
  | .recordManifest r => (recordManifest env r s).map (·.2)
  | .publish r => (publish env r s).map (·.2)
  | .scheduleIndexRetry r => (scheduleIndexRetry env r s).map (·.2)
  | .fail r => (fail env r s).map (·.2)
  | .deadLetterIndexJob r => (deadLetterIndexJob env r s).map (·.2)
  | .retire r => (retire env r s).map (·.2)
  | .recordRetirementError jobId tenantId errorCode =>
    (recordRetirementError env jobId tenantId errorCode s).map (·.2)
  | .claimCleanupJob r => (claimCleanupJob env r s).map (·.2)
  | .heartbeatCleanupJob r => (heartbeatCleanupJob env r s).map (·.2)
  | .updateCleanupJob r => (updateCleanupJob env r s).map (·.2)
  | .scheduleCleanupRetry r => (scheduleCleanupRetry env r s).map (·.2)
  | .deadLetterCleanupJob r => (deadLetterCleanupJob env r s).map (·.2)
  | .completeCleanupJob jobId execution => (completeCleanupJob env jobId execution s).map (·.2)
  | .requeueCleanupJob jobId maxAttempts now =>
    (requeueCleanupJob env jobId maxAttempts now s).map (·.2)
  | .recordCleanup v errorCode => (recordCleanup env v errorCode s).map (·.2)

/-- A call that raises is rolled back. -/
def exec (s : Catalog) (call : Call) : Catalog :=
  match call.commit s with
  | .ok s' => s'
  | .error _ => s

def Catalog.after (calls : List Call) : Catalog := Machine.run exec Catalog.empty calls

/-! ## Sample calls

One document in one knowledge base. The number `n` of an upload is drawn for the new
version and its job, and a cleanup job gets the number of its version. -/

namespace Sample

def env (now : Time) (n : Id) : Env := ⟨now, now, ⟨n, n, n, id⟩, ⟨n, n, n, id⟩⟩

def digest (c : Char) : String := String.ofList (List.replicate 64 c)

def createBase : Call := ⟨env 0 0, .ensureKnowledgeBase "tenant" 1 "main" "kb"⟩

def upload (now : Time) (n : Id) (content : Char) : Call := ⟨env now n, .reserveUpload {
  tenantId := "tenant"
  knowledgeBaseId := "kb"
  canonicalName := "guide.pdf"
  ownerId := 1
  contentSha256 := digest content
  sourceObjectKey := "object"
  mediaType := "application/pdf"
  sizeBytes := 1
  processingProfile := ⟨"parser", "chunker", "embedding", "index"⟩
  vectorCollection := "collection"
  maxAttempts := 3 }⟩

def claim (now : Time) (worker : String) : Call :=
  ⟨env now 0, .claimIndexJob ⟨worker, 60, none, none⟩⟩

def stage (now : Time) (j : Id) (fence : ℕ) : Call := ⟨env now 0, .recordManifest {
  jobId := j
  publicationFence := fence
  entries := [⟨"chunk", digest 'c', "vector", "", 0⟩]
  vectorChunkCount := none
  parentChunkCount := none
  execution := none }⟩

def publish (now : Time) (j : Id) (fence : ℕ) (expected : Option Id) : Call :=
  ⟨env now 0, .publish ⟨j, fence, expected, none⟩⟩

def fail (now : Time) (j : Id) (fence : ℕ) : Call :=
  ⟨env now 0, .fail ⟨j, fence, "PARSE_FAILED", none, none⟩⟩

def retire (now : Time) (jobId : Option String) : Call :=
  ⟨env now 0, .retire ⟨"tenant", "guide.pdf", none, jobId⟩⟩

def claimCleanup (now : Time) (worker : String) : Call :=
  ⟨env now 0, .claimCleanupJob ⟨worker, 60, none⟩⟩

def completeCleanup (now : Time) (c : Id) (worker : String) (fence : ℕ) : Call :=
  ⟨env now 0, .completeCleanupJob c ⟨worker, fence⟩⟩

def uploaded : List Call := [createBase, upload 1 1 'a']

/-- A version is published at time 3, and another one is ready to replace it. -/
def uploadedAgain : List Call :=
  [createBase, upload 1 1 'a', stage 2 1 1, publish 3 1 1 none, upload 4 2 'b', stage 5 2 2]

def replaced : List Call := uploadedAgain ++ [publish 6 2 2 (some 1)]

end Sample

end SuperMew.Documents
