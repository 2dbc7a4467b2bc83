import SuperMew.Publication.Script

/-! The executions of one index job by any number of workers, interleaved statement by
statement over the catalog and the two chunk stores. -/

namespace SuperMew.Publication

open Documents

variable [Platform]

/-! ## Stores -/

/-- The catalog, and the chunk ids of the rows that Milvus and the parent store hold for the
version of the job. -/
structure Stores where
  catalog : Catalog
  vectors : List String
  parents : List String

/-- `upsert_documents`: a chunk without an id is passed over. -/
def upsertIds (rows : List String) (documents : List Chunk) : List String :=
  documents.foldl (fun rows c =>
    if strip c.chunkId = "" ∨ strip c.chunkId ∈ rows then rows else rows ++ [strip c.chunkId]) rows

/-- The answer of `verify_version` in both stores, which raises on expected ids that are
blank or repeated. -/
def exactIds (expected actual : List String) : Bool :=
  let missing := expected.filter fun id => decide (id ∉ actual)
  let unexpected := actual.filter fun id => decide (id ∉ expected)
  expected.all (fun id => strip id != "") && decide expected.Nodup && missing.isEmpty &&
    unexpected.isEmpty && decide actual.Nodup && expected.length == actual.length

/-! ## Executions -/

structure Program where
  context : Context
  script : List Statement

/-- The head of `_run_once`: load the build under the lease and choose the script. -/
def startRun (env : Env) (j : Id) (k : IndexJobExecution) (configured : BuildProfile)
    (s : Stores) : Except Fault Program := do
  let build ← assertIndexLease env j k none s.catalog
  let job := build.job.row
  let version := build.version.2
  let ctx : Context := {
    jobId := j
    execution := k
    publicationFence := job.publicationFence
    expectedCurrentVersionId := job.expectedCurrentVersionId
    versionNumber := version.versionNumber
    progressFloor := max job.progress 0 }
  if job.status = .completed then pure ⟨ctx, []⟩
  else
    raiseIf (job.status ∈ [.failed, .cancelled, .deadLetter]) {
      code := .conflict
      message := "索引任务已失效，不能继续构建"
      statusCode := 409 }
    raiseIf (version.profile.fingerprint ≠ version.buildFingerprint) {
      code := .conflict
      message := "候选版本 build profile 完整性校验失败"
      statusCode := 409
      safeDetails := [
        ("job_build_fingerprint", .str version.buildFingerprint),
        ("recorded_build_fingerprint", .str version.profile.fingerprint)] }
    if job.status = .staged then pure ⟨ctx, stagedScript ctx⟩
    else
      raiseIf (configured.fingerprint ≠ version.buildFingerprint) {
        code := .conflict
        message := "当前 worker 构建能力与候选版本 profile 不匹配"
        statusCode := 409
        retryable := true
        safeDetails := [
          ("job_build_fingerprint", .str version.buildFingerprint),
          ("worker_build_fingerprint", .str configured.fingerprint)] }
      pure ⟨ctx, buildScript ctx⟩

/-- One statement; the result holds the statements that are left. The answer of a
verification is judged at once, because the guard in between changes nothing. -/
def Statement.perform (env : Env) (ctx : Context) (loaded : List Chunk) (rest : List Statement)
    (s : Stores) : Statement → Except Fault (Stores × List Statement)
  | .call op => (Call.commit ⟨env, op⟩ s.catalog).map fun catalog => ({ s with catalog }, rest)
  | .load => .ok (s, indexScript ctx loaded)
  | .require ok => if ok then .ok (s, rest) else .error (.runtime "require")
  | .deleteParents => .ok ({ s with parents := [] }, rest)
  | .upsertParents documents => .ok ({ s with parents := upsertIds s.parents documents }, rest)
  | .verifyParents expected =>
    if exactIds expected s.parents then .ok (s, rest)
    else .error (.runtime "parent chunk exact verification failed")
  | .deleteVectors => .ok ({ s with vectors := [] }, rest)
  | .insertVectors batch =>
    .ok ({ s with vectors := s.vectors ++ batch.map fun c => strip c.chunkId }, rest)
  | .verifyVectors expected =>
    if exactIds expected s.vectors then .ok (s, rest)
    else .error (.runtime "Milvus exact verification failed")

/-! ## The system -/

structure System where
  stores : Stores
  programs : IndexJobExecution → Option Program

def System.initial : System := ⟨⟨Catalog.empty, [], []⟩, fun _ => none⟩

/-- The job whose version an operation stages or publishes. -/
def settles : Op → Option Id
  | .recordManifest r => some r.jobId
  | .publish r => some r.jobId
  | _ => none

/-- A call by anybody else: only the executions of job `j` record its manifest and publish it. -/
structure OtherCall (j : Id) where
  call : Call
  outside : settles call.op ≠ some j

/-- One execution takes a statement, starts or dies, or somebody else calls the catalog.
An external call that fails is a death, since an execution of a worker leaves the stores
as they are when it raises. -/
inductive Event (j : Id) where
  | other (c : OtherCall j)
  | start (k : IndexJobExecution) (configured : BuildProfile) (env : Env)
  | act (k : IndexJobExecution) (env : Env) (loaded : List Chunk)
  | crash (k : IndexJobExecution)

namespace System

variable {j : Id} (s : System)

def set (k : IndexJobExecution) (p : Option Program) : System :=
  { s with programs := Function.update s.programs k p }

/-- A program takes its next statement; it is gone when it has ended or raised. -/
def act (k : IndexJobExecution) (p : Program) (env : Env) (loaded : List Chunk) : System :=
  match p.script with
  | [] => s.set k none
  | st :: rest =>
    match st.perform env p.context loaded rest s.stores with
    | .ok (stores, script) => { s with stores }.set k (some { p with script })
    | .error _ => s.set k none

def step : Event j → System
  | .other c => { s with stores := { s.stores with catalog := exec s.stores.catalog c.call } }
  | .start k configured env =>
    match s.programs k with
    | some _ => s
    | none =>
      match startRun env j k configured s.stores with
      | .ok p => s.set k (some p)
      | .error _ => s
  | .act k env loaded =>
    match s.programs k with
    | some p => s.act k p env loaded
    | none => s
  | .crash k => s.set k none

end System

end SuperMew.Publication
