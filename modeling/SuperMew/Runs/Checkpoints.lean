import SuperMew.Runs.Repository

/-! The transactions of the checkpoint repository: a run pauses for an answer of its
user, and an accepted answer resumes it. -/

namespace SuperMew.Runs

open Relational

/-- The value of an interrupt: what the user is asked. -/
structure Interrupt where
  prompt : String
  options : List String
  route : Option String
  retrievalStatus : Option String
  originalQuestion : Option String

def Interrupt.data (i : Interrupt) : Dict :=
  let options := i.options
  let optional := fun value : Option String => (value.map Json.str).getD .null
  [("prompt", .str i.prompt), ("options", .other s!"{options}"), ("route", optional i.route),
    ("retrieval_status", optional i.retrievalStatus),
    ("original_question", optional i.originalQuestion)]

structure PauseRequest where
  runId : RunId
  workerId : String
  fencingToken : ℕ
  checkpointId : String
  interruptId : String
  interruptValue : Interrupt
  state : Json
  nextNodes : List String

structure CheckpointPause where
  runId : RunId
  checkpointId : String
  interruptId : String
  hitlToken : String
  prompt : String
  options : List String
  route : Option String
  retrievalStatus : Option String

def PauseRequest.answer (r : PauseRequest) (interruptId hitlToken : String) : CheckpointPause :=
  ⟨r.runId, r.checkpointId, interruptId, hitlToken, r.interruptValue.prompt,
    r.interruptValue.options, r.interruptValue.route, r.interruptValue.retrievalStatus⟩

variable (run : Run) (env : Env) (s : Store) (r : ResumeRequest) (answer : String)

def Store.checkpointOf (r : RunId) (checkpointId : String) : Option (Id × RunCheckpoint) :=
  s.checkpoints.find fun _ c => c.runId == r && c.checkpointId == checkpointId

/-- Add the checkpoint of a pause under the next key. -/
def Store.addCheckpoint (row : RunCheckpoint) : Except Fault Store := do
  violatedIf ((s.checkpoints.find fun _ c => c.hitlToken == row.hitlToken).isSome = true)
    "run_checkpoints_hitl_token_key"
  pure { s.putCheckpoint s.nextCheckpoint row with nextCheckpoint := s.nextCheckpoint + 1 }

def pausable (r : PauseRequest) : Except Fault Unit := do
  let status := run.status.value
  raiseIf (run.ownerWorkerId ≠ some r.workerId ∨ run.fencingToken ≠ r.fencingToken) ownershipLost
  raiseIf (run.status ≠ .running) (stateConflict s!"状态为 {status} 的 Run 不能进入 HITL")

def recordPause (r : PauseRequest) (s : Store) :
    Except Fault (CheckpointPause × Store) := do
  let run ← orRaise (s.runs.get r.runId) runNotFound
  match s.checkpointOf r.runId r.checkpointId with
  | some (_, existing) =>
    raiseIf (existing.consumedAt ≠ none) (stateConflict "该 checkpoint 已完成恢复，不能再次暂停")
    raiseIf (run.fencingToken ≠ r.fencingToken) (stateConflict "Run fencing token 已失效")
    raiseIf (existing.interruptId ≠ r.interruptId)
      (stateConflict "checkpoint interrupt 标识不匹配")
    pure (r.answer existing.interruptId existing.hitlToken, s)
  | none =>
    pausable run r
    let _ ← orAttributeError (s.threads.get run.threadRefId)
    let s ← s.addCheckpoint ⟨r.runId, run.threadRefId, run.userId, r.checkpointId, env.hitlToken,
      r.interruptId, none, none, r.state, r.nextNodes, none, env.utcnow, env.utcnow⟩
    let run := { run with
      status := .waitingInput
      ownerWorkerId := none
      leaseExpiresAt := none
      updatedAt := env.utcnow }
    let s ← s.writeRun r.runId run
    let s := s.setMessageStatus run.assistantMessageId .waitingInput env.utcnow
    let s := s.appendEvent r.runId .runWaitingInput [("status", .str run.status.value)] env.utcnow
    let s := s.appendEvent r.runId .hitlRequired ([("hitl_token", .str env.hitlToken),
      ("checkpoint_id", .str r.checkpointId)] ++ r.interruptValue.data) env.utcnow
    pure (r.answer r.interruptId env.hitlToken, s)

/-! ## Resumption -/

/-- `ResumeAccessState`, what the access check of a resumption sees. -/
structure ResumeAccessState where
  userDbId : Id
  username : String
  role : String
  skill : Option SkillActivation

structure ResumeRequest where
  username : String
  runId : RunId
  hitlToken : String
  answer : String
  idempotencyKey : String
  workerId : Option String
  preflight : ResumeAccessState → Except AppError Unit

structure ConsumedResume where
  checkpointId : String
  threadId : String
  answer : String
  state : Json
  nextNodes : List String
  fencingToken : ℕ
  alreadyConsumed : Bool
  shouldResume : Bool

/-- `if worker_id`: an empty name counts as absent. -/
def ResumeRequest.worker : Option String := r.workerId.filter (· ≠ "")

/-- The row of a checkpoint, its run, its thread and its user. -/
def Store.resumeRow :
    Option (Id × RunCheckpoint × Run × Thread × User) := do
  let (c, checkpoint) ← s.checkpoints.find fun _ c => c.runId == r.runId && c.hitlToken == r.hitlToken
  let run ← s.runs.get r.runId
  let thread ← s.threads.get run.threadRefId
  let user ← s.users.get run.userId
  if user.username = r.username then some (c, checkpoint, run, thread, user) else none

def Store.latestCheckpoint (r : RunId) : Option Id :=
  ((s.checkpoints.select fun _ c => c.runId == r).map Prod.fst).max?

/-- Hand a run to the worker that resumes it. -/
def Run.resumedBy (worker : String) : Run :=
  { run with
    status := .running
    ownerWorkerId := some worker
    fencingToken := run.fencingToken + 1
    leaseExpiresAt := some (env.utcnow + secondsSpan env.settings.leaseSeconds)
    updatedAt := env.utcnow }

/-- Put an answered run back among the pending ones. -/
def Run.released : Run :=
  { run with
    status := .pending
    ownerWorkerId := none
    leaseExpiresAt := none
    updatedAt := env.utcnow }

/-- `run.started` of a resumption. -/
def Store.appendResumed (r : RunId) (run : Run) (worker checkpointId : String)
    (clock : Time) : Store :=
  s.appendEvent r .runStarted [("status", .str run.status.value), ("worker_id", .str worker),
    ("fencing_token", .int run.fencingToken), ("resume_checkpoint_id", .str checkpointId)] clock

def consumedResume (checkpoint : RunCheckpoint) (thread : Thread) (answer : String) (run : Run)
    (alreadyConsumed shouldResume : Bool) : ConsumedResume :=
  ⟨checkpoint.checkpointId, thread.threadId, answer, checkpoint.state, checkpoint.nextNodes,
    run.fencingToken, alreadyConsumed, shouldResume⟩

/-- An answer that was accepted before: its repetition by a worker takes up the run if the
checkpoint is still the last one. -/
def resumeAgain (c : Id) (checkpoint : RunCheckpoint) (run : Run) (thread : Thread) (s : Store) :
    Except Fault (ConsumedResume × Store) := do
  raiseIf (checkpoint.resumeIdempotencyKey ≠ some r.idempotencyKey ∨
      checkpoint.resumeAnswer ≠ some answer)
    ⟨.idempotencyConflict, "该 HITL token 已被消费", 409, false, []⟩
  match r.worker, s.latestCheckpoint r.runId == some c, run.status with
  | some worker, true, .pending =>
    let run := run.resumedBy env worker
    let s ← s.writeRun r.runId run
    pure (consumedResume checkpoint thread answer run true true,
      s.appendResumed r.runId run worker checkpoint.checkpointId env.utcnow)
  | some worker, true, .running =>
    raiseIf (run.ownerWorkerId ≠ some worker)
      ⟨.runActive, "HITL 恢复已被其他 worker 领取", 409, false, []⟩
    pure (consumedResume checkpoint thread answer run true true, s)
  | _, _, _ => pure (consumedResume checkpoint thread answer run true false, s)

/-- An answer to a checkpoint that has none yet. -/
def acceptAnswer (c : Id) (checkpoint : RunCheckpoint) (run : Run) (thread : Thread) (s : Store) :
    Except Fault (ConsumedResume × Store) := do
  let status := run.status.value
  raiseIf (run.status ≠ .waitingInput) (stateConflict s!"状态为 {status} 的 Run 不能恢复")
  let s := s.putCheckpoint c { checkpoint with
    consumedAt := some env.utcnow
    resumeIdempotencyKey := some r.idempotencyKey
    resumeAnswer := some answer
    updatedAt := env.utcnow }
  let run := match r.worker with
    | some worker => run.resumedBy env worker
    | none => run.released env
  let s ← s.writeRun r.runId run
  let s := s.setMessageStatus run.assistantMessageId .streaming env.utcnow
  let s := s.appendEvent r.runId .hitlResumed [("checkpoint_id", .str checkpoint.checkpointId),
    ("answer", .str answer), ("status", .str run.status.value)] env.utcnow
  let s := match r.worker with
    | some worker => s.appendResumed r.runId run worker checkpoint.checkpointId env.utcnow
    | none => s
  pure (consumedResume checkpoint thread answer run false r.worker.isSome, s)

def consumeTransaction (s : Store) :
    Except Fault (ConsumedResume × Store) := do
  let (c, checkpoint, run, thread, user) ← orRaise (s.resumeRow r)
    ⟨.runNotFound, "HITL checkpoint 不存在", 404, false, []⟩
  (r.preflight ⟨run.userId, user.username, user.role, run.skill⟩).mapError .app
  let conflicting := s.checkpoints.find fun c' row => row.runId == r.runId &&
    row.resumeIdempotencyKey == some r.idempotencyKey && c' != c
  raiseIf (conflicting.isSome = true)
    ⟨.idempotencyConflict, "该恢复幂等键已用于当前 Run 的其他 HITL 请求", 409, false, []⟩
  if checkpoint.consumedAt ≠ none then resumeAgain env r answer c checkpoint run thread s
  else acceptAnswer env r answer c checkpoint run thread s

/-- `consume_resume`: a violated constraint is answered as a conflict. -/
def consumeResume (s : Store) :
    Except Fault (ConsumedResume × Store) := do
  let answer := strip r.answer
  raiseIf (answer = "") ⟨.invalidRequest, "HITL answer 不能为空", 400, false, []⟩
  match consumeTransaction env r answer s with
  | .error (.integrity _) =>
    throw (.app ⟨.idempotencyConflict, "HITL 恢复请求发生幂等冲突", 409, false, []⟩)
  | result => result

end SuperMew.Runs
