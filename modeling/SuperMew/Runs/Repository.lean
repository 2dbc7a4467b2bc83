import SuperMew.Runs.Records

/-! The transactions of the run repository. -/

namespace SuperMew.Runs

open Relational

variable [ErrorCodec]

/-! ## Reservation -/

structure ReserveRequest where
  username : String
  threadId : String
  message : String
  idempotencyKey : String
  requestHash : Option String := none
  expectedThreadVersion : Option ℕ := none
  modelName : String := ""
  modelSnapshot : Option ModelCatalogSnapshot := none
  onDisconnect : Option String := none
  multitaskStrategy : Option MultitaskStrategy := none
  title : Option String := none
  tenantId : String := "default"
  channel : String := "run"
  approvedTools : List String := []
  allowImplicitThread : Bool := false

namespace Store

variable (s : Store)

def userNamed (username : String) : Option (Id × User) := s.users.find fun _ u => u.username == username

def threadOf (user : Id) (threadId : String) : Option (Id × Thread) :=
  s.threads.find fun _ t => t.userId == user && t.threadId == threadId

def existingRun (user thread : Id) (key : String) : Option (RunId × Run) :=
  s.runs.find fun _ r => r.userId == user && r.threadRefId == thread && r.idempotencyKey == key

def activeRun (thread : Id) : Option (RunId × Run) :=
  firstBy (fun e => e.2.createdAt) (s.runs.select fun _ r => r.threadRefId == thread && r.status.active)

/-- The join of a run with its thread and its user, for a user of the given name. -/
def ownedRun (username : String) (r : RunId) : Option (Run × Thread) := do
  let run ← s.runs.get r
  let thread ← s.threads.get run.threadRefId
  let user ← s.users.get run.userId
  if user.username = username then some (run, thread) else none

def getOrCreateThread (now : Time) (user : Id) (threadId : String) (title : Option String)
    (allowCreate : Bool) : Except Fault (Id × Thread × Store) :=
  let title := title.filter (· ≠ "")
  match s.threadOf user threadId with
  | some (t, thread) =>
    let thread := match thread.title.filter (· ≠ "") with
      | some _ => thread
      | none => { thread with title := title <|> thread.title }
    .ok (t, thread, s.putThread t thread)
  | none => do
      raiseIf (allowCreate = false) ⟨.notFound, "Thread 不存在", 404, false, []⟩
      let thread : Thread := ⟨user, threadId, 0, 0, 0, title, now, now⟩
      pure (s.nextThread, thread,
        { s.putThread s.nextThread thread with nextThread := s.nextThread + 1 })

/-- Add the two messages of a new run and point the run at them. -/
def addMessages (now : Time) (t : Id) (thread : Thread) (r : RunId) (run : Run) (text : String) :
    Run × Store :=
  let reply : MessageStatus := if run.status = .pending then .streaming else .queued
  let user : Message := ⟨t, some r, some s!"{r}:user", thread.lastSequence + 1, .human, text,
    .completed, now, now, none⟩
  let assistant : Message := ⟨t, some r, some s!"{r}:assistant", thread.lastSequence + 2, .ai, "",
    reply, now, now, none⟩
  let thread := { thread with
    lastSequence := thread.lastSequence + 2
    messageCount := thread.messageCount + 2
    version := thread.version + 2
    updatedAt := now }
  let run := { run with
    userMessageId := some s.nextMessage
    assistantMessageId := some (s.nextMessage + 1)
    fencingToken := thread.version }
  (run, { ((s.putMessage s.nextMessage user).putMessage (s.nextMessage + 1) assistant).putThread t
    thread with nextMessage := s.nextMessage + 2 })

end Store

/-- The parts of a request after their checks. -/
structure ReserveInput where
  threadId : String
  key : String
  tenantId : String
  channel : String
  approvedTools : List String
  snapshot : ModelCatalogSnapshot
  requestHash : String
  strategy : MultitaskStrategy

variable (env : Env) (r : ReserveRequest)

def ReserveRequest.normalize [Platform] (env : Env) :
    Except Fault ReserveInput := do
  let threadId ← validateThreadId r.threadId
  let key ← validateIdempotencyKey r.idempotencyKey
  let tenantId ← securityIdentifier r.tenantId "tenant_id" 64
  let channel ← securityIdentifier r.channel "channel" 32
  let approvedTools ← checkApprovedTools r.approvedTools
  let snapshot := r.modelSnapshot.getD emptyModelCatalogSnapshot
  let requestHash := orDefault r.requestHash
    (hashRunRequest r.message r.modelName snapshot.catalogHash tenantId channel approvedTools)
  pure ⟨threadId, key, tenantId, channel, approvedTools, snapshot, requestHash,
    r.multitaskStrategy.getD env.settings.multitaskStrategy⟩

def newRun (input : ReserveInput) (user thread : Id)
    (status : RunStatus) (supersedes : Option RunId) : Run where
  threadRefId := thread
  userId := user
  tenantId := input.tenantId
  channel := input.channel
  approvedTools := sortedTools input.approvedTools
  status := status
  idempotencyKey := input.key
  requestHash := input.requestHash
  modelName := r.modelName
  modelCatalogHash := input.snapshot.catalogHash
  modelSnapshot := input.snapshot.body
  onDisconnect := orDefault r.onDisconnect env.settings.disconnectPolicy
  multitaskStrategy := input.strategy
  fencingToken := 1
  userMessageId := none
  assistantMessageId := none
  supersedesRunId := supersedes
  lastEventSequence := 0
  ownerWorkerId := none
  leaseExpiresAt := none
  deadlineAt := some (env.now + secondsSpan env.settings.defaultDeadlineSeconds)
  startedAt := none
  finishedAt := none
  errorCode := none
  errorDetailRedacted := none
  skill := none
  inputTokens := 0
  outputTokens := 0
  cost := .zero
  createdAt := env.now
  updatedAt := env.now

/-- Insert a run that no row uses the key of, with its messages and first event. -/
def insertRun (input : ReserveInput) (user t : Id)
    (thread : Thread) (active : Option RunId) (s : Store) : Except Fault (RunReservation × Store) := do
  let status := if active.isSome then .queued else .pending
  let supersedes := if input.strategy = .cancelPrevious then active else none
  let run := newRun env r input user t status supersedes
  violatedIf ((s.runs.get env.runId).isSome = true) "runs_pkey"
  let (run, s) := s.addMessages env.now t thread env.runId run r.message
  let s ← s.writeRun env.runId run
  let data : Dict := [("status", .str run.status.value),
    ("user_message_id", .int (run.userMessageId.getD 0)),
    ("assistant_message_id", .int (run.assistantMessageId.getD 0)),
    ("multitask_strategy", .str run.multitaskStrategy.value)]
  pure (⟨run.record env.runId input.threadId, true, thread.version + 2,
      run.nextEvent env.runId .runCreated data env.utcnow⟩,
    s.appendEvent env.runId .runCreated data env.utcnow)

def reserveTransaction (input : ReserveInput) (s : Store) :
    Except Fault (RunReservation × Store) := do
  let (user, _) ← orRaise (s.userNamed r.username)
    ⟨.authenticationRequired, "用户不存在或已失效", 401, false, []⟩
  let (t, thread, s) ← s.getOrCreateThread env.now user input.threadId r.title r.allowImplicitThread
  match s.existingRun user t input.key with
  | some (runId, existing) =>
    raiseIf (existing.requestHash ≠ input.requestHash)
      ⟨.idempotencyConflict, "相同 idempotency_key 对应了不同请求", 409, false, []⟩
    pure (⟨existing.record runId input.threadId, false, thread.version, none⟩, s)
  | none =>
    raiseIf (∃ version ∈ r.expectedThreadVersion, thread.version ≠ version) {
      code := .threadVersionConflict
      message := "Thread 版本已变化，请刷新后重试"
      statusCode := 409
      safeDetails := [("current_version", .int thread.version)] }
    let active := (s.activeRun t).map (·.1)
    raiseIf (active.isSome = true ∧ input.strategy = .reject) {
      code := .runActive
      message := "该 Thread 已有正在执行的 Run"
      statusCode := 409
      safeDetails := [("active_run_id", .str (active.getD ""))] }
    insertRun env r input user t thread active s

def Store.loadReservation (s : Store) (username threadId key : String) : Option RunReservation := do
  let (user, _) ← s.userNamed username
  let (t, thread) ← s.threadOf user threadId
  let (runId, run) ← s.existingRun user t key
  pure ⟨run.record runId threadId, false, thread.version, none⟩

def getRun (username : String) (r : RunId) (s : Store) : Except Fault RunRecord := do
  let (run, thread) ← orRaise (s.ownedRun username r) runNotFound
  pure (run.record r thread.threadId)

def listPending (limit : ℤ) (s : Store) : List (String × RunRecord) :=
  let pending := s.runs.select fun _ run => run.status == .pending
  let rows := pending.filterMap fun e => do
    let thread ← s.threads.get e.2.threadRefId
    let user ← s.users.get e.2.userId
    pure (user.username, e.2.record e.1 thread.threadId)
  (rows.insertionSort fun a b => a.2.createdAt ≤ b.2.createdAt).take (max 1 (min limit 5000)).toNat

/-! ## Ownership -/

def assertFencing (run : Run) (fencingToken : Option ℕ) : Except Fault Unit :=
  raiseIf (∃ token ∈ fencingToken, run.fencingToken ≠ token) {
    code := .runStateConflict
    message := "Run fencing token 已失效"
    statusCode := 409
    safeDetails := [("current_fencing_token", .int run.fencingToken)] }

def transition (run : Run) (target : RunStatus) : Except Fault Run := do
  let source := run.status.value
  let goal := target.value
  raiseIf (run.status.canTransition target = false) (stateConflict s!"Run 不能从 {source} 转换到 {goal}")
  pure { run with status := target, updatedAt := env.utcnow }

def ownershipLost : AppError := stateConflict "当前 worker 不再拥有该 Run"

/-- The lease of a run has not run out at the time `now`. -/
def Run.leased (run : Run) (now : Time) : Bool := run.leaseExpiresAt.any (now ≤ ·)

/-- The checks of `claim`; `true` when the worker holds the run already. -/
def claimable (run : Run) (workerId : String) : Except Fault Bool :=
  let held := run.ownerWorkerId = some workerId ∧
    (run.leaseExpiresAt = none ∨ run.leased env.now = true)
  let status := run.status.value
  match run.status with
  | .running => do
      if held then pure true
      else do
        raiseIf (run.leased env.now = true) ⟨.runActive, "Run 已被其他 worker 持有", 409, false, []⟩
        pure false
  | .pending => pure false
  | _ => throw (.app (stateConflict s!"状态为 {status} 的 Run 不能领取"))

def claim (runId : RunId) (workerId : String) (leaseSeconds : Option ℕ) (s : Store) :
    Except Fault (RunRecord × Store) := do
  let run ← orRaise (s.runs.get runId) runNotFound
  let thread ← orAttributeError (s.threads.get run.threadRefId)
  if ← claimable env run workerId then
    pure (run.record runId thread.threadId, s)
  else do
    let run ← transition env run .running
    let run := { run with
      ownerWorkerId := some workerId
      fencingToken := run.fencingToken + 1
      leaseExpiresAt := some (env.lease env.now leaseSeconds)
      startedAt := run.startedAt <|> some env.now }
    let s ← s.writeRun runId run
    pure (run.record runId thread.threadId, s.appendEvent runId .runStarted
      [("status", .str run.status.value), ("worker_id", .str workerId),
        ("fencing_token", .int run.fencingToken)] env.utcnow)

def heartbeat (runId : RunId) (workerId : String) (fencingToken : ℕ)
    (leaseSeconds : Option ℕ) (s : Store) : Except Fault (RunRecord × Store) := do
  let run ← orRaise (s.runs.get runId) runNotFound
  assertFencing run fencingToken
  raiseIf (run.ownerWorkerId ≠ some workerId ∨ run.status ∉ [.running, .cancelling]) ownershipLost
  let run := { run with
    leaseExpiresAt := some (env.lease env.utcnow leaseSeconds)
    updatedAt := env.utcnow }
  let thread ← orAttributeError (s.threads.get run.threadRefId)
  pure (run.record runId thread.threadId, s.putRun runId run)

/-- The run of an owner call, which its worker still holds under its token. -/
def ownedBy (s : Store) (runId : RunId) (workerId : String) (fencingToken : ℕ) :
    Except Fault (Run × Thread) := do
  let run ← orRaise (s.runs.get runId) runNotFound
  let thread ← orRaise (s.threads.get run.threadRefId) runNotFound
  assertFencing run fencingToken
  raiseIf (run.status ≠ .running ∨ run.ownerWorkerId ≠ some workerId) ownershipLost
  pure (run, thread)

def pinSkillActivation (runId : RunId) (workerId : String) (fencingToken : ℕ)
    (requested : SkillActivation) (s : Store) : Except Fault (RunRecord × Store) := do
  let (run, thread) ← ownedBy s runId workerId fencingToken
  -- `any(existing)`: four empty texts count as no activation
  match run.skill.filter (· ≠ ⟨"", "", "", ""⟩) with
  | some existing =>
    raiseIf (existing ≠ requested) (stateConflict "Run 已固定为另一 Skill 快照")
    pure (run.record runId thread.threadId, s)
  | none =>
    let run := { run with skill := some requested }
    pure (run.record runId thread.threadId, s.putRun runId run)

structure AuditRequest where
  runId : RunId
  workerId : String
  fencingToken : ℕ
  auditKey : String
  toolCallId : Option String
  toolName : String
  toolVersion : String
  decision : String
  reasonCode : Option String
  policyVersion : Option String
  policyHash : Option String
  success : Bool
  errorCode : Option String
  durationMs : ℤ
  resultSize : ℤ
  metadata : Dict

omit [ErrorCodec] in
/-- `text[:maximum] if text else None`. -/
def truncated (maximum : ℕ) (text : Option String) : Option String :=
  (text.filter (· ≠ "")).map fun t => String.ofList (t.toList.take maximum)

omit [ErrorCodec] in
/-- A digest of 64 lowercase hexadecimal digits, or `ValueError`. -/
def checkDigest (digest : String) : Except Fault Unit :=
  if digest.length = 64 && digest.toList.all isHexDigit then .ok ()
  else .error (.runtime "ValueError")

omit [ErrorCodec] in
def AuditRequest.row (r : AuditRequest) (run : Run) (thread : Thread) : ToolAudit :=
  let cut := fun (maximum : ℕ) (text : String) => String.ofList (text.toList.take maximum)
  let skillName := (run.skill.map SkillActivation.name).getD ""
  let skillVersion := (run.skill.map SkillActivation.version).getD ""
  { userId := run.userId
    threadId := thread.threadId
    runId := r.runId
    auditKey := r.auditKey
    toolCallId := truncated 128 r.toolCallId
    toolName := cut 128 r.toolName
    toolVersion := cut 64 r.toolVersion
    skillName := skillName
    decision := cut 32 r.decision
    reasonCode := truncated 64 r.reasonCode
    policyVersion := truncated 64 r.policyVersion
    policyHash := r.policyHash.filter (· ≠ "")
    success := r.success
    errorCode := truncated 64 r.errorCode
    durationMs := r.durationMs.toNat
    resultSize := r.resultSize.toNat
    metadata := r.metadata.merge [("skill_name", .str skillName), ("skill_version", .str skillVersion)] }

omit [ErrorCodec] in
def recordToolAudit (r : AuditRequest) (s : Store) : Except Fault Store := do
  checkDigest r.auditKey
  let (run, thread) ← ownedBy s r.runId r.workerId r.fencingToken
  let row := r.row run thread
  (match row.policyHash with
    | some digest => checkDigest digest
    | none => .ok ())
  match s.audits.find? fun a => a.runId == r.runId && a.auditKey == r.auditKey with
  | some existing =>
    raiseIf (existing ≠ { row with userId := existing.userId, threadId := existing.threadId })
      (stateConflict "重复工具审计键与既有结果不一致")
    pure s
  | none => pure { s with audits := s.audits ++ [row] }

def setWaitingInput (runId : RunId) (workerId : String) (fencingToken : ℕ) (s : Store) :
    Except Fault (RunRecord × Store) := do
  let run ← orRaise (s.runs.get runId) runNotFound
  assertFencing run fencingToken
  raiseIf (run.ownerWorkerId ≠ some workerId) ownershipLost
  let run ← transition env run .waitingInput
  let run := { run with ownerWorkerId := none, leaseExpiresAt := none }
  let thread ← orAttributeError (s.threads.get run.threadRefId)
  let s ← s.writeRun runId run
  let s := s.setMessageStatus run.assistantMessageId .waitingInput env.utcnow
  pure (run.record runId thread.threadId,
    s.appendEvent runId .runWaitingInput [("status", .str run.status.value)] env.utcnow)

def markCancelling (username : String) (runId : RunId) (s : Store) :
    Except Fault (RunRecord × Store) := do
  let (run, thread) ← orRaise (s.ownedRun username runId) runNotFound
  if run.status.terminal = true ∨ run.status = .cancelling then
    pure (run.record runId thread.threadId, s)
  else do
    let run ← transition env run .cancelling
    let s ← s.writeRun runId run
    pure (run.record runId thread.threadId, s.appendEvent runId .warningCreated
      [("code", .str "CANCEL_REQUESTED"), ("message", .str "用户已请求停止运行")] env.utcnow)

end SuperMew.Runs
