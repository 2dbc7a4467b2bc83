import SuperMew.Runs.Repository

/-! The end of a run: `finalize`, the promotion of the next queued run, and the recovery
of runs whose worker is gone. -/

namespace SuperMew.Runs

open Relational

/-- The runs with an expired lease, and the fence under which each was found. -/
def Store.orphans (s : Store) (now : Time) : List (RunId × ℕ) :=
  (s.runs.select fun _ run => [RunStatus.running, .cancelling].contains run.status &&
    run.leaseExpiresAt.any (· < now)).map fun e => (e.1, e.2.fencingToken)

variable [ErrorCodec]

structure FinalizeRequest where
  runId : RunId
  targetStatus : RunStatus
  content : String
  fencingToken : Option ℕ := none
  errorCode : Option String := none
  errorDetailRedacted : Option String := none
  inputTokens : ℤ := 0
  outputTokens : ℤ := 0
  cost : Decimal := .zero
  ragTrace : Option Json := none
  isPartial : Bool := false
  leaseExpiredBefore : Option Time := none

def Store.nextQueued (s : Store) (t : Id) : Option (RunId × Run) :=
  firstBy (fun e => e.2.createdAt) (s.runs.select fun _ r => r.threadRefId == t && r.status == .queued)

/-- `_promote_next_queued`. It does not look at the other runs of the thread. -/
def promoteNextQueued (now : Time) (t : Id) (s : Store) : Except Fault Store :=
  match s.nextQueued t with
  | none => .ok s
  | some (r, queued) => do
      let s ← s.writeRun r { queued with status := .pending, updatedAt := now }
      pure (s.setMessageStatus queued.assistantMessageId .streaming now)

/-- What a run ends with. A run that is being cancelled ends as cancelled. -/
structure Ending where
  target : RunStatus
  content : String
  errorCode : Option String
  errorDetailRedacted : Option String
  isPartial : Bool

def FinalizeRequest.ending (r : FinalizeRequest) (status : RunStatus) : Ending :=
  if status = .cancelling ∧ r.targetStatus ≠ .cancelled then
    ⟨.cancelled, if r.isPartial then r.content else cancelledPublicError.message,
      some cancelledPublicError.code, some (ErrorCodec.serialize cancelledPublicError), true⟩
  else ⟨r.targetStatus, r.content, r.errorCode, r.errorDetailRedacted, r.isPartial⟩

def Ending.messageStatus (e : Ending) : MessageStatus :=
  if e.isPartial then .incomplete
  else match e.target with
    | .succeeded => .completed
    | .cancelled => .cancelled
    | _ => .failed

def terminalType : RunStatus → RunEventType
  | .succeeded => .runCompleted
  | .failed => .runFailed
  | _ => .runCancelled

def Run.finished (run : Run) (r : FinalizeRequest) (e : Ending) (now : Time) : Run :=
  { run with
    finishedAt := some now
    leaseExpiresAt := none
    errorCode := e.errorCode
    errorDetailRedacted := e.errorDetailRedacted
    inputTokens := r.inputTokens.toNat
    outputTokens := r.outputTokens.toNat
    cost := r.cost }

/-- The reply of the run; its text is cleaned on the way to the database (`Message.stored`),
the one in the journal is not. -/
def Store.completeMessage (s : Store) (run : Run) (r : FinalizeRequest) (e : Ending) (now : Time) :
    Store :=
  match run.assistantMessageId.bind fun m => (s.messages.get m).map fun row => (m, row) with
  | some (m, row) => s.putMessage m { row with
      content := e.content
      status := e.messageStatus
      ragTrace := r.ragTrace
      updatedAt := now }
  | none => s

/-- The events of a finished run: its usage if there is any, its message and its end. -/
def Store.appendEnd (s : Store) (run : Run) (r : FinalizeRequest) (e : Ending) (clock : Time) :
    Store :=
  let messageId : Json := (run.assistantMessageId.map fun m => Json.int m).getD .null
  let errorCode : Json := (run.errorCode.map Json.str).getD .null
  let used := r.inputTokens ≠ 0 ∨ r.outputTokens ≠ 0 ∨ r.cost.isZero = false
  let s := if used then s.appendEvent r.runId .usageUpdated
      [("input_tokens", .int run.inputTokens), ("output_tokens", .int run.outputTokens),
        ("cost", .str run.cost.text)] clock
    else s
  let s := s.appendEvent r.runId .messageCompleted [("message_id", messageId),
    ("content", .str e.content), ("status", .str e.messageStatus.value),
    ("rag_trace", r.ragTrace.getD .null)] clock
  s.appendEvent r.runId (terminalType e.target) [("status", .str run.status.value),
    ("error_code", errorCode),
    ("error", (e.errorDetailRedacted.bind ErrorCodec.contract).getD .null),
    ("assistant_message_id", messageId)] clock

def finalize (env : Env) (r : FinalizeRequest) (s : Store) : Except Fault (RunRecord × Store) := do
  if r.targetStatus.terminal = false then throw (.runtime "ValueError")
  let run ← orRaise (s.runs.get r.runId) runNotFound
  let thread ← orAttributeError (s.threads.get run.threadRefId)
  assertFencing run r.fencingToken
  raiseIf (∃ before ∈ r.leaseExpiredBefore, run.status ∉ [.running, .cancelling] ∨
      run.leaseExpiresAt = none ∨ run.leased before = true)
    (stateConflict "Run lease 已续期或已被其他 worker 接管")
  let status := run.status.value
  if run.status.terminal = true then do
    raiseIf (run.status ≠ r.targetStatus) (stateConflict s!"Run 已终结为 {status}")
    pure (run.record r.runId thread.threadId, s)
  else do
    let e := r.ending run.status
    let run ← transition env run e.target
    let run := run.finished r e env.now
    let s ← s.writeRun r.runId run
    let s := s.completeMessage run r e env.now
    let s := s.putThread run.threadRefId { thread with updatedAt := env.now }
    let s := s.appendEnd run r e env.utcnow
    let s ← promoteNextQueued env.now run.threadRefId s
    pure (run.record r.runId thread.threadId, s)

/-! ## Orphans -/

def orphanMessage : String := "运行所属 worker 已失联，任务未完成。"

def orphanError : PublicError where
  code := "ORPHAN_RUN"
  message := orphanMessage
  statusCode := 503
  retryable := true
  category := "run"
  stage := "ownership"

/-- The request by which `reconcile_orphans` ends one candidate. -/
def orphanRequest (now : Time) (runId : RunId) (fencingToken : ℕ) : FinalizeRequest where
  runId := runId
  targetStatus := .failed
  content := orphanMessage
  fencingToken := some fencingToken
  errorCode := some "ORPHAN_RUN"
  errorDetailRedacted := some (ErrorCodec.serialize orphanError)
  isPartial := true
  leaseExpiredBefore := some now

/-- The loop of `reconcile_orphans`: each candidate is a transaction of its own, an
application error passes to the next one, and any other error ends the loop. -/
def reconcileLoop (env : Env) (now : Time) : List (RunId × ℕ) → Store →
    Except Fault (List RunId) × Store
  | [], s => (.ok [], s)
  | (runId, token) :: candidates, s =>
    match finalize env (orphanRequest now runId token) s with
    | .ok (_, s') =>
      let (recovered, s'') := reconcileLoop env now candidates s'
      (recovered.map (runId :: ·), s'')
    | .error (.app _) => reconcileLoop env now candidates s
    | .error fault => (.error fault, s)

def reconcileOrphans (env : Env) (now : Time) (s : Store) : Except Fault (List RunId) × Store :=
  reconcileLoop env now (s.orphans now) s

end SuperMew.Runs
