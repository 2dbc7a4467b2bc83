import SuperMew.Runs.Finalize
import SuperMew.Runs.Checkpoints
import SuperMew.Runs.Journal
import SuperMew.Library.Run

/-! The runs as a machine. A call is one transaction, and a run of the machine is a list of
calls in the order in which they commit. A request to cancel reads in one transaction and
writes in a later one, so what it has read is part of the state. -/

namespace SuperMew.Runs

open Runs

/-- What `request_cancel` goes on to do with the status it has read. -/
inductive CancelPlan where
  | leave
  | finalize
  | mark
  deriving DecidableEq, Repr

def cancelPlan (status : RunStatus) : CancelPlan :=
  match status with
  | .succeeded | .failed | .cancelled => .leave
  | .queued | .pending | .waitingInput => .finalize
  | .running | .cancelling => .mark

variable [ErrorCodec]

/-! ## Cancellation -/

variable (now : Time) (r : RunId)

/-- The request by which `request_cancel` ends a run that no worker holds. -/
def cancelRequest : FinalizeRequest where
  runId := r
  targetStatus := .cancelled
  content := cancelledPublicError.message
  errorCode := some cancelledPublicError.code
  errorDetailRedacted := some (ErrorCodec.serialize cancelledPublicError)
  isPartial := true

/-- A request to cancel between its read and its write. -/
structure PendingCancel where
  username : String
  runId : RunId
  current : RunRecord

/-- The first transaction of `request_cancel`. -/
def readCancel (username : String) (r : RunId) (s : Store) : Except Fault PendingCancel :=
  (getRun username r s).map fun current => ⟨username, r, current⟩

/-- The rest of `request_cancel`. -/
def writeCancel (env : Env) (p : PendingCancel) (s : Store) : Except Fault (RunRecord × Store) :=
  match cancelPlan p.current.status with
  | .leave => .ok (p.current, s)
  | .finalize => finalize env (cancelRequest p.runId) s
  | .mark => markCancelling env p.username p.runId s

/-- `request_cancel` when nothing happens in between. -/
def requestCancel (env : Env) (username : String) (r : RunId) (s : Store) :
    Except Fault (RunRecord × Store) := do
  let p ← readCancel username r s
  writeCancel env p s

/-! ## Calls -/

inductive Op where
  | reserve (request : ReserveRequest)
  | claim (runId : RunId) (workerId : String) (leaseSeconds : Option ℕ)
  | heartbeat (runId : RunId) (workerId : String) (fencingToken : ℕ) (leaseSeconds : Option ℕ)
  | setWaitingInput (runId : RunId) (workerId : String) (fencingToken : ℕ)
  | markCancelling (username : String) (runId : RunId)
  | finalize (request : FinalizeRequest)
  | recordPause (request : PauseRequest)
  | consumeResume (request : ResumeRequest)
  | pinSkillActivation (runId : RunId) (workerId : String) (fencingToken : ℕ)
      (requested : SkillActivation)
  | recordToolAudit (request : AuditRequest)
  /-- An append of the owner of the run. -/
  | append (runId : RunId) (eventType : RunEventType) (data : Dict) (workerId : String)
      (fencingToken : ℕ)
  | requestCancel (username : String) (runId : RunId)
  | readCancel (username : String) (runId : RunId)
  | writeCancel (position : ℕ)

structure Call where
  env : Env
  op : Op

/-- The stored rows, and the requests to cancel that have read and not yet written. -/
structure System where
  store : Store
  cancels : List PendingCancel

variable [Platform]

/-- The transaction of a call, before any handler of a violated constraint. -/
def Call.transaction (call : Call) (s : System) : Except Fault Store :=
  let env := call.env
  match call.op with
  | .reserve r => do
      let input ← r.normalize env
      (reserveTransaction env r input s.store).map (·.2)
  | .claim runId workerId leaseSeconds =>
    (claim env runId workerId leaseSeconds s.store).map (·.2)
  | .heartbeat runId workerId token leaseSeconds =>
    (heartbeat env runId workerId token leaseSeconds s.store).map (·.2)
  | .setWaitingInput runId workerId token =>
    (setWaitingInput env runId workerId token s.store).map (·.2)
  | .markCancelling username runId => (markCancelling env username runId s.store).map (·.2)
  | .finalize r => (finalize env r s.store).map (·.2)
  | .recordPause r => (recordPause env r s.store).map (·.2)
  | .consumeResume r => do
      raiseIf (strip r.answer = "") ⟨.invalidRequest, "HITL answer 不能为空", 400, false, []⟩
      (consumeTransaction env r (strip r.answer) s.store).map (·.2)
  | .pinSkillActivation runId workerId token requested =>
    (pinSkillActivation runId workerId token requested s.store).map (·.2)
  | .recordToolAudit r => recordToolAudit r s.store
  | .append runId eventType data workerId token =>
    append env ⟨runId, eventType, data, some workerId, some token⟩ s.store
  | .requestCancel username runId => (requestCancel env username runId s.store).map (·.2)
  | .readCancel username runId => (readCancel username runId s.store).map fun _ => s.store
  | .writeCancel position =>
    match s.cancels[position]? with
    | some p => (writeCancel env p s.store).map (·.2)
    | none => .ok s.store

/-- The requests to cancel that are open after a call. -/
def Call.openCancels (call : Call) (s : System) : List PendingCancel :=
  match call.op with
  | .readCancel username runId =>
    match readCancel username runId s.store with
    | .ok p => s.cancels ++ [p]
    | .error _ => s.cancels
  | .writeCancel position => s.cancels.eraseIdx position
  | _ => s.cancels

/-- A transaction that raises is rolled back. -/
def exec (s : System) (call : Call) : System where
  store := match call.transaction s with
    | .ok s' => s'
    | .error _ => s.store
  cancels := call.openCancels s

/-- The system reached by a list of calls, from users without runs. -/
def System.after (users : Relational.Table Id User) (calls : List Call) : System :=
  Machine.run exec ⟨Store.initial users, []⟩ calls

theorem System.after_append (users : Relational.Table Id User) (calls later : List Call) :
    System.after users (calls ++ later) = Machine.run exec (System.after users calls) later :=
  Machine.run_append ..

namespace Sample

def users : Relational.Table Id User := Relational.Table.put ∅ 1 ⟨"user", "user"⟩

def env : Env := ⟨now, now, r, "token", ⟨60, .enqueue, "continue", 600⟩⟩

def ask : Call := ⟨env now r, .reserve {
  username := "user"
  threadId := "thread"
  message := "question"
  idempotencyKey := r
  allowImplicitThread := true }⟩

def take (worker : String) : Call := ⟨env now r, .claim r worker none⟩

def finish (token : Option ℕ) (target : RunStatus) : Call :=
  ⟨env now r, .finalize { runId := r, targetStatus := target, content := "text", fencingToken := token }⟩

def pause (worker : String) (token : ℕ) : Call :=
  ⟨env now r, .recordPause ⟨r, worker, token, "checkpoint", "interrupt",
    ⟨"which one?", [], none, none, none⟩, .null, ["ask"]⟩⟩

def answer (key text : String) (worker : Option String) : Call :=
  ⟨env now r, .consumeResume ⟨"user", r, "token", text, key, worker, fun _ => .ok ()⟩⟩

def cancel : Call := ⟨env now r, .requestCancel "user" r⟩

end Sample

end SuperMew.Runs
