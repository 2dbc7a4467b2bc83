import SuperMew.Library.Run
import SuperMew.Runs.Finalize

/-! The message journal of a thread: `ThreadRepository`, beside the reservations and the
ends of runs that write the same rows. -/

namespace SuperMew.Threads

open Relational Runs

/-- `normalize_rag_trace`; `none` where the validation raises. -/
class TraceCodec where
  normalize : Option Json → Option (Option Json)

structure MessageAppend where
  role : MessageType
  content : String
  status : MessageStatus := .completed
  runId : Option RunId := none
  clientMessageId : Option String := none
  ragTrace : Option Json := none

structure MessageRecord where
  id : Id
  threadId : String
  sequence : ℕ
  role : MessageType
  content : String
  status : MessageStatus
  runId : Option RunId
  clientMessageId : Option String
  timestamp : Time
  updatedAt : Time
  ragTrace : Option Json

structure AppendRequest where
  username : String
  threadId : String
  message : MessageAppend
  expectedVersion : Option ℕ := none
  /-- The title among the metadata. -/
  title : Option String := none

structure FinalizeMessageRequest where
  username : String
  threadId : String
  messageId : Id
  content : String
  status : MessageStatus := .completed
  ragTrace : Option Json := none

variable (env : Env)

section Operations

variable [Platform] [TraceCodec]

def normalizeRagTrace (trace : Option Json) : Except Fault (Option Json) :=
  match TraceCodec.normalize trace with
  | some normalized => .ok normalized
  | none => .error (.runtime "ValidationError")

/-- `_record`. -/
def messageRecord (m : Id) (row : Message) (threadId : String) : Except Fault MessageRecord := do
  let trace ← normalizeRagTrace row.ragTrace
  pure ⟨m, threadId, row.sequence, row.messageType, row.content, row.status, row.runId,
    row.clientMessageId, row.timestamp, row.updatedAt, trace⟩

def getOrCreateThread (user : Id) (threadId : String) (title : Option String)
    (s : Store) : Id × Thread × Store :=
  match s.threadOf user threadId with
  | some (t, thread) => (t, thread, s)
  | none =>
    let thread : Thread := ⟨user, threadId, 0, 0, 0, title, env.utcnow, env.utcnow⟩
    (s.nextThread, thread, { s.putThread s.nextThread thread with nextThread := s.nextThread + 1 })

def assertVersion (thread : Thread) (expected : Option ℕ) : Except Fault Unit :=
  raiseIf (∃ version ∈ expected, thread.version ≠ version) {
    code := .conflict
    message := "Thread 已被其他请求更新，请刷新后重试"
    statusCode := 409
    safeDetails := [("current_version", .int thread.version)] }

/-- The constraints of the table `messages` on a row that is inserted. -/
def checkMessage (row : Message) (s : Store) : Except Fault Unit := do
  violatedIf (row.runId.any (fun r => (s.runs.get r).isNone) = true) "messages_run_id_fkey"
  violatedIf (s.messages.rows.any (fun e => e.2.threadRefId == row.threadRefId &&
    e.2.sequence == row.sequence) = true) "uq_message_thread_sequence"
  violatedIf (s.messages.rows.any (fun e => e.2.threadRefId == row.threadRefId &&
    e.2.clientMessageId.isSome && e.2.stored.clientMessageId == row.stored.clientMessageId) = true)
    "uq_message_client_id"

/-- The message of a thread with a client id, which is cleaned like the stored ones; an empty
id is not looked up. -/
def existingMessage (t : Id) (clientMessageId : Option String) (s : Store) : Option (Id × Message) :=
  match clientMessageId.filter (· ≠ "") with
  | some key => s.messages.find fun _ m =>
      m.threadRefId == t && m.stored.clientMessageId == some (cleanText key)
  | none => none

/-- The end of `append_message`: a new row, and the counters of its thread. The record shows
the texts that were given. -/
def insertMessage (r : AppendRequest) (t : Id) (thread : Thread) (s : Store) :
    Except Fault (Option MessageRecord × Store) := do
  let trace ← normalizeRagTrace r.message.ragTrace
  let row : Message := {
    threadRefId := t
    runId := r.message.runId
    clientMessageId := r.message.clientMessageId
    sequence := thread.lastSequence + 1
    messageType := r.message.role
    content := r.message.content
    status := r.message.status
    timestamp := env.utcnow
    updatedAt := env.utcnow
    ragTrace := trace }
  checkMessage row s
  let thread := { thread with
    lastSequence := row.sequence
    messageCount := thread.messageCount + 1
    version := thread.version + 1
    updatedAt := env.utcnow
    title := r.title <|> thread.title }
  let record ← messageRecord s.nextMessage row r.threadId
  pure (some record, { (s.putMessage s.nextMessage row).putThread t thread with
    nextMessage := s.nextMessage + 1 })

def appendTransaction (r : AppendRequest) (s : Store) :
    Except Fault (Option MessageRecord × Store) :=
  match s.userNamed r.username with
  | none => .ok (none, s)
  | some (user, _) => do
      let (t, thread, s) := getOrCreateThread env user (cleanText r.threadId) r.title s
      assertVersion thread r.expectedVersion
      match existingMessage t r.message.clientMessageId s with
      | some (m, existing) => do
          let record ← messageRecord m existing.stored r.threadId
          pure (some record, s)
      | none => insertMessage env r t thread s

def appendMessage (r : AppendRequest) (s : Store) :
    Except Fault (Option MessageRecord × Store) :=
  match appendTransaction env r s with
  | .error (.integrity _) =>
    .error (.app ⟨.conflict, "消息序号或幂等键冲突，请重试", 409, true, []⟩)
  | result => result

def createAssistantPlaceholder (username threadId : String) (runId : RunId)
    (expectedVersion : Option ℕ) (s : Store) : Except Fault (Option MessageRecord × Store) :=
  appendMessage env {
    username := username
    threadId := threadId
    message := {
      role := .ai
      content := ""
      status := .streaming
      runId := some runId
      clientMessageId := some s!"{runId}:assistant" }
    expectedVersion := expectedVersion } s

def finalizeMessage (r : FinalizeMessageRequest) (s : Store) :
    Except Fault (Option MessageRecord × Store) :=
  match s.userNamed r.username with
  | none => .ok (none, s)
  | some (user, _) =>
    match s.threadOf user (cleanText r.threadId) with
    | none => .ok (none, s)
    | some (t, thread) =>
      match (s.messages.get r.messageId).filter fun row => row.threadRefId == t with
      | none => .ok (none, s)
      | some row => do
          let trace ← normalizeRagTrace r.ragTrace
          if row.stored.content = r.content ∧ row.status = r.status ∧ row.ragTrace = trace then do
            let record ← messageRecord r.messageId row.stored r.threadId
            pure (some record, s)
          else do
            let row := { row with
              content := r.content
              status := r.status
              ragTrace := trace
              updatedAt := env.utcnow }
            let record ← messageRecord r.messageId
              { row.stored with content := r.content } r.threadId
            pure (some record,
              (s.putMessage r.messageId row).putThread t { thread with updatedAt := env.utcnow })

end Operations

/-! ## Reservations -/

/-- The client ids of the messages in each thread are unique. -/
def checkClientIds [Platform] (s : Store) : Except Fault Unit :=
  violatedIf (s.messages.rows.any (fun a => s.messages.rows.any fun b => a.1 != b.1 &&
    a.2.threadRefId == b.2.threadRefId && a.2.clientMessageId.isSome &&
    a.2.stored.clientMessageId == b.2.stored.clientMessageId) = true) "uq_message_client_id"

section Calls

variable [ErrorCodec] [Platform]

/-- `reserve`: a violated constraint, such as an appended message with a client id of the run,
rolls the transaction back and answers with the reservation that won. -/
def reserve (r : ReserveRequest) (s : Store) : Except Fault (RunReservation × Store) := do
  let input ← r.normalize env
  let transaction := do
    let (reservation, s) ← reserveTransaction env r input s
    checkClientIds s
    pure (reservation, s)
  match transaction with
  | .error (.integrity _) =>
    match (s.loadReservation r.username input.threadId input.key).filter
        (·.run.requestHash = input.requestHash) with
    | some existing => pure (existing, s)
    | none => throw (.app ⟨.runActive, "Run 并发预留冲突，请重试", 409, true, []⟩)
  | result => result

/-! ## Calls -/

inductive Op where
  | reserve (request : ReserveRequest)
  | finalize (request : FinalizeRequest)
  | appendMessage (request : AppendRequest)
  | createAssistantPlaceholder (username threadId : String) (runId : RunId)
      (expectedVersion : Option ℕ)
  | finalizeMessage (request : FinalizeMessageRequest)

structure Call where
  env : Env
  op : Op

inductive Reply where
  | reserved (reservation : RunReservation)
  | finalized (record : RunRecord)
  | message (record : Option MessageRecord)

variable [TraceCodec]

def Call.commit (call : Call) (s : Store) : Except Fault (Reply × Store) :=
  let env := call.env
  match call.op with
  | .reserve r => (reserve env r s).map fun (answer, s) => (.reserved answer, s)
  | .finalize r => (finalize env r s).map fun (answer, s) => (.finalized answer, s)
  | .appendMessage r => (appendMessage env r s).map fun (answer, s) => (.message answer, s)
  | .createAssistantPlaceholder username threadId runId expectedVersion =>
    (createAssistantPlaceholder env username threadId runId expectedVersion s).map
      fun (answer, s) => (.message answer, s)
  | .finalizeMessage r => (finalizeMessage env r s).map fun (answer, s) => (.message answer, s)

def exec (s : Store) (call : Call) : Store :=
  match call.commit s with
  | .ok (_, s') => s'
  | .error _ => s

def after (users : Table Id User) (calls : List Call) : Store :=
  Machine.run exec (Store.initial users) calls

end Calls

end SuperMew.Threads

namespace SuperMew.PlainPlatform

/-- Traces are stored as they come. -/
scoped instance plainTraces : Threads.TraceCodec := ⟨some⟩

end SuperMew.PlainPlatform
