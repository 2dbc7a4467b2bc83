import SuperMew.Runs.Model
import SuperMew.Library.Sequenced
import SuperMew.Frontend.Values

/-! The browser's view of a run, folded from its events. -/

namespace SuperMew.Frontend

open Runs (RunEventType)

inductive RunLifecycleStatus where
  | idle
  | creating
  | queued
  | pending
  | running
  | waitingInput
  | cancelling
  | cancelled
  | failed
  | completed
  deriving DecidableEq, Repr

structure RunHitlState where
  hitlToken : Option String
  checkpointId : Option String
  prompt : String
  options : List String
  route : Option String
  retrievalStatus : Option String
  originalQuestion : Option String
  deriving DecidableEq, Repr

inductive RunTimelineKind where
  | run
  | planner
  | retrieval
  | tool
  | artifact
  | warning
  deriving DecidableEq, Repr

inductive RunTimelineStatus where
  | pending
  | running
  | completed
  | failed
  | denied
  | warning
  deriving DecidableEq, Repr

structure RunTimelineItem where
  id : String
  sequence : ℕ
  kind : RunTimelineKind
  eventType : String
  status : RunTimelineStatus
  title : String
  detail : Option String
  timestamp : String
  toolName : Option String
  toolCallId : Option String
  durationMs : Option ℤ
  resultSize : Option ℤ
  guardrailDecision : Option String
  guardrailReasonCode : Option String
  error : Option PublicErrorInfo
  deriving DecidableEq, Repr

structure RunArtifactState where
  artifactId : String
  name : String
  mediaType : String
  uri : Option String
  sizeBytes : Option ℤ
  sha256 : Option String
  toolName : Option String
  toolCallId : Option String
  sequence : ℕ
  createdAt : String
  deriving DecidableEq, Repr

structure ToolFailure where
  toolName : Option String
  error : PublicErrorInfo
  fallbackApplied : Bool
  deriving DecidableEq, Repr

/-- The view, without the fields that no event changes: those of the transport, the idempotency
key and the active skill. -/
structure RunEventState where
  runId : String
  threadId : String
  status : RunLifecycleStatus := .idle
  lastSequence : ℕ := 0
  terminal : Bool := false
  terminalSequence : Option ℕ := none
  activeDurationMs : ℚ := 0
  activeStartedAt : Option String := none
  hasGap : Bool := false
  userMessageId : Option ℤ := none
  assistantMessageId : Option ℤ := none
  messageText : String := ""
  messageStatus : Option String := none
  ragTrace : Option Dict := none
  pendingHitl : Option RunHitlState := none
  lastResumeAnswer : Option String := none
  usage : Dict := []
  timeline : List RunTimelineItem := []
  artifacts : List RunArtifactState := []
  toolProgress : List (Option String × Dict) := []
  error : Option PublicErrorInfo := none
  warnings : List PublicErrorInfo := []
  toolFailures : List ToolFailure := []
  unknownEventTypes : List String := []
  deriving DecidableEq, Repr

def initialRunEventState (runId threadId : String) : RunEventState := { runId, threadId }

/-! ## Events -/

/-- The type of a received event, which a newer server may have added. -/
inductive EventName where
  | known (type : RunEventType)
  | unknown (name : String)
  deriving DecidableEq, Repr

def eventTypeText : RunEventType → String
  | .runCreated => "run.created"
  | .runStarted => "run.started"
  | .runWaitingInput => "run.waiting_input"
  | .runCompleted => "run.completed"
  | .runFailed => "run.failed"
  | .runCancelled => "run.cancelled"
  | .plannerStarted => "planner.started"
  | .plannerCompleted => "planner.completed"
  | .toolStarted => "tool.started"
  | .toolProgress => "tool.progress"
  | .toolCompleted => "tool.completed"
  | .toolFailed => "tool.failed"
  | .toolDenied => "tool.denied"
  | .retrievalStarted => "retrieval.started"
  | .retrievalCandidates => "retrieval.candidates"
  | .retrievalRerankCompleted => "retrieval.rerank_completed"
  | .retrievalCompleted => "retrieval.completed"
  | .messageDelta => "message.delta"
  | .messageCompleted => "message.completed"
  | .hitlRequired => "hitl.required"
  | .hitlResumed => "hitl.resumed"
  | .usageUpdated => "usage.updated"
  | .artifactCreated => "artifact.created"
  | .warningCreated => "warning.created"

def EventName.text : EventName → String
  | known type => eventTypeText type
  | unknown name => name

/-- A received event; data that is not a record counts as empty. -/
structure RuntimeRunEvent where
  runId : String
  threadId : String
  sequence : ℕ
  type : EventName
  timestamp : String
  data : Dict
  deriving DecidableEq, Repr

variable (data : Dict) (event : RuntimeRunEvent)

def toolTimelineId (sequence : ℕ) : String :=
  "tool:" ++ ((safeString (data.get? "tool_call_id") <|>
    safeString (data.get? "tool_name")).getD (toString sequence))

/-- Replaces the first item with the id, or appends the item. -/
def replaceTimelineItem (item : RunTimelineItem) : List RunTimelineItem → List RunTimelineItem
  | [] => [item]
  | existing :: rest =>
    if existing.id = item.id then item :: rest
    else existing :: replaceTimelineItem item rest

def settleRunningTimelineItems (status : RunTimelineStatus) (timeline : List RunTimelineItem) :
    List RunTimelineItem :=
  timeline.map fun item => if item.status = .running then { item with status } else item

def statusOfText : String → RunLifecycleStatus
  | "succeeded" => .completed
  | "idle" => .idle
  | "creating" => .creating
  | "queued" => .queued
  | "running" => .running
  | "waiting_input" => .waitingInput
  | "cancelling" => .cancelling
  | "cancelled" => .cancelled
  | "failed" => .failed
  | "completed" => .completed
  | _ => .pending

/-- The values that `||` skips. -/
def falsy : Json → Bool
  | .null => true
  | .bool b => !b
  | .int n => n == 0
  | .str s => s == ""
  | .other _ => false

def isRerankFallback : Bool :=
  data.get? "stage" == some (.str "rerank") && data.get? "fallback_applied" == some (.bool true)

/-- `safeString(data.tool_name) || '工具'`. -/
def toolLabel : String := (safeString (data.get? "tool_name")).getD "工具"

section

variable [Browser]

/-! ## Timeline -/

def timelineDetail : Option String :=
  let step := asRecord (data.get? "step")
  safeString (data.get? "message") <|> safeString (data.get? "detail") <|>
    safeString (step.bind (·.get? "detail")) <|> safeString (step.bind (·.get? "label"))

def baseTimelineItem (id : String) (kind : RunTimelineKind)
    (status : RunTimelineStatus) (title : String) : RunTimelineItem :=
  let data := event.data
  { id, kind, status, title
    sequence := event.sequence
    eventType := event.type.text
    detail := timelineDetail data
    timestamp := event.timestamp
    toolName := safeString (data.get? "tool_name")
    toolCallId := safeString (data.get? "tool_call_id")
    durationMs := safeNonNegativeInteger (data.get? "duration_ms")
    resultSize := safeNonNegativeInteger (data.get? "result_size")
    guardrailDecision := safeString (data.get? "guardrail_decision")
    guardrailReasonCode := safeString (data.get? "reason_code") <|>
      safeString (data.get? "guardrail_reason_code")
    error := none }

def artifactState : Option RunArtifactState := do
  let data := event.data
  let artifactId ← safeString (data.get? "artifact_id")
  let name ← safeString (data.get? "name")
  let mediaType ← safeString (data.get? "media_type")
  pure
    { artifactId, name, mediaType
      uri := safeString (data.get? "uri")
      sizeBytes := safeNonNegativeInteger (data.get? "size_bytes")
      sha256 := safeString (data.get? "sha256")
      toolName := safeString (data.get? "tool_name")
      toolCallId := safeString (data.get? "tool_call_id")
      sequence := event.sequence
      createdAt := event.timestamp }

/-! ## Parts of the view -/

def lifecycleStatus (value : Option Json) : RunLifecycleStatus :=
  match value with
  | some v => if falsy v then .pending else statusOfText (textOf v)
  | none => .pending

def hitlState : RunHitlState where
  hitlToken := safeString (data.get? "hitl_token")
  checkpointId := safeString (data.get? "checkpoint_id")
  prompt := (safeString (data.get? "prompt")).getD "请补充一个关键信息后继续。"
  options := (asList (data.get? "options")).filterMap fun value => safeString (some value)
  route := safeString (data.get? "route")
  retrievalStatus := safeString (data.get? "retrieval_status")
  originalQuestion := safeString (data.get? "original_question")

def warningError : PublicErrorInfo :=
  let error := normalizePublicErrorInfo data { code := some "INTERNAL_ERROR", retryable := some false }
  if isRerankFallback data then
    { error with message := publicErrorMessage "RERANK_UNAVAILABLE" } else error

namespace RunEventState

def finishActiveInterval (state : RunEventState) (endedAt : String) : RunEventState :=
  let started := state.activeStartedAt.bind Browser.parseDate
  let elapsed : ℚ := match started, Browser.parseDate endedAt with
    | some start, some stop => if start ≤ stop then stop - start else 0
    | _, _ => 0
  { state with
    activeDurationMs := state.activeDurationMs + elapsed
    activeStartedAt := none }

omit [Browser] in
def appendItem (state : RunEventState) (item : RunTimelineItem) : RunEventState :=
  { state with timeline := state.timeline ++ [item] }

omit [Browser] in
def replaceItem (state : RunEventState) (item : RunTimelineItem) : RunEventState :=
  { state with timeline := replaceTimelineItem item state.timeline }

/-- The three events that end a run. -/
def finish (state : RunEventState) (event : RuntimeRunEvent) (settled : RunTimelineStatus)
    (status : RunLifecycleStatus) (error : Option PublicErrorInfo) (title : String) :
    RunEventState :=
  let state := state.finishActiveInterval event.timestamp
  let item := baseTimelineItem event ("run:terminal:" ++ toString event.sequence) .run settled title
  { state with
    timeline := settleRunningTimelineItems settled state.timeline ++ [{ item with error }]
    status
    terminal := true
    terminalSequence := some event.sequence
    pendingHitl := none
    error }

end RunEventState

/-! ## The reducer -/

def reduceEvent (state : RunEventState) (event : RuntimeRunEvent) : RunEventState :=
  let next := { state with lastSequence := event.sequence }
  let data := event.data
  match event.type with
  | .known .runCreated =>
    let next := { next with
      status := lifecycleStatus (data.get? "status")
      userMessageId := safeInteger (data.get? "user_message_id")
      assistantMessageId := safeInteger (data.get? "assistant_message_id")
      error := none }
    next.appendItem (baseTimelineItem event ("run:created:" ++ toString event.sequence) .run
      .pending "Run 已创建")
  | .known .runStarted =>
    let next := { next with
      status := .running
      error := none
      activeStartedAt := next.activeStartedAt <|> some event.timestamp }
    next.appendItem (baseTimelineItem event ("run:started:" ++ toString event.sequence) .run
      .running "开始执行")
  | .known .runWaitingInput =>
    let next := next.finishActiveInterval event.timestamp
    { next with
      timeline := settleRunningTimelineItems .completed next.timeline
      status := .waitingInput }
  | .known .runCompleted => next.finish event .completed .completed none "Run 已完成"
  | .known .runFailed =>
    let error := normalizePublicErrorInfo data { code := some "RUN_EXECUTION_FAILED" }
    next.finish event .failed .failed (some error) "Run 执行失败"
  | .known .runCancelled =>
    let error := normalizePublicErrorInfo data
      { code := some "RUN_CANCELLED", retryable := some false, category := some "run",
        stage := some "cancellation" }
    next.finish event .failed .cancelled (some error) "Run 已取消"
  | .known .messageDelta =>
    let delta := (orElse (data.get? "delta") (orElse (data.get? "content") none)).getD (Json.str "")
    { next with
      messageText := next.messageText ++ textOf delta
      messageStatus := some "streaming" }
  | .known .messageCompleted =>
    { next with
      messageText := ((orElse (data.get? "content") none).map textOf).getD next.messageText
      messageStatus := some (((orElse (data.get? "status") none).map textOf).getD "completed")
      ragTrace := asRecord (data.get? "rag_trace") }
  | .known .hitlRequired =>
    { next with
      messageText := ""
      messageStatus := some "waiting_input"
      pendingHitl := some (hitlState data)
      status := .waitingInput }
  | .known .hitlResumed =>
    { next with
      pendingHitl := none
      lastResumeAnswer := safeString (data.get? "answer")
      messageStatus := some "streaming"
      status := .running }
  | .known .usageUpdated => { next with usage := next.usage.merge data }
  | .known .warningCreated =>
    let code : Option Json := data.get? "code"
    let warning := warningError data
    let title := if isRerankFallback data then "相关性排序已降级"
      else if code = some (Json.str "CONTEXT_TRIMMED") then "上下文已整理"
      else (safeString (data.get? "message")).getD "执行警告"
    let item := baseTimelineItem event ("warning:" ++ toString event.sequence) .warning .warning
      title
    let next := { next with
      status := if code = some (Json.str "CANCEL_REQUESTED") then .cancelling else next.status
      warnings := next.warnings ++ [warning] }
    next.appendItem { item with error := some warning }
  | .known .toolProgress =>
    match asRecord (data.get? "step") with
    | some step =>
      let title := (safeString (step.get? "label")).getD (toolLabel data ++ "执行中")
      let next := { next with
        toolProgress := next.toolProgress ++ [(safeString (data.get? "tool_name"), step)] }
      next.replaceItem (baseTimelineItem event (toolTimelineId data event.sequence) .tool
        .running title)
    | none => next
  | .known .toolFailed => toolFailure next event "TOOL_EXECUTION_FAILED" .failed "执行失败"
  | .known .toolDenied => toolFailure next event "POLICY_DENIED" .denied "未获允许"
  | .known .plannerStarted =>
    next.replaceItem (baseTimelineItem event "planner" .planner .running "正在规划执行路径")
  | .known .plannerCompleted =>
    next.replaceItem (baseTimelineItem event "planner" .planner .completed "执行路径已确定")
  | .known .toolStarted =>
    next.replaceItem (baseTimelineItem event (toolTimelineId data event.sequence) .tool .running
      (toolLabel data ++ "开始执行"))
  | .known .toolCompleted =>
    next.replaceItem (baseTimelineItem event (toolTimelineId data event.sequence) .tool .completed
      (toolLabel data ++ "执行完成"))
  | .known .retrievalStarted =>
    next.replaceItem (baseTimelineItem event "retrieval" .retrieval .running "开始检索证据")
  | .known .retrievalCandidates =>
    next.replaceItem (baseTimelineItem event "retrieval" .retrieval .running "正在整理候选证据")
  | .known .retrievalRerankCompleted =>
    next.replaceItem (baseTimelineItem event "retrieval" .retrieval .running "证据精排已完成")
  | .known .retrievalCompleted =>
    next.replaceItem (baseTimelineItem event "retrieval" .retrieval .completed "证据检索已完成")
  | .known .artifactCreated =>
    match artifactState event with
    | some artifact =>
      let next := { next with
        artifacts := next.artifacts.filter (fun (a : RunArtifactState) =>
          a.artifactId ≠ artifact.artifactId) ++ [artifact] }
      next.appendItem (baseTimelineItem event ("artifact:" ++ artifact.artifactId) .artifact
        .completed ("生成 Artifact：" ++ artifact.name))
    | none => next
  | .unknown name => { next with unknownEventTypes := next.unknownEventTypes ++ [name] }
where
  /-- `tool.failed` and `tool.denied`. -/
  toolFailure (next : RunEventState) (event : RuntimeRunEvent) (code : String)
      (status : RunTimelineStatus) (ending : String) : RunEventState :=
    let data := event.data
    let error := normalizePublicErrorInfo data
      { code := some code, retryable := some false, stage := some "tool" }
    let failure : ToolFailure := ⟨safeString (data.get? "tool_name"), error,
      data.get? "fallback_applied" == some (.bool true)⟩
    let item := baseTimelineItem event (toolTimelineId data event.sequence) .tool status
      (toolLabel data ++ ending)
    let next := { next with toolFailures := next.toolFailures ++ [failure] }
    next.replaceItem { item with error := some error }

def applyRunEvent (state : RunEventState) (event : RuntimeRunEvent) : RunEventState :=
  if event.runId ≠ state.runId ∨ event.threadId ≠ state.threadId ∨
      event.sequence ≤ state.lastSequence ∨ state.terminalSequence ≠ none then state
  else if event.sequence ≠ state.lastSequence + 1 then
    if state.hasGap then state else { state with hasGap := true }
  else reduceEvent state event

end

/-! ## Deliveries -/

section Deliveries

variable [Browser]

/-- The reducer as a reader of a numbered log. -/
def runReader : Sequenced.Reader RunEventState RuntimeRunEvent where
  last := RunEventState.lastSequence
  closed state := state.terminalSequence.isSome
  mine state event := decide (event.runId = state.runId ∧ event.threadId = state.threadId)
  seq := RuntimeRunEvent.sequence
  ends event := match event.type with
    | .known type => type.terminal
    | .unknown _ => false
  step := reduceEvent
  gap state := { state with hasGap := true }
  forget state := { state with hasGap := false }

/-- What every event does to the fields that the guards read. -/
theorem reduceEvent_frame (state : RunEventState) (event : RuntimeRunEvent) :
    (reduceEvent state event).runId = state.runId ∧
      (reduceEvent state event).threadId = state.threadId ∧
      (reduceEvent state event).lastSequence = event.sequence ∧
      (reduceEvent state event).terminalSequence =
        if runReader.ends event then some event.sequence else state.terminalSequence := by
  obtain ⟨runId, threadId, sequence, type, timestamp, data⟩ := event
  cases type with
  | unknown name => exact ⟨rfl, rfl, rfl, rfl⟩
  | known type =>
    cases type
    case toolProgress =>
      simp only [reduceEvent]
      split <;> exact ⟨rfl, rfl, rfl, rfl⟩
    case artifactCreated =>
      simp only [reduceEvent]
      split <;> exact ⟨rfl, rfl, rfl, rfl⟩
    all_goals exact ⟨rfl, rfl, rfl, rfl⟩

/-- No event reads the note of a gap. -/
theorem reduceEvent_hasGap (state : RunEventState) (event : RuntimeRunEvent) (gap : Bool) :
    reduceEvent { state with hasGap := gap } event =
      { reduceEvent state event with hasGap := gap } := by
  obtain ⟨runId, threadId, sequence, type, timestamp, data⟩ := event
  cases type with
  | unknown name => rfl
  | known type =>
    cases type
    case toolProgress =>
      simp only [reduceEvent]
      split <;> rfl
    case artifactCreated =>
      simp only [reduceEvent]
      split <;> rfl
    all_goals rfl

theorem runReader_lawful : runReader.Lawful where
  last_step state event := (reduceEvent_frame state event).2.2.1
  last_gap _ := rfl
  last_forget _ := rfl
  closed_step state event hopen := by
    have hnone : state.terminalSequence = none := by
      simpa [runReader] using hopen
    have hframe : (reduceEvent state event).terminalSequence = _ :=
      (reduceEvent_frame state event).2.2.2
    change (reduceEvent state event).terminalSequence.isSome = runReader.ends event
    rw [hframe, hnone]
    cases runReader.ends event <;> rfl
  closed_forget _ := rfl
  mine_step state event := by
    obtain ⟨hrun, hthread, -⟩ := reduceEvent_frame state event
    funext event'
    simp only [runReader]
    rw [hrun, hthread]
  mine_gap _ := rfl
  mine_forget _ := rfl
  forget_gap _ := rfl
  forget_step state event := (reduceEvent_hasGap state event false).symm

theorem receive_eq (state : RunEventState) (event : RuntimeRunEvent) :
    runReader.receive state event = applyRunEvent state event := by
  unfold Sequenced.Reader.receive applyRunEvent
  have hguard : (runReader.mine state event = false ∨ runReader.seq event ≤ runReader.last state ∨
      runReader.closed state = true) ↔ (event.runId ≠ state.runId ∨
        event.threadId ≠ state.threadId ∨ event.sequence ≤ state.lastSequence ∨
        state.terminalSequence ≠ none) := by
    simp only [runReader, decide_eq_false_iff_not, not_and_or, or_assoc, Option.isSome_iff_ne_none]
  by_cases hskip : event.runId ≠ state.runId ∨ event.threadId ≠ state.threadId ∨
      event.sequence ≤ state.lastSequence ∨ state.terminalSequence ≠ none
  · rw [if_pos hskip, if_pos (hguard.mpr hskip)]
  · rw [if_neg hskip, if_neg (fun h => hskip (hguard.mp h))]
    by_cases hnext : event.sequence ≠ state.lastSequence + 1
    · have hnext' : runReader.seq event ≠ runReader.last state + 1 := hnext
      rw [if_pos hnext, if_pos hnext']
      split
      next hgap => simp [runReader, ← hgap]
      next => rfl
    · have hnext' : ¬ runReader.seq event ≠ runReader.last state + 1 := hnext
      rw [if_neg hnext, if_neg hnext']
      rfl

/-- The journal of one run: one event for each sequence number. -/
structure RunJournal (runId threadId : String) where
  events : List RuntimeRunEvent
  numbered : ∀ i (h : i < events.length), events[i].sequence = i + 1
  own : ∀ e ∈ events, e.runId = runId ∧ e.threadId = threadId

def throughTerminal (events : List RuntimeRunEvent) : List RuntimeRunEvent := runReader.through events

variable {runId threadId : String}

theorem RunJournal.log (journal : RunJournal runId threadId) :
    runReader.Log (initialRunEventState runId threadId) journal.events where
  numbered := journal.numbered
  mine e he := decide_eq_true (journal.own e he)

theorem initialRunEventState_fresh (runId threadId : String) :
    runReader.Fresh (initialRunEventState runId threadId) :=
  ⟨rfl, rfl, rfl⟩

theorem foldl_receive (events : List RuntimeRunEvent) (state : RunEventState) :
    events.foldl runReader.receive state = events.foldl applyRunEvent state := by
  have hsame : (runReader.receive : RunEventState → RuntimeRunEvent → RunEventState) =
      applyRunEvent := by
    funext state event
    exact receive_eq state event
  rw [hsame]

/-- Apart from the note of a gap the view is the fold of a prefix of the journal, whatever was
delivered; the journal in order completes it; and a terminal view does not change. -/
theorem view_depends_on_journal (runId threadId : String) (journal : RunJournal runId threadId)
    (deliveries : List RuntimeRunEvent)
    (hdeliveries : ∀ e ∈ deliveries, e ∈ journal.events ∨ e.runId ≠ runId ∨ e.threadId ≠ threadId) :
    let start := initialRunEventState runId threadId
    let view := deliveries.foldl applyRunEvent start
    view.lastSequence ≤ journal.events.length ∧
      { view with hasGap := false } =
        (journal.events.take view.lastSequence).foldl applyRunEvent start ∧
      { view with hasGap := false } =
        (journal.events.take view.lastSequence).foldl reduceEvent start ∧
      { journal.events.foldl applyRunEvent view with hasGap := false } =
        (throughTerminal journal.events).foldl reduceEvent start ∧
      (view.terminalSequence ≠ none → ∀ event, applyRunEvent view event = view) := by
  intro start view
  have hlog := journal.log
  have hfresh := initialRunEventState_fresh runId threadId
  have hreads : runReader.Reads start journal.events view := by
    have hforeign : ∀ e ∈ deliveries, e ∈ journal.events ∨ runReader.mine start e = false := by
      intro e he
      refine (hdeliveries e he).imp_right fun hother => decide_eq_false ?_
      rintro ⟨hrun, hthread⟩
      exact hother.elim (· hrun) (· hthread)
    have hall := (hfresh.reads journal.events).foldl runReader_lawful hlog hforeign
    rwa [foldl_receive] at hall
  refine ⟨hreads.le_length, ?_, hreads.folded, ?_, ?_⟩
  · rw [← foldl_receive]
    exact hreads.received.symm
  · have hcomplete := hreads.complete runReader_lawful hlog hfresh
    rwa [foldl_receive] at hcomplete
  · intro hterminal event
    exact if_pos (.inr (.inr (.inr hterminal)))

end Deliveries

/-! ### A reordered delivery -/

namespace PlainBrowser

/-- A browser to run the model on: no nested values and no dates. -/
scoped instance plain : Browser where
  parse _ := .record []
  display _ := "[object Object]"
  parseDate _ := none

end PlainBrowser

section Reordered

open PlainBrowser

def eventOf (runId : String) (sequence : ℕ) (type : RunEventType) : RuntimeRunEvent :=
  ⟨runId, "thread-1", sequence, .known type, "2026-07-14T00:00:00Z", []⟩

def shortJournal : RunJournal "run_1" "thread-1" where
  events := [eventOf "run_1" 1 .runCreated, eventOf "run_1" 2 .runStarted,
    eventOf "run_1" 3 .runCompleted]
  numbered := by decide
  own := by decide

/-- The second event comes first, the first one twice, and one of another run between them. -/
theorem view_depends_on_journal_reordered :
    let view := [eventOf "run_1" 2 .runStarted, eventOf "run_1" 1 .runCreated,
      eventOf "run_2" 2 .runFailed, eventOf "run_1" 1 .runCreated].foldl applyRunEvent
        (initialRunEventState "run_1" "thread-1")
    view.lastSequence = 1 ∧ view.hasGap = true ∧
      { view with hasGap := false } = (shortJournal.events.take view.lastSequence).foldl
        applyRunEvent (initialRunEventState "run_1" "thread-1") :=
  ⟨by decide +kernel, by decide +kernel,
    (view_depends_on_journal "run_1" "thread-1" shortJournal _ (by decide)).2.1⟩

end Reordered

end SuperMew.Frontend
