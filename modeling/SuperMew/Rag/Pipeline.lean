import Mathlib.Algebra.GroupWithZero.Nat
import Mathlib.Tactic.Common
import SuperMew.Rag.Grading

/-! The RAG graph: complexity planning, the main path with its one rewrite, the fan-out to
sub-questions with their synthesis, and resumption after a question to the user. -/

namespace SuperMew.Rag

open Faults Plain

/-- An exact execution, all of whose calls belong to the main path. -/
structure OnMain {α : Type} (x : Execution α) : Prop where
  exact : Exact x
  sites : ∀ c ∈ x.calls, c.site = .main

theorem Plain.onMain {α : Type} {x : Execution α} (h : Plain x) : OnMain x :=
  ⟨h.exact, fun c hc => (h.calls c hc).1⟩

theorem OnMain.bind {α β : Type} {x : Execution α} {f : α → Execution β} (hx : OnMain x)
    (hf : ∀ a, x.result = .ok a → OnMain (f a)) : OnMain (x >>= f) :=
  ⟨hx.exact.bind fun a ha => (hf a ha).exact,
    Traced.all_bind hx.sites fun a ha => (hf a ha).sites⟩

variable (state : RagState) (results : List SubResult) (settings : Settings)

def refine (answer : String) : RagState :=
  let clean := strip answer
  let answers := if clean.isEmpty then state.hitlAnswers else state.hitlAnswers ++ [clean]
  let original := if state.originalQuestion.isEmpty then state.question else state.originalQuestion
  let clarification := "\n".intercalate (answers.map ("- " ++ ·))
  { state with
    question := if clarification.isEmpty then original
      else original ++ "\n\n用户澄清：\n" ++ clarification
    hitlAnswers := answers }

theorem callGrader_onMain (answer : Answer EvidenceGrade) : OnMain (callGrader answer) := by
  refine ⟨Traced.exact_call ?_, fun c hc => ?_⟩
  · cases answer <;> simp [Call.Fatal, Except.mapError, Raised.IsProvider]
  · obtain rfl := List.mem_singleton.mp hc
    cases answer <;> rfl

section

variable [TextCase]

/-! ## Nodes of the main path -/

/-- The answers of the providers to one retrieval and its grading. -/
structure RoundScript where
  retrieval : RetrievalScript
  grader : Answer EvidenceGrade

structure RewritePlan where
  method : RewriteMethod
  stepBackQuestion : String := ""
  hydeDocument : String := ""
  deriving DecidableEq, Repr

def retrieveInitial (script : RetrievalScript) (state : RagState) :
    Execution RagState := do
  let docs ← retrieveDocuments settings state.tenantId script
  pure { state with docs := docs, ragTrace := {} }

/-- The rewritten query of a plan; a plan that mixes the two methods is refused. -/
def rewriteQueryOnce (query : String) (plan : RewritePlan) : Option String :=
  let stepBack := strip plan.stepBackQuestion
  let hyde := strip plan.hydeDocument
  match plan.method with
  | .stepBack =>
    if stepBack.isEmpty || !hyde.isEmpty then none
    else some (query ++ "\n\n退步问题：" ++ stepBack)
  | .hyde =>
    if hyde.isEmpty || !stepBack.isEmpty then none
    else some (query ++ "\n\n假设性答案文档：" ++ hyde)

def rewriteQuestionNode (answer : Answer RewritePlan) (state : RagState) :
    Execution RagState :=
  if 1 ≤ state.rewriteCount then
    pure { state with
      route := some (.graded .noKnowledge)
      retrievalStatus := some .noKnowledge
      docs := []
      ragTrace := { state.ragTrace with
        retrievalStatus := some .noKnowledge
        route := some (.graded .noKnowledge) } }
  else if !settings.fastConfigured then
    Traced.raise (.other "RuntimeError: Fast model is required for query rewriting")
  else do
    let plan ← callProvider .rewrite answer
    match rewriteQueryOnce state.question plan with
    | none => Traced.raise (.other "ValueError")
    | some query =>
      pure { state with
        rewriteMethod := some plan.method
        rewrittenQuery := strip query
        rewriteCount := state.rewriteCount + 1 }

def retrieveRewritten (script : RetrievalScript) (state : RagState) :
    Execution RagState :=
  if state.rewriteMethod.isNone || (strip state.rewrittenQuery).isEmpty then
    Traced.raise (.other "ValueError")
  else do
    let docs ← retrieveDocuments settings state.tenantId script
    pure { state with docs := docs }

structure RewriteScript extends RoundScript where
  rewrite : Answer RewritePlan

/-- One turn of the cycle rewrite → retrieve → grade. -/
def rewriteRound (script : RewriteScript) (state : RagState) :
    Execution RagState := do
  let state ← rewriteQuestionNode settings script.rewrite state
  let state ← retrieveRewritten settings script.retrieval state
  gradeDocumentsNode settings script.grader state

/-- The cycle of the graph after grading, under the recursion limit of the graph. -/
def gradeCycle (settings : Settings) : ℕ → (ℕ → RewriteScript) → RagState → Execution RagState
  | 0, _, _ => Traced.raise (.other "GraphRecursionError")
  | limit + 1, scripts, state =>
    if state.route = some (.graded .rewrite) then do
      let state ← rewriteRound settings (scripts 0) state
      gradeCycle settings limit (fun i => scripts (i + 1)) state
    else pure state

def retrieveAndGrade (script : RoundScript) (state : RagState) :
    Execution RagState := do
  let state ← retrieveInitial settings script.retrieval state
  gradeDocumentsNode settings script.grader state

/-! ## Complexity -/

def simpleQueryMarkers : List String :=
  ["是什么", "是谁", "哪里", "何时", "多少", "是否", "哪个", "哪种", "属性", "参数", "规格", "定义",
    "含义", "what is", "who is", "where is", "when is", "how many", "which"]

def simpleInterrogativeMarkers : List String :=
  ["是什么", "是谁", "哪里", "何时", "多少", "是否", "哪个", "哪种", "what is", "who is", "where is",
    "when is", "how many", "which"]

def complexQueryMarkers : List String :=
  ["比较", "对比", "区别", "差异", "优缺点", "优势", "劣势", "分析", "总结", "综合", "原因", "成因",
    "影响", "方案", "步骤", "如何", "为什么", "以及", "同时", "并且", "和", "与", "谁更", "compare",
    "versus", "difference", "different", "analyze", "summarize", "trade-off", "pros and cons",
    "why ", "how ", "complex"]

def queryDimensionMarkers : List String :=
  ["属性", "武器", "定位", "技能", "机制", "参数", "规格", "性能", "价格", "优点", "缺点", "作用"]

/-- `text.count(needle)`: occurrences without overlap; `skip` characters belong to the last one. -/
def occurrences (needle : List Char) : ℕ → List Char → ℕ
  | _, [] => 0
  | skip + 1, _ :: cs => occurrences needle skip cs
  | 0, c :: cs =>
    if needle.isPrefixOf (c :: cs) then 1 + occurrences needle (needle.length - 1) cs
    else occurrences needle 0 cs

def occurrencesOf (needles : List String) (text : List Char) : ℕ :=
  (needles.map fun needle => occurrences needle.toList 0 text).sum

/-- `re.sub(r"\s+", " ", text)`. -/
def collapseSpaces : List Char → List Char
  | [] => []
  | c :: cs =>
    if isSpace c then
      match cs with
      | [] => [' ']
      | d :: _ => if isSpace d then collapseSpaces cs else ' ' :: collapseSpaces cs
    else c :: collapseSpaces cs

def hasAny (needles : List String) (text : List Char) : Bool :=
  needles.any fun needle => occursIn needle.toList text

def simpleQuestionFastPathReason (question : String) : Option String :=
  let normalized :=
    (TextCase.lower (String.ofList (collapseSpaces (stripChars question.toList)))).toList
  if normalized.isEmpty || 48 < normalized.length then none
  else if hasAny complexQueryMarkers normalized then none
  else if 1 < occurrencesOf simpleInterrogativeMarkers normalized then none
  else if normalized.contains '、' then none
  else if normalized.any (fun c => 0x4e00 ≤ c.toNat && c.toNat ≤ 0x9fff) &&
      3 ≤ normalized.count ' ' then none
  else if 2 ≤ (queryDimensionMarkers.filter fun m => occursIn m.toList normalized).length then none
  else if 1 < occurrencesOf ["?", "？", ";", "；"] normalized then none
  else if hasAny simpleQueryMarkers normalized then
    some "obvious_simple_fast_path:single_fact_marker"
  else if (normalized.rdropWhile fun c => "?？。.!！".toList.contains c).length ≤ 18 then
    some "obvious_simple_fast_path:short_single_intent"
  else none

/-- The planner's reply; the schema admits at most four sub-questions. -/
structure ComplexityResult where
  complex : Bool
  reason : String := ""
  subQuestions : List String := []
  bounded : subQuestions.length ≤ 4 := by decide

/-- The answers of the providers to one execution of the graph. -/
structure Script where
  planner : Answer ComplexityResult
  first : RoundScript
  rewrites : ℕ → RewriteScript
  subs : ℕ → RoundScript

def plannedSubQuestions (result : ComplexityResult) : List String :=
  ((result.subQuestions.filter fun item => !(strip item).isEmpty).map strip).take 4

/-- The sub-questions of a complex question, or nothing for a simple one. -/
def classifyComplexity (answer : Answer ComplexityResult) (question : String) :
    Execution (Option (List String)) :=
  if (simpleQuestionFastPathReason question).isSome then pure none
  else if !settings.fastConfigured then
    Traced.raise (.other "RuntimeError: Fast model is required for complexity planning")
  else do
    let result ← callProvider .planner answer
    if !result.complex then pure none
    else if (plannedSubQuestions result).isEmpty then
      Traced.raise (.other "ValueError: Complexity planner returned no sub-questions")
    else pure (some (plannedSubQuestions result))

/-! ## Sub-questions -/

def initialState (tenantId question : String) (isSubAgent : Bool) : RagState :=
  { tenantId, originalQuestion := question, question, isSubAgent }

def failedSubResult (question : String) (error : ProviderError) : SubResult :=
  { question
    docs := []
    retrievalStatus := some .providerFailed
    route := some .providerFailed
    providerError := some error
    ragTrace := { retrievalStatus := some .providerFailed, route := some .providerFailed } }

def subResultOf : SubResult :=
  { question := state.question
    docs := state.docs
    retrievalStatus := state.retrievalStatus <|> state.ragTrace.retrievalStatus
    route := state.route <|> state.ragTrace.route
    ragTrace := state.ragTrace }

/-- Retrieve and grade; a provider error becomes the result of the sub-question. -/
def ragSubAgent (tenantId : String) (script : RoundScript)
    (question : String) : Execution SubResult :=
  Traced.rescue
    (do
      let state ← retrieveAndGrade settings script (initialState tenantId question true)
      pure (subResultOf state))
    fun
      | .provider error => some (failedSubResult question error)
      | .other _ => none

def atSub (i : ℕ) (call : Call) : Call := { call with site := .sub i }

def fanoutSubQuestions (settings : Settings) (tenantId : String) (scripts : ℕ → RoundScript) :
    ℕ → List String → Execution (List SubResult)
  | _, [] => pure []
  | i, question :: questions => do
      let result ← (ragSubAgent settings tenantId (scripts i) question).relabel (atSub i)
      let results ← fanoutSubQuestions settings tenantId scripts (i + 1) questions
      pure (result :: results)

def providerFailures : List ProviderError :=
  results.filterMap SubResult.providerError

def mergedDocs : List Doc :=
  dedupeDocuments ((results.filter fun result =>
    result.retrievalStatus = some .answerable || result.retrievalStatus = some .partly).flatMap
      SubResult.docs)

def uncoveredResults : List SubResult :=
  results.filter fun result => result.retrievalStatus ≠ some .answerable

def hitlTraces : List RagTrace :=
  (results.map SubResult.ragTrace).filter fun trace =>
    trace.retrievalStatus = some .needsClarification ||
      trace.retrievalStatus = some .needsScopeSelection

def synthesisStatus : RetrievalStatus :=
  if mergedDocs results ≠ [] then
    if providerFailures results ≠ [] ∨ uncoveredResults results ≠ [] then .partly else .answerable
  else if hitlTraces results ≠ [] then
    if (hitlTraces results).any fun trace => trace.retrievalStatus = some .needsScopeSelection then
      .needsScopeSelection
    else .needsClarification
  else if providerFailures results ≠ [] then .insufficientEvidence
  else .noKnowledge

def synthesisRoute : StateRoute :=
  if mergedDocs results ≠ [] then .graded .answer
  else if hitlTraces results ≠ [] then
    if synthesisStatus results = .needsScopeSelection then .graded .scopeSelect
    else .graded .clarify
  else if providerFailures results ≠ [] then .insufficientEvidence
  else .graded .noKnowledge

def gapQuestionsOf : List String :=
  if mergedDocs results ≠ [] ∨ providerFailures results ≠ [] then
    (((uncoveredResults results).map fun result => strip result.question).filter fun question =>
      !question.isEmpty).eraseDups
  else []

def synthesisState : RagState :=
  let results := state.subResults
  let status := synthesisStatus results
  let docs := mergedDocs results
  let asks := docs = [] && hitlTraces results ≠ []
  let prompt := if asks then
      "；".intercalate (((hitlTraces results).map RagTrace.hitlPrompt).filter (· ≠ "")).eraseDups
    else ""
  let options := if asks then ((hitlTraces results).flatMap RagTrace.hitlOptions).eraseDups else []
  { state with
    docs := docs.zipIdx.map fun entry => { entry.1 with rrfRank := some (entry.2 + 1) }
    route := some (synthesisRoute results)
    retrievalStatus := some status
    retrievalOutcome := some (outcomeForStatus status)
    hitlPrompt := prompt
    hitlOptions := options
    ragTrace := { state.ragTrace with
      retrievalStatus := some status
      retrievalOutcome := some (outcomeForStatus status)
      evidenceRelevance := some (if docs ≠ [] then .strong else .none)
      evidenceAnswerability := some (if status = .partly then .partly
        else if docs ≠ [] then .sufficient else .none)
      route := some (synthesisRoute results)
      hitlPrompt := prompt
      hitlOptions := options
      coverageGapCodes := ((providerFailures results).map fun error => error.code.value).eraseDups
      coverageGapQuestions := gapQuestionsOf results } }

/-- Sub-questions that all failed raise the first of their errors. -/
def synthesis : Execution RagState :=
  match providerFailures state.subResults with
  | error :: errors =>
    if (error :: errors).length = state.subResults.length then Traced.raise (.provider error)
    else pure (synthesisState state)
  | [] => pure (synthesisState state)

/-! ## Executions -/

/-- The recursion limit leaves this many turns of the cycle after the first grading. -/
def cycleLimit : ℕ := 7

/-- The branch of complex questions: `rag_sub_agent` for each of them, then `synthesis`. -/
def answerSubQuestions (script : Script) (subQuestions : List String)
    (state : RagState) : Execution RagState := do
  let results ← fanoutSubQuestions settings state.tenantId script.subs 0 subQuestions
  synthesis { state with complex := true, subQuestions, subResults := results }

/-- The branch of simple questions. -/
def answerDirectly (script : Script) (state : RagState) :
    Execution RagState := do
  let state ← retrieveAndGrade settings script.first state
  gradeCycle settings cycleLimit script.rewrites state

def runRagGraph (tenantId question : String) (script : Script) :
    Execution RagState :=
  if (strip tenantId).isEmpty then Traced.raise (.other "ValueError: tenant_id is required")
  else do
    match ← classifyComplexity settings script.planner question with
    | some subQuestions =>
      answerSubQuestions settings script subQuestions
        (initialState (strip tenantId) question false)
    | none => answerDirectly settings script (initialState (strip tenantId) question false)

def isHitlResult (result : RagState) : Bool :=
  let status := result.retrievalStatus <|> result.ragTrace.retrievalStatus
  let route := result.route <|> result.ragTrace.route
  status = some .needsClarification || status = some .needsScopeSelection ||
    route = some (.graded .clarify) || route = some (.graded .scopeSelect)

structure ResumeScript where
  first : RoundScript
  rewrite : RewriteScript

/-- One retrieval for the refined question; the sub-questions are not asked again. -/
def retrieveResumeQuery (script : RoundScript) (state : RagState) :
    Execution RagState := do
  let docs ← retrieveDocuments settings state.tenantId script.retrieval
  gradeDocumentsNode settings script.grader { state with docs := docs }

def resumeRagState (script : ResumeScript) (answer : String)
    (state : RagState) : Execution RagState := do
  let state ← retrieveResumeQuery settings script.first (refine state answer)
  if state.route = some (.graded .rewrite) then rewriteRound settings script.rewrite state
  else pure state

/-- What a durable run keeps of a state while it waits for the user. -/
def compactHitlState : RagState := { state with docs := [], subResults := [] }

/-- The last leg of a run with the answers that the user gave. -/
def converse (settings : Settings) :
    Execution RagState → List (String × Bool × ResumeScript) → Execution RagState
  | leg, [] => leg
  | leg, (answer, durable, script) :: answers =>
    match leg.result with
    | .error _ => leg
    | .ok state =>
      if isHitlResult state then
        converse settings
          (resumeRagState settings script answer
            (if durable then compactHitlState state else state)) answers
      else leg

/-- The legs of a run after its first one. -/
def resumeRun (settings : Settings) :
    List (String × Bool × ResumeScript) → RagState → Execution RagState
  | [], state => pure state
  | (answer, durable, script) :: answers, state =>
    if isHitlResult state then do
      let state ← resumeRagState settings script answer
        (if durable then compactHitlState state else state)
      resumeRun settings answers state
    else pure state

/-- A whole run, with the calls of all its legs. -/
def runWithAnswers (tenantId question : String) (script : Script)
    (answers : List (String × Bool × ResumeScript)) : Execution RagState := do
  let state ← runRagGraph settings tenantId question script
  resumeRun settings answers state

/-! ## The main path raises a provider error exactly when one of its calls failed -/

variable (settings : Settings)

theorem gradeDocumentsNode_onMain (answer : Answer EvidenceGrade) (state : RagState) :
    OnMain (gradeDocumentsNode settings answer state) := by
  unfold gradeDocumentsNode
  split
  · exact (pure _).onMain
  · split
    · exact (raise _).onMain
    · exact (callGrader_onMain answer).bind fun _ _ => (pure _).onMain

omit [TextCase] in
theorem rewriteQuestionNode_plain (answer : Answer RewritePlan) (state : RagState) :
    Plain (rewriteQuestionNode settings answer state) := by
  unfold rewriteQuestionNode
  split
  · exact pure _
  · split
    · exact raise _
    · refine (callProvider_plain (by decide) answer).bind fun plan _ => ?_
      split
      · exact raise _
      · exact pure _

omit [TextCase] in
theorem retrieveRewritten_plain (script : RetrievalScript) (state : RagState) :
    Plain (retrieveRewritten settings script state) := by
  unfold retrieveRewritten
  split
  · exact raise _
  · exact (retrieveDocuments_plain settings _ script).bind fun _ _ => pure _

theorem rewriteRound_onMain (script : RewriteScript) (state : RagState) :
    OnMain (rewriteRound settings script state) :=
  (rewriteQuestionNode_plain settings _ state).onMain.bind fun state _ =>
    (retrieveRewritten_plain settings _ state).onMain.bind fun state _ =>
      gradeDocumentsNode_onMain settings _ state

theorem gradeCycle_onMain (limit : ℕ) (scripts : ℕ → RewriteScript) (state : RagState) :
    OnMain (gradeCycle settings limit scripts state) := by
  induction limit generalizing scripts state with
  | zero => exact (raise _).onMain
  | succ limit ih =>
    unfold gradeCycle
    split
    · exact (rewriteRound_onMain settings _ state).bind fun state _ => ih _ state
    · exact (pure _).onMain

theorem retrieveAndGrade_onMain (script : RoundScript) (state : RagState) :
    OnMain (retrieveAndGrade settings script state) := by
  refine OnMain.bind (onMain ?_) fun state _ => gradeDocumentsNode_onMain settings _ state
  exact (retrieveDocuments_plain settings _ _).bind fun _ _ => pure _

theorem answerDirectly_onMain (script : Script) (state : RagState) :
    OnMain (answerDirectly settings script state) :=
  (retrieveAndGrade_onMain settings _ state).bind fun state _ =>
    gradeCycle_onMain settings _ _ state

theorem resumeRagState_onMain (script : ResumeScript) (answer : String) (state : RagState) :
    OnMain (resumeRagState settings script answer state) := by
  refine OnMain.bind ?_ fun state _ => ?_
  · exact (retrieveDocuments_plain settings _ _).onMain.bind fun docs _ =>
      gradeDocumentsNode_onMain settings _ _
  · split
    · exact rewriteRound_onMain settings _ state
    · exact (pure _).onMain

theorem resumeRun_onMain (answers : List (String × Bool × ResumeScript)) (state : RagState) :
    OnMain (resumeRun settings answers state) := by
  induction answers generalizing state with
  | nil => exact (pure _).onMain
  | cons entry answers ih =>
    unfold resumeRun
    split
    · exact (resumeRagState_onMain settings _ _ _).bind fun state _ => ih state
    · exact (pure _).onMain

theorem classifyComplexity_plain (answer : Answer ComplexityResult) (question : String) :
    Plain (classifyComplexity settings answer question) := by
  unfold classifyComplexity
  split
  · exact pure _
  · split
    · exact raise _
    · refine (callProvider_plain (by decide) answer).bind fun result _ => ?_
      split
      · exact pure _
      · split
        · exact raise _
        · exact pure _

end

end SuperMew.Rag
