import SuperMew.Rag.Retrieval

/-! Grading of the retrieved evidence, and the outcome that a state reports. -/

namespace SuperMew.Rag

open Faults

/-! ## Outcomes -/

inductive RetrievalOutcome where
  | answerable
  | noKnowledge
  | insufficientEvidence
  deriving DecidableEq, Repr

inductive RetrievalStatus where
  | answerable
  | partly
  | needsRewrite
  | needsClarification
  | needsScopeSelection
  | noKnowledge
  | insufficientEvidence
  | providerFailed
  deriving DecidableEq, Repr

/-- The route of a state: one chosen by grading, or one of the two endings that only
sub-questions and their synthesis have. -/
inductive StateRoute where
  | graded (route : Route)
  | insufficientEvidence
  | providerFailed
  deriving DecidableEq, Repr

def outcomeForStatus : RetrievalStatus → RetrievalOutcome
  | .answerable => .answerable
  | .noKnowledge => .noKnowledge
  | _ => .insufficientEvidence

/-- The fields of `rag_trace` that later steps and the outcome read. -/
structure RagTrace where
  retrievalStatus : Option RetrievalStatus := none
  retrievalOutcome : Option RetrievalOutcome := none
  route : Option StateRoute := none
  evidenceRelevance : Option Relevance := none
  evidenceAnswerability : Option Answerability := none
  hitlPrompt : String := ""
  hitlOptions : List String := []
  coverageGapCodes : List String := []
  coverageGapQuestions : List String := []
  deriving DecidableEq

/-- One entry of `sub_results`. -/
structure SubResult where
  question : String
  docs : List Doc
  retrievalStatus : Option RetrievalStatus
  route : Option StateRoute
  providerError : Option ProviderError := none
  ragTrace : RagTrace
  deriving DecidableEq

inductive RewriteMethod where
  | stepBack
  | hyde
  deriving DecidableEq, Repr

structure RagState where
  tenantId : String
  originalQuestion : String
  question : String
  docs : List Doc := []
  route : Option StateRoute := none
  retrievalStatus : Option RetrievalStatus := none
  retrievalOutcome : Option RetrievalOutcome := none
  evidenceRelevance : Option Relevance := none
  evidenceAnswerability : Option Answerability := none
  evidenceAmbiguity : Option Ambiguity := none
  evidenceConfidence : Option ℚ := none
  missingSlots : List String := []
  hitlPrompt : String := ""
  hitlOptions : List String := []
  hitlAnswers : List String := []
  rewriteCount : ℕ := 0
  rewriteMethod : Option RewriteMethod := none
  rewrittenQuery : String := ""
  ragTrace : RagTrace := {}
  complex : Bool := false
  subQuestions : List String := []
  isSubAgent : Bool := false
  subResults : List SubResult := []
  deriving DecidableEq

def isGapCode (code : String) : Bool :=
  match code.toList with
  | [] => false
  | c :: rest =>
    ('A' ≤ c && c ≤ 'Z') && rest.length ≤ 63 &&
      rest.all fun c => ('A' ≤ c && c ≤ 'Z') || ('0' ≤ c && c ≤ '9') || c == '_'

def gapCodes (result : RagState) : List String :=
  ((result.ragTrace.coverageGapCodes.filter isGapCode).eraseDups).take 8

/-- The words of a text: its maximal runs without white space. -/
def words : List Char → List (List Char)
  | [] => []
  | c :: cs =>
    if isSpace c then words cs
    else match cs with
      | [] => [[c]]
      | d :: _ =>
        if isSpace d then [c] :: words cs
        else match words cs with
          | [] => [[c]]
          | word :: rest => (c :: word) :: rest

/-- `" ".join(text.split())[:240]`. -/
def compactQuestion (text : String) : String :=
  String.ofList (([' '].intercalate (words text.toList)).take 240)

def gapQuestions (result : RagState) : List String :=
  (((result.ragTrace.coverageGapQuestions.map compactQuestion).filter fun compact =>
    !compact.isEmpty).eraseDups).take 8

def outcomeForResult (result : RagState) : RetrievalOutcome :=
  match result.retrievalOutcome <|> result.ragTrace.retrievalOutcome with
  | some .answerable => if result.docs.isEmpty then .insufficientEvidence else .answerable
  | some outcome => outcome
  | none =>
    let status := result.retrievalStatus <|> result.ragTrace.retrievalStatus
    let route := result.route <|> result.ragTrace.route
    if status = some .noKnowledge ∨ route = some (.graded .noKnowledge) then .noKnowledge
    else if status ∈ [some .partly, some .insufficientEvidence, some .providerFailed] ∨
        route ∈ [some .insufficientEvidence, some .providerFailed] ∨
        gapCodes result ≠ [] ∨ gapQuestions result ≠ [] then .insufficientEvidence
    else if result.docs.isEmpty then .noKnowledge else .answerable

/-! ## Grading -/

/-- Case folding of texts, which the development uses and never computes with. -/
class TextCase where
  casefold : String → String
  lower : String → String

variable {grade : EvidenceGrade} {state : RagState}

section

variable [TextCase]

def occursIn (needle text : List Char) : Bool := text.tails.any needle.isPrefixOf

def scopeSelectionHints : List String :=
  ["版本", "型号", "方案", "套餐", "范围", "选项", "环境", "区域", "地区", "version", "model",
    "plan", "tier", "scope", "option", "environment", "region"]

def questionRequestsScopeSelection (state : RagState) : Bool :=
  let question :=
    if state.originalQuestion.isEmpty then state.question else state.originalQuestion
  scopeSelectionHints.any fun hint =>
    occursIn hint.toList (TextCase.casefold question).toList

def selectableOptions (grade : EvidenceGrade) : List String :=
  ((grade.hitlOptions.map strip).filter fun option => !option.isEmpty).eraseDups

/-- Two options or more, for a question that asks for a scope. -/
def offersScope (grade : EvidenceGrade) (state : RagState) : Bool :=
  2 ≤ (selectableOptions grade).length && questionRequestsScopeSelection state

def answerIsSupported (grade : EvidenceGrade) : Bool :=
  grade.relevance = .strong && grade.answerability = .sufficient

def resolveRoute (grade : EvidenceGrade) (state : RagState) : Route :=
  if state.docs.isEmpty || grade.relevance = .none then .noKnowledge
  else if grade.ambiguity = .multipleCandidates then .scopeSelect
  else if grade.ambiguity = .missingSlot || !grade.missingSlots.isEmpty then
    if offersScope grade state then .scopeSelect else .clarify
  else if grade.route = .scopeSelect || (grade.route = .clarify && offersScope grade state) then
    .scopeSelect
  else if grade.route = .answer && answerIsSupported grade then .answer
  else if state.isSubAgent then
    if grade.answerability = .partly || grade.answerability = .sufficient then .answer
    else .noKnowledge
  else if grade.route = .rewrite && state.rewriteCount < 1 then .rewrite
  else if grade.route = .rewrite then
    if grade.answerability = .partly then .clarify else .noKnowledge
  else if grade.answerability = .partly then
    if state.rewriteCount < 1 then .rewrite else .clarify
  else if answerIsSupported grade then .answer
  else .noKnowledge

def retrievalStatusForRoute (route : Route) (grade : EvidenceGrade) : RetrievalStatus :=
  match route with
  | .answer => if grade.answerability = .partly then .partly else .answerable
  | .rewrite => .needsRewrite
  | .clarify => .needsClarification
  | .scopeSelect => .needsScopeSelection
  | .noKnowledge => .noKnowledge

def defaultHitlPrompt (route : Route) (grade : EvidenceGrade) : String :=
  if grade.hitlPrompt ≠ "" then grade.hitlPrompt
  else if route = .scopeSelect then "我在知识库中找到了多个可能相关的方向。你想问的是哪一个？"
  else if grade.missingSlots ≠ [] then
    "我找到了相关内容，但还缺少关键信息：" ++ "、".intercalate grade.missingSlots
  else "我找到了相关内容，但证据不足以确定答案。请补充一下你具体想问的条件。"

def gradeForNoDocs : EvidenceGrade :=
  { relevance := .none, answerability := .none, route := .noKnowledge
    confidence := 1, reason := "no_retrieved_documents" }

/-- What `grade_documents_node` writes into the state for a grade. -/
def gradeUpdate (grade : EvidenceGrade) (state : RagState) : RagState :=
  let route := resolveRoute grade state
  let status := retrievalStatusForRoute route grade
  let prompt := if route = .clarify || route = .scopeSelect then defaultHitlPrompt route grade else ""
  let kept := route = .answer || route = .rewrite
  { state with
    route := some (.graded route)
    retrievalStatus := some status
    retrievalOutcome := some (outcomeForStatus status)
    evidenceRelevance := some grade.relevance
    evidenceAnswerability := some grade.answerability
    evidenceAmbiguity := some grade.ambiguity
    evidenceConfidence := some grade.confidence
    missingSlots := grade.missingSlots
    hitlPrompt := prompt
    hitlOptions := grade.hitlOptions
    docs := if kept then state.docs else []
    ragTrace := { state.ragTrace with
      retrievalStatus := some status
      retrievalOutcome := some (outcomeForStatus status)
      evidenceRelevance := some grade.relevance
      evidenceAnswerability := some grade.answerability
      hitlPrompt := prompt
      hitlOptions := grade.hitlOptions
      route := some (.graded route) } }

/-- The grader's reply, logged with the grade it gives. -/
def callGrader (answer : Answer EvidenceGrade) : Execution EvidenceGrade :=
  Traced.call
    (fun
      | .ok grade => { service := .grader, reply := .graded grade }
      | .error _ => { service := .grader, reply := .failed })
    (answer.mapError Raised.provider)

def gradeDocumentsNode (settings : Settings) (answer : Answer EvidenceGrade) (state : RagState) :
    Execution RagState :=
  if state.docs.isEmpty then pure (gradeUpdate gradeForNoDocs state)
  else if !settings.graderConfigured then
    Traced.raise (.other "RuntimeError: Grader model is required for evidence grading")
  else do
    let grade ← callGrader answer
    pure (gradeUpdate grade state)

/-! ## What the routes say about the grade -/

/-- On the main path only full evidence is answered. -/
theorem resolveRoute_main_answer
    (hmain : state.isSubAgent = false) (h : resolveRoute grade state = .answer) :
    state.docs ≠ [] ∧ answerIsSupported grade = true := by
  unfold resolveRoute at h
  simp only [hmain, Bool.false_eq_true, if_false] at h
  split at h
  · cases h
  · rename_i hdocs
    refine ⟨fun hnil => hdocs (by simp [hnil]), ?_⟩
    repeat' split at h
    all_goals simp_all

/-- The grade finds its question unambiguous and the documents sufficient. -/
def Covers (grade : EvidenceGrade) (state : RagState) : Prop :=
  grade.relevance ≠ .none ∧ grade.ambiguity = .none ∧ grade.missingSlots = [] ∧
    grade.route ≠ .scopeSelect ∧ ¬ (grade.route = .clarify ∧ offersScope grade state = true) ∧
    grade.answerability = .sufficient

instance (grade : EvidenceGrade) (state : RagState) : Decidable (Covers grade state) :=
  inferInstanceAs (Decidable (_ ∧ _ ∧ _ ∧ _ ∧ _ ∧ _))

/-- A sub-question is answerable when its grade covers it, whatever its relevance. -/
theorem resolveRoute_sub_answerable (hsub : state.isSubAgent = true) :
    retrievalStatusForRoute (resolveRoute grade state) grade = .answerable ↔
      state.docs ≠ [] ∧ Covers grade state := by
  unfold resolveRoute
  simp only [hsub, if_true]
  split
  · rename_i h
    have hnone : state.docs = [] ∨ grade.relevance = .none := by simpa using h
    rcases hnone with h | h <;> simp [Covers, retrievalStatusForRoute, h]
  · rename_i h
    have hsome : state.docs ≠ [] ∧ grade.relevance ≠ .none := by simpa using h
    cases hamb : grade.ambiguity with
    | multipleCandidates => simp [Covers, retrievalStatusForRoute, hamb]
    | missingSlot =>
      cases hoffers : offersScope grade state <;> simp [Covers, retrievalStatusForRoute, hamb]
    | none =>
      by_cases hmissing : grade.missingSlots = []
      · cases hans : grade.answerability <;> cases hroute : grade.route <;>
          cases hoffers : offersScope grade state <;>
          simp [Covers, retrievalStatusForRoute, answerIsSupported, hsome.1, hsome.2, hamb,
            hmissing, hans, hroute, hoffers]
      · cases hoffers : offersScope grade state <;>
          simp [Covers, retrievalStatusForRoute, hamb, hmissing]

end

end SuperMew.Rag
