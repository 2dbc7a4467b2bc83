import Mathlib.Algebra.Order.Ring.Rat
import Mathlib.Data.List.Sort
import Mathlib.Data.List.Nodup
import SuperMew.Core.Text

/-! The records of RAG evaluation: datasets of annotated cases, observations of the pipeline,
gate policies and reports. Numbers are the rationals that the stored floats denote. -/

namespace SuperMew.Evaluation

inductive RagComplexity where
  | simple
  | complex
  deriving DecidableEq, Repr

inductive RagRoute where
  | answer
  | rewrite
  | clarify
  | scopeSelect
  | noKnowledge
  | insufficientEvidence
  | providerFailed
  deriving DecidableEq, Repr

inductive RagOutcome where
  | answerable
  | noKnowledge
  | insufficientEvidence
  deriving DecidableEq, Repr

inductive RagHitlKind where
  | none
  | clarify
  | scopeSelect
  deriving DecidableEq, Repr

inductive RagProviderErrorStage where
  | retrieval
  | generation
  | judge
  deriving DecidableEq, Repr

def RagProviderErrorStage.value : RagProviderErrorStage → String
  | retrieval => "retrieval"
  | generation => "generation"
  | judge => "judge"

inductive MetricDirection where
  | higherIsBetter
  | lowerIsBetter
  deriving DecidableEq, Repr

inductive GateStatus where
  | passed
  | failed
  | skipped
  deriving DecidableEq, Repr

/-! ## Datasets -/

structure RagExpectedBehavior where
  complexity : Option RagComplexity := none
  route : Option RagRoute := none
  outcome : Option RagOutcome := none
  hitl : RagHitlKind := .none
  hitlResolutionSuccess : Option Bool := none
  hitlFinalOutcome : Option RagOutcome := none
  deriving DecidableEq, Repr

structure RagGoldDocument where
  documentId : Option String
  canonicalName : Option String
  deriving DecidableEq, Repr

structure RagGoldChunk where
  chunkId : Option String
  contentSha256 : Option String
  deriving DecidableEq, Repr

structure RagEvalCase where
  id : String
  tags : List String := []
  critical : Bool := false
  question : String
  expected : RagExpectedBehavior
  goldDocuments : List RagGoldDocument := []
  goldChunks : List RagGoldChunk := []
  deriving DecidableEq, Repr

/-- A dataset has a case, and no two cases share an id. -/
structure RagEvalDataset where
  name : String
  cases : List RagEvalCase
  nonempty : cases ≠ []
  unique : (cases.map RagEvalCase.id).Nodup

/-! ## Observations -/

structure RagRetrievedChunk where
  rank : ℕ
  chunkId : Option String := none
  contentSha256 : Option String := none
  documentId : Option String := none
  canonicalName : Option String := none
  rank_pos : 0 < rank
  deriving DecidableEq

inductive JudgeMetric where
  | answerCorrectness
  | groundedness
  | answerRelevance
  | completeness
  | contextRelevance
  | unsupportedClaimRate
  | conflictDisclosureRate
  deriving DecidableEq, Repr

def JudgeMetric.value : JudgeMetric → String
  | answerCorrectness => "answer_correctness"
  | groundedness => "groundedness"
  | answerRelevance => "answer_relevance"
  | completeness => "completeness"
  | contextRelevance => "context_relevance"
  | unsupportedClaimRate => "unsupported_claim_rate"
  | conflictDisclosureRate => "conflict_disclosure_rate"

def judgeMetrics : List JudgeMetric :=
  [.answerCorrectness, .groundedness, .answerRelevance, .completeness, .contextRelevance,
    .unsupportedClaimRate, .conflictDisclosureRate]

/-- The scores of the judge, each between zero and one. -/
structure RagJudgeMetrics where
  score : JudgeMetric → ℚ
  bounded : ∀ metric, 0 ≤ score metric ∧ score metric ≤ 1

structure RagEvalObservation where
  caseId : String
  complexity : Option RagComplexity := none
  route : Option RagRoute := none
  outcome : Option RagOutcome := none
  hitl : RagHitlKind := .none
  hitlResolutionSuccess : Option Bool := none
  hitlFinalOutcome : Option RagOutcome := none
  rewritePerformed : Bool := false
  providerErrorCode : Option String := none
  providerErrorStage : Option RagProviderErrorStage := none
  durationMs : ℚ
  judge : Option RagJudgeMetrics := none
  retrievedChunks : List RagRetrievedChunk := []
  initialRetrievedChunks : List RagRetrievedChunk := []
  rewriteRetrievedChunks : List RagRetrievedChunk := []

/-! ## Policies and reports -/

structure RagMetricGate where
  metric : String
  direction : MetricDirection := .higherIsBetter
  minimum : Option ℚ := none
  maximum : Option ℚ := none
  maxRegression : ℚ := 0
  required : Bool := true
  deriving DecidableEq, Repr

/-- The cut-offs `k` are positive, distinct and sorted, and no metric has two gates. -/
structure RagEvalGatePolicy where
  kValues : List ℕ
  criticalNoRegression : Bool := true
  requiredProvenance : Option String := none
  metricGates : List RagMetricGate := []
  kValues_nonempty : kValues ≠ []
  kValues_pos : ∀ k ∈ kValues, 0 < k
  kValues_sorted : kValues.Pairwise (· < ·)
  unique : (metricGates.map RagMetricGate.metric).Nodup

structure RagMetricResult where
  value : Option ℚ
  eligibleCases : ℕ
  deriving DecidableEq, Repr

structure RagEvalCaseResult where
  caseId : String
  critical : Bool
  metrics : List (String × Option ℚ)
  checks : List (String × Option Bool)
  providerFailed : Bool
  providerErrorCode : Option String := none
  providerErrorStage : Option RagProviderErrorStage := none
  goldChunkCount : ℕ
  matchedGoldChunkCount : ℕ
  passed : Bool
  deriving DecidableEq, Repr

structure RagGateResult where
  name : String
  status : GateStatus
  metric : Option String := none
  actual : Option ℚ := none
  baseline : Option ℚ := none
  threshold : Option ℚ := none
  baselineThreshold : Option ℚ := none
  detail : String := ""
  deriving DecidableEq, Repr

structure RagEvalSliceResult where
  caseCount : ℕ
  metrics : List (String × RagMetricResult)
  deriving DecidableEq, Repr

structure RagEvalReport where
  datasetName : String
  datasetFingerprint : String
  caseCount : ℕ
  observationCount : ℕ
  metrics : List (String × RagMetricResult)
  slices : List (String × RagEvalSliceResult)
  unavailableMetrics : List (String × String)
  cases : List RagEvalCaseResult
  gates : List RagGateResult
  passed : Bool
  metadata : Dict := []
  deriving DecidableEq

end SuperMew.Evaluation
