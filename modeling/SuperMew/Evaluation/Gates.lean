import Mathlib.Data.Finset.Dedup
import SuperMew.Evaluation.Scoring

/-! The gates of an evaluation and the report over a dataset. -/

namespace SuperMew.Evaluation

inductive RagEvaluationError where
  | datasetFingerprintMismatch (message : String)
  | observationCoverage (message : String)
  deriving DecidableEq, Repr

/-! ## Metric gates -/

section Gates

variable (A : Arithmetic)

/-- `_round(baseline_value ∓ max_regression)`. -/
def baselineThreshold (gate : RagMetricGate) (baseline : ℚ) : ℚ :=
  match gate.direction with
  | .higherIsBetter => A.round (A.sub baseline gate.maxRegression)
  | .lowerIsBetter => A.round (A.add baseline gate.maxRegression)

def beyond (gate : RagMetricGate) (actual threshold : ℚ) : Prop :=
  match gate.direction with
  | .higherIsBetter => actual < threshold
  | .lowerIsBetter => threshold < actual

instance (gate : RagMetricGate) (actual threshold : ℚ) : Decidable (beyond gate actual threshold) :=
  match h : gate.direction with
  | .higherIsBetter => decidable_of_iff (actual < threshold) (by rw [beyond, h])
  | .lowerIsBetter => decidable_of_iff (threshold < actual) (by rw [beyond, h])

def boundFailures (gate : RagMetricGate) (actual : ℚ) : List String :=
  (match gate.minimum with
    | some minimum => if actual < minimum then ["below minimum " ++ A.text minimum] else []
    | none => []) ++
  (match gate.maximum with
    | some maximum => if maximum < actual then ["above maximum " ++ A.text maximum] else []
    | none => [])

/-- The comparison with the baseline: the failures, and the threshold where one was taken. -/
def baselineFailures (gate : RagMetricGate) (actual : ℚ) (eligible : ℕ) :
    Option RagMetricResult → List String × Option ℚ
  | none => ([], none)
  | some ⟨none, _⟩ => (if gate.required then ["baseline metric is unavailable"] else [], none)
  | some ⟨some value, baselineEligible⟩ =>
    if eligible < baselineEligible ∧ gate.required then
      ([s!"eligible case count dropped from {baselineEligible} to {eligible}"], none)
    else
      let threshold := baselineThreshold A gate value
      (if beyond gate actual threshold then
          ["regressed more than " ++ A.text gate.maxRegression ++ " from baseline"] else [],
        some threshold)

def shownThreshold (gate : RagMetricGate) : Option ℚ :=
  let first := match gate.direction with
    | .higherIsBetter => gate.minimum
    | .lowerIsBetter => gate.maximum
  match first with
  | some threshold => some threshold
  | none => if gate.minimum.isNone then gate.maximum else gate.minimum

def evaluateMetricGate (gate : RagMetricGate) (current baseline : Option RagMetricResult) :
    RagGateResult :=
  match current with
  | some ⟨some actual, eligible⟩ =>
    let (regressions, threshold) := baselineFailures A gate actual eligible baseline
    let failures := boundFailures A gate actual ++ regressions
    let evaluated := gate.minimum.isSome || gate.maximum.isSome || baseline.isSome
    { name := "metric:" ++ gate.metric
      metric := some gate.metric
      status := if failures ≠ [] then .failed else if evaluated then .passed else .skipped
      actual := some actual
      baseline := baseline.bind RagMetricResult.value
      threshold := shownThreshold gate <|> threshold
      baselineThreshold := threshold
      detail := if failures ≠ [] then "; ".intercalate failures else "gate satisfied" }
  | _ =>
    { name := "metric:" ++ gate.metric
      metric := some gate.metric
      status := if gate.required then .failed else .skipped
      detail := "metric is unavailable" }

/-! ## Critical cases and provenance -/

/-- `baseline_cases[case_id]`: the dictionary keeps the last of equal ids. -/
def baselineCase (baseline : RagEvalReport) (caseId : String) : Option RagEvalCaseResult :=
  baseline.cases.reverse.find? fun case => case.caseId = caseId

/-- The regressions of one critical case. -/
def caseRegressions (previous current : RagEvalCaseResult) : List String :=
  (previous.checks.filterMap fun check =>
    if check.2 = some true ∧ current.checks.lookup check.1 = some (some false) then
      some (current.caseId ++ ":" ++ check.1)
    else none) ++
  if ¬ previous.providerFailed ∧ current.providerFailed then
    [current.caseId ++ ":provider_failed"] else []

def currentFailures (cases : List RagEvalCaseResult) : List String :=
  sortNames ((cases.filter fun case => case.critical && !case.passed).map RagEvalCaseResult.caseId)

def criticalGate (cases : List RagEvalCaseResult) (baseline : Option RagEvalReport) :
    RagGateResult :=
  let failures := currentFailures cases
  match baseline with
  | none =>
    { name := "critical_no_regression"
      status := if failures ≠ [] then .failed else .passed
      detail := if failures ≠ [] then
          "critical cases currently failing: " ++ ", ".intercalate failures
        else "all current critical cases pass; no baseline report" }
  | some report =>
    let regressions := failures.map (· ++ ":current_failure") ++
      (cases.filter RagEvalCaseResult.critical).flatMap fun current =>
        match baselineCase report current.caseId with
        | some previous => caseRegressions previous current
        | none => []
    { name := "critical_no_regression"
      status := if regressions ≠ [] then .failed else .passed
      detail := if regressions ≠ [] then
          "critical regressions: " ++ ", ".intercalate (sortNames regressions)
        else "no critical case regressed" }

def provenanceGate (required : String) (metadata : Dict) : RagGateResult :=
  let actual := metadata.get? "provenance"
  let shown := (actual.map Json.text).getD "None"
  { name := "required_provenance"
    status := if actual = some (.str required) then .passed else .failed
    detail := if actual = some (.str required) then "provenance=" ++ shown
      else "requires " ++ required ++ ", got " ++ shown }

def evaluateGates (policy : RagEvalGatePolicy) (metrics : List (String × RagMetricResult))
    (cases : List RagEvalCaseResult) (baseline : Option RagEvalReport) (metadata : Dict) :
    List RagGateResult :=
  let baselineMetrics := (baseline.map RagEvalReport.metrics).getD []
  (policy.requiredProvenance.toList.map fun required => provenanceGate required metadata) ++
    (if policy.criticalNoRegression then [criticalGate cases baseline] else []) ++
    (policy.metricGates.insertionSort fun a b => a.metric ≤ b.metric).map fun gate =>
      evaluateMetricGate A gate (metrics.lookup gate.metric) (baselineMetrics.lookup gate.metric)

end Gates

/-! ## The report -/

section Report

variable [Platform] (A : Arithmetic) (fingerprint : RagEvalDataset → String)

def reprNames (names : List String) : String :=
  "[" ++ ", ".intercalate (names.map fun name => "'" ++ name ++ "'") ++ "]"

/-- `_index_observations`; `indexed` are the ids before. -/
def indexObservations (indexed : List String) :
    List RagEvalObservation → Except RagEvaluationError Unit
  | [] => .ok ()
  | observation :: rest =>
    if observation.caseId ∈ indexed then
      .error (.observationCoverage ("duplicate observation for case " ++ observation.caseId))
    else indexObservations (observation.caseId :: indexed) rest

/-- The results of the observed cases, in the order of their ids. -/
def scoredCases (dataset : RagEvalDataset) (observations : List RagEvalObservation)
    (kValues : List ℕ) : List RagEvalCaseResult :=
  (sortNames (observations.map RagEvalObservation.caseId)).filterMap fun id => do
    let case ← dataset.cases.find? fun case => case.id = id
    let observation ← observations.find? fun o => o.caseId = id
    pure (scoreCase A case observation kValues)

def unavailableTexts : List (String × String) :=
  [("answer_correctness", "stable answer-judge Interface is not available"),
    ("groundedness", "stable claim-to-evidence Interface is not available"),
    ("answer_relevance", "stable answer-judge Interface is not available"),
    ("completeness", "stable answer-judge Interface is not available"),
    ("context_relevance", "stable answer-judge Interface is not available"),
    ("parent_expansion_precision",
      "retrieved parent chunks do not yet expose stable child lineage"),
    ("citation_precision", "stable citation identity Interface is not available"),
    ("citation_recall", "stable citation identity Interface is not available"),
    ("unsupported_claim_rate", "structured answer claims are not available"),
    ("conflict_disclosure_rate", "structured conflict claims are not available")]

/-- A judge metric with an eligible case is available. -/
def unavailableMetrics (metrics : List (String × RagMetricResult)) : List (String × String) :=
  sortKeys (unavailableTexts.filter fun e =>
    ¬ (e.1 ∈ judgeMetrics.map JudgeMetric.value ∧
      ∃ result ∈ metrics.lookup e.1, result.eligibleCases ≠ 0))

/-- `_evaluate_rag`; `bundle` is the fingerprint of an observation bundle. -/
def evaluate (dataset : RagEvalDataset) (bundle : Option String)
    (observations : List RagEvalObservation) (policy : RagEvalGatePolicy)
    (baseline : Option RagEvalReport) (metadata : Dict) (allowPartial : Bool) :
    Except RagEvaluationError RagEvalReport := do
  failIf (∃ f ∈ bundle, f ≠ fingerprint dataset) (.datasetFingerprintMismatch
    "observation dataset fingerprint does not match the dataset")
  failIf (∃ b ∈ baseline, b.datasetFingerprint ≠ fingerprint dataset)
    (.datasetFingerprintMismatch "baseline dataset fingerprint does not match the dataset")
  indexObservations [] observations
  let ids := dataset.cases.map RagEvalCase.id
  let observed := observations.map RagEvalObservation.caseId
  let missing := sortNames (ids.filter (· ∉ observed))
  let unknown := sortNames (observed.filter (· ∉ ids))
  failIf (unknown ≠ [] ∨ missing ≠ [] ∧ ¬ allowPartial) (.observationCoverage
    ("observations must cover the dataset exactly; missing=" ++ reprNames missing ++
      ", unknown=" ++ reprNames unknown))
  let cases := scoredCases A dataset observations policy.kValues
  let metrics := aggregateMetrics A cases observations policy.kValues
  failIf (∃ b ∈ baseline, (b.cases.map RagEvalCaseResult.caseId).toFinset ≠ ids.toFinset)
    (.observationCoverage "baseline cases do not cover the current dataset exactly")
  let gates := (if missing ≠ [] then
      [{ name := "observation_coverage", status := .failed,
         detail := "missing observations: " ++ ", ".intercalate missing }] else []) ++
    evaluateGates A policy metrics cases baseline metadata
  pure
    { datasetName := dataset.name
      datasetFingerprint := fingerprint dataset
      caseCount := dataset.cases.length
      observationCount := observations.length
      metrics := sortKeys metrics
      slices := aggregateTagSlices A dataset cases observations policy.kValues
      unavailableMetrics := unavailableMetrics metrics
      cases
      gates
      passed := gates.all fun gate => gate.status != .failed
      metadata }

def evaluateRag (dataset : RagEvalDataset) (bundle : Option String)
    (observations : List RagEvalObservation) (policy : RagEvalGatePolicy)
    (baseline : Option RagEvalReport) (metadata : Dict) :
    Except RagEvaluationError RagEvalReport :=
  evaluate A fingerprint dataset bundle observations policy baseline metadata false

/-- A partial report never passes. -/
def evaluateRagPartial (dataset : RagEvalDataset) (bundle : Option String)
    (observations : List RagEvalObservation) (policy : RagEvalGatePolicy) (metadata : Dict) :
    Except RagEvaluationError RagEvalReport := do
  let report ← evaluate A fingerprint dataset bundle observations policy none
    (metadata.set "partial_report" (.bool true)) true
  let aborted : RagGateResult :=
    { name := "job_execution", status := .failed,
      detail := "job failed before successful finalization" }
  pure { report with gates := report.gates ++ [aborted], passed := false }

end Report

end SuperMew.Evaluation
