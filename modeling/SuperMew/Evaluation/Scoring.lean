import Mathlib.Algebra.Order.Floor.Defs
import Mathlib.Data.Rat.Floor
import SuperMew.Evaluation.Contract

/-! Scores of the cases of a dataset and their aggregation. Floats are the rationals they
denote, and the operations on them are those of a given arithmetic. -/

namespace SuperMew.Evaluation

/-- The arithmetic of floats; `round` keeps twelve decimals and `text` is `str(value)`. -/
structure Arithmetic where
  add : ℚ → ℚ → ℚ
  sub : ℚ → ℚ → ℚ
  mul : ℚ → ℚ → ℚ
  div : ℚ → ℚ → ℚ
  sum : List ℚ → ℚ
  log2 : ℕ → ℚ
  round : ℚ → ℚ
  text : ℚ → String

/-- Exact arithmetic, for values on which floats are exact too. No logarithm is taken. -/
def exactArithmetic : Arithmetic where
  add := (· + ·)
  sub := (· - ·)
  mul := (· * ·)
  div := (· / ·)
  sum := List.sum
  log2 _ := 1
  round x := (⌊x * 10 ^ 12 + 1 / 2⌋ : ℚ) / 10 ^ 12
  text x := toString x

/-! ## Dictionaries -/

/-- `d[key] = value`. -/
def setKey {α : Type} (d : List (String × α)) (key : String) (value : α) : List (String × α) :=
  if key ∈ d.map Prod.fst then d.map fun e => if e.1 = key then (key, value) else e
  else d ++ [(key, value)]

def sortNames (names : List String) : List String := names.insertionSort (· ≤ ·)

/-- `{key: d[key] for key in sorted(d)}`. -/
def sortKeys {α : Type} (d : List (String × α)) : List (String × α) :=
  (sortNames (d.map Prod.fst)).filterMap fun key => (d.lookup key).map (key, ·)

/-! ## Matching -/

section Matching

variable [Platform]

/-- `" ".join(value.split())`. -/
def joinWords (value : String) : String :=
  " ".intercalate (((value.toList.splitOnP isSpace).filter (· ≠ [])).map String.ofList)

def normalizeName (value : Option String) : Option String :=
  value.map fun v => Platform.nfc (joinWords v)

def isVersionChar (c : Char) : Bool :=
  ('A' ≤ c && c ≤ 'Z') || ('a' ≤ c && c ≤ 'z') || ('0' ≤ c && c ≤ '9') || c == '_' || c == '-'

/-- Removes a match of `^docver_[A-Za-z0-9_-]+::`. -/
def dropVersionPrefix (value : String) : String :=
  match List.splitAt 7 value.toList with
  | (['d', 'o', 'c', 'v', 'e', 'r', '_'], rest) =>
    match rest.span isVersionChar with
    | (_ :: _, ':' :: ':' :: name) => String.ofList name
    | _ => value
  | _ => value

def normalizeChunkId (value : Option String) : Option String :=
  value.map fun v => dropVersionPrefix (Platform.nfc (strip v))

def chunkMatches (gold : RagGoldChunk) (retrieved : RagRetrievedChunk) : Bool :=
  (gold.chunkId.isSome && normalizeChunkId gold.chunkId == normalizeChunkId retrieved.chunkId) ||
    (gold.contentSha256.isSome && gold.contentSha256 == retrieved.contentSha256)

def documentMatches (gold : RagGoldDocument) (retrieved : RagRetrievedChunk) : Bool :=
  (gold.documentId.isSome && gold.documentId == retrieved.documentId) ||
    (gold.canonicalName.isSome &&
      normalizeName gold.canonicalName == normalizeName retrieved.canonicalName)

/-- `_ranked(chunks, k)`; `none` is no cut-off. -/
def ranked (chunks : List RagRetrievedChunk) (k : Option ℕ) : List RagRetrievedChunk :=
  let ordered := chunks.insertionSort fun a b => a.rank ≤ b.rank
  match k with
  | none => ordered
  | some k => ordered.filter fun c => c.rank ≤ k

/-- Each retrieved chunk takes the first gold chunk that it matches and no earlier chunk took:
the relevances, and the gold chunks left. -/
def takeGold {γ : Type} (matched : γ → RagRetrievedChunk → Bool) :
    List γ → List RagRetrievedChunk → List ℕ × List γ
  | unmatched, [] => ([], unmatched)
  | unmatched, retrieved :: rest =>
    match unmatched.findIdx? fun gold => matched gold retrieved with
    | none =>
      let (relevance, left) := takeGold matched unmatched rest
      (0 :: relevance, left)
    | some i =>
      let (relevance, left) := takeGold matched (unmatched.eraseIdx i) rest
      (1 :: relevance, left)

def chunkRelevance (goldChunks : List RagGoldChunk) (retrieved : List RagRetrievedChunk) :
    List ℕ × ℕ :=
  let (relevance, left) := takeGold chunkMatches goldChunks retrieved
  (relevance, goldChunks.length - left.length)

/-- The chunks with a document identity that no earlier chunk has. -/
def firstOfDocument (seen : List (Option String × Option String)) :
    List RagRetrievedChunk → List RagRetrievedChunk
  | [] => []
  | chunk :: rest =>
    let identity := (chunk.documentId, normalizeName chunk.canonicalName)
    if identity ∈ seen then firstOfDocument seen rest
    else chunk :: firstOfDocument (identity :: seen) rest

def documentMatchCount (goldDocuments : List RagGoldDocument) (retrieved : List RagRetrievedChunk) :
    ℕ :=
  goldDocuments.length -
    (takeGold documentMatches goldDocuments (firstOfDocument [] retrieved)).2.length

end Matching

/-! ## Scores of a case -/

section Scores

variable [Platform] (A : Arithmetic)

structure RankingMetrics where
  «recall» : ℚ
  precision : ℚ
  mrr : ℚ
  ndcg : ℚ

def rankingMetrics (goldChunks : List RagGoldChunk) (retrieved : List RagRetrievedChunk) (k : ℕ) :
    RankingMetrics :=
  let top := ranked retrieved (some k)
  let (relevance, matched) := chunkRelevance goldChunks top
  let hits := top.zip relevance
  let mrr := match hits.find? fun e => e.2 ≠ 0 with
    | none => 0
    | some (chunk, _) => A.div 1 chunk.rank
  let dcg := A.sum (hits.map fun e => A.div e.2 (A.log2 (e.1.rank + 1)))
  let ideal := A.sum ((List.range (min goldChunks.length k)).map fun i => A.div 1 (A.log2 (i + 2)))
  { «recall» := A.round (A.div matched goldChunks.length)
    precision := A.round (A.div matched k)
    mrr := A.round mrr
    ndcg := A.round (if ideal ≠ 0 then A.div dcg ideal else 0) }

def optionalEqual {α : Type} [DecidableEq α] (expected actual : Option α) : Option Bool :=
  expected.map fun e => decide (some e = actual)

def largestK (kValues : List ℕ) : ℕ := kValues.foldl max 0

def asFloat (b : Bool) : ℚ := if b then 1 else 0

def chunkMetricsAt (case : RagEvalCase) (observation : RagEvalObservation) (k : ℕ) :
    List (String × Option ℚ) :=
  if case.goldChunks ≠ [] then
    let ranking := rankingMetrics A case.goldChunks observation.retrievedChunks k
    [(s!"recall_at_{k}", some ranking.«recall»), (s!"precision_at_{k}", some ranking.precision),
      (s!"mrr_at_{k}", some ranking.mrr), (s!"ndcg_at_{k}", some ranking.ndcg),
      (s!"hit_at_{k}", some (asFloat (decide (0 < ranking.«recall»))))]
  else
    [(s!"recall_at_{k}", none), (s!"precision_at_{k}", none), (s!"mrr_at_{k}", none),
      (s!"ndcg_at_{k}", none), (s!"hit_at_{k}", none)]

def documentMetricAt (case : RagEvalCase) (observation : RagEvalObservation) (k : ℕ) :
    String × Option ℚ :=
  (s!"document_recall_at_{k}",
    if case.goldDocuments ≠ [] then
      some (A.round (A.div
        (documentMatchCount case.goldDocuments (ranked observation.retrievedChunks (some k)))
        case.goldDocuments.length))
    else none)

/-- `rewrite_recall_delta_at_k` for the largest `k`. -/
def rewriteDelta (case : RagEvalCase) (observation : RagEvalObservation) (k : ℕ) : Option ℚ :=
  if observation.rewritePerformed ∧ case.goldChunks ≠ [] then
    let initial := (rankingMetrics A case.goldChunks observation.initialRetrievedChunks k).«recall»
    let final := (rankingMetrics A case.goldChunks observation.rewriteRetrievedChunks k).«recall»
    some (A.round (A.sub final initial))
  else none

/-- The score of the judge; the relevance of the context needs a context. -/
def judgeScore (observation : RagEvalObservation) (metric : JudgeMetric) : Option ℚ :=
  if metric = .contextRelevance ∧
      (observation.outcome = some .noKnowledge ∨ observation.retrievedChunks = []) then none
  else observation.judge.map (·.score metric)

/-- The metrics of the judge pass from one half upwards, or downwards. -/
def judgePasses (metric : JudgeMetric) (value : ℚ) : Bool :=
  if metric = .unsupportedClaimRate then decide (value ≤ 1 / 2) else decide (1 / 2 ≤ value)

/-- `_score_case`: the checks. -/
def caseChecks (case : RagEvalCase) (observation : RagEvalObservation) (kValues : List ℕ) :
    List (String × Option Bool) :=
  let k := largestK kValues
  [("complexity", optionalEqual case.expected.complexity observation.complexity),
    ("route", optionalEqual case.expected.route observation.route),
    ("outcome", optionalEqual case.expected.outcome observation.outcome),
    ("hitl", some (decide (observation.hitl = case.expected.hitl))),
    ("hitl_resolution", optionalEqual case.expected.hitlResolutionSuccess
      observation.hitlResolutionSuccess),
    ("hitl_final_outcome", optionalEqual case.expected.hitlFinalOutcome
      observation.hitlFinalOutcome),
    (s!"retrieval_hit_at_{k}",
      if case.goldChunks ≠ [] then
        some (decide (0 < (rankingMetrics A case.goldChunks observation.retrievedChunks k).«recall»))
      else none)] ++
    judgeMetrics.map fun metric =>
      ("judge_" ++ metric.value, (judgeScore observation metric).map (judgePasses metric))

/-- `_score_case`: the metrics. -/
def caseMetrics (case : RagEvalCase) (observation : RagEvalObservation) (kValues : List ℕ) :
    List (String × Option ℚ) :=
  let k := largestK kValues
  let matched := (chunkRelevance case.goldChunks (ranked observation.retrievedChunks none)).2
  let delta := rewriteDelta A case observation k
  [("gold_chunk_coverage",
      if case.goldChunks ≠ [] then some (A.round (A.div matched case.goldChunks.length))
      else none)] ++
    kValues.flatMap (chunkMetricsAt A case observation) ++
    kValues.map (documentMetricAt A case observation) ++
    [(s!"rewrite_recall_delta_at_{k}", delta),
      (s!"rewrite_improved_at_{k}", delta.map fun d => asFloat (decide (0 < d))),
      ("parent_expansion_precision", none)] ++
    judgeMetrics.map (fun metric => (metric.value, (judgeScore observation metric).map A.round)) ++
    [("duration_ms", some (A.round observation.durationMs)),
      ("provider_failed", some (asFloat observation.providerErrorCode.isSome))]

def scoreCase (case : RagEvalCase) (observation : RagEvalObservation) (kValues : List ℕ) :
    RagEvalCaseResult :=
  let checks := caseChecks A case observation kValues
  { caseId := case.id
    critical := case.critical
    metrics := sortKeys (caseMetrics A case observation kValues)
    checks := sortKeys checks
    providerFailed := observation.providerErrorCode.isSome
    providerErrorCode := observation.providerErrorCode
    providerErrorStage := observation.providerErrorStage
    goldChunkCount := case.goldChunks.length
    matchedGoldChunkCount :=
      if case.goldChunks ≠ [] then
        (chunkRelevance case.goldChunks (ranked observation.retrievedChunks none)).2
      else 0
    passed := checks.all (fun check => check.2 != some false) &&
      observation.providerErrorCode.isNone }

end Scores

/-! ## Aggregates -/

section Aggregates

variable (A : Arithmetic)

def mean (values : List ℚ) : Option ℚ :=
  if values = [] then none else some (A.round (A.div (A.sum values) values.length))

def meanResult (values : List ℚ) : RagMetricResult := ⟨mean A values, values.length⟩

def percentile (values : List ℚ) (fraction : ℚ) : Option ℚ :=
  let rank := max (⌈A.mul fraction values.length⌉.toNat) 1
  ((values.insertionSort (· ≤ ·))[rank - 1]?).map A.round

def metricValues (cases : List RagEvalCaseResult) (name : String) : List ℚ :=
  cases.filterMap fun case => (case.metrics.lookup name).join

/-- The checks that are aggregated, with the names of their rates. -/
def checkRates : List (String × String) :=
  [("complexity", "complexity_accuracy"), ("route", "route_accuracy"),
    ("outcome", "outcome_accuracy"), ("hitl", "hitl_accuracy"),
    ("hitl_resolution", "hitl_resolution_success_rate"),
    ("hitl_final_outcome", "hitl_final_outcome_accuracy")]

def checkValues (cases : List RagEvalCaseResult) (check : String) : List ℚ :=
  cases.filterMap fun case => ((case.checks.lookup check).join).map asFloat

def providerErrorStages : List RagProviderErrorStage := [.retrieval, .generation, .judge]

/-- `gold_chunk_coverage`: over all gold chunks, not over the cases. -/
def goldCoverage (cases : List RagEvalCaseResult) : RagMetricResult :=
  let total := (cases.map RagEvalCaseResult.goldChunkCount).sum
  let matched := (cases.map RagEvalCaseResult.matchedGoldChunkCount).sum
  ⟨if total ≠ 0 then some (A.round (A.div matched total)) else none,
    cases.countP fun case => 0 < case.goldChunkCount⟩

/-- The writes of `_aggregate_metrics` in their order. -/
def aggregateWrites (cases : List RagEvalCaseResult) (observations : List RagEvalObservation)
    (kValues : List ℕ) : List (String × RagMetricResult) :=
  let names := sortNames (cases.flatMap fun case => case.metrics.map Prod.fst).dedup
  let durations := observations.map RagEvalObservation.durationMs
  let k := largestK kValues
  ((names.filter fun name => name ≠ "duration_ms" ∧ name ≠ "provider_failed").map fun name =>
      (name, meanResult A (metricValues cases name))) ++
    [("gold_chunk_coverage", goldCoverage A cases)] ++
    (checkRates.map fun rate => (rate.2, meanResult A (checkValues cases rate.1))) ++
    [("latency_mean_ms", meanResult A (durations.insertionSort (· ≤ ·))),
      ("latency_p50_ms", ⟨percentile A durations (1 / 2), durations.length⟩),
      ("latency_p95_ms", ⟨percentile A durations (19 / 20), durations.length⟩),
      ("provider_failure_rate", meanResult A
        (observations.map fun o => asFloat o.providerErrorCode.isSome))] ++
    (providerErrorStages.map fun stage => (stage.value ++ "_provider_failure_rate",
      meanResult A (observations.map fun o => asFloat (decide (o.providerErrorStage = some stage))))) ++
    [("case_pass_rate", meanResult A (cases.map fun case => asFloat case.passed)),
      ("rewrite_coverage_rate", meanResult A (observations.map fun o => asFloat o.rewritePerformed)),
      (s!"rewrite_improvement_rate_at_{k}",
        meanResult A (metricValues cases s!"rewrite_improved_at_{k}")),
      (s!"rewrite_recall_delta_at_{k}",
        meanResult A (metricValues cases s!"rewrite_recall_delta_at_{k}"))]

def aggregateMetrics (cases : List RagEvalCaseResult) (observations : List RagEvalObservation)
    (kValues : List ℕ) : List (String × RagMetricResult) :=
  (aggregateWrites A cases observations kValues).foldl (fun d e => setKey d e.1 e.2) []

def aggregateTagSlices (dataset : RagEvalDataset) (cases : List RagEvalCaseResult)
    (observations : List RagEvalObservation) (kValues : List ℕ) :
    List (String × RagEvalSliceResult) :=
  (sortNames (dataset.cases.flatMap RagEvalCase.tags).dedup).filterMap fun tag =>
    let ids := sortNames ((dataset.cases.filter fun case =>
      tag ∈ case.tags ∧ case.id ∈ cases.map RagEvalCaseResult.caseId).map RagEvalCase.id)
    if ids = [] then none
    else
      let tagged := ids.filterMap fun id => cases.find? fun case => case.caseId = id
      let observed := ids.filterMap fun id => observations.find? fun o => o.caseId = id
      some (tag, ⟨ids.length, sortKeys (aggregateMetrics A tagged observed kValues)⟩)

end Aggregates

end SuperMew.Evaluation
