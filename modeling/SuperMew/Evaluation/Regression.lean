import Mathlib.Data.String.Basic
import Mathlib.Tactic.Linarith
import SuperMew.Evaluation.Gates

/-! What a passed report says about its baseline. -/

namespace SuperMew.Evaluation

open List RagEvalObservation

/-! ### Sorted dictionaries -/

variable {α : Type}

theorem lookup_filterMap (d : List (String × α)) (keys : List String) (key : String) :
    (keys.filterMap fun k => (d.lookup k).map (k, ·)).lookup key =
      if key ∈ keys then d.lookup key else none := by
  induction keys with
  | nil => simp
  | cons k keys ih =>
    by_cases hk : key = k
    · subst hk
      cases hd : d.lookup key with
      | none =>
        simp only [filterMap_cons, hd, Option.map_none, ih]
        simp
      | some value => simp [hd]
    · have hbeq : (key == k) = false := by simpa using hk
      cases hd : d.lookup k with
      | none => simp [hd, ih, hk]
      | some value => simp [hd, lookup_cons, hbeq, ih, hk]

variable {d : List (String × α)}

theorem lookup_isSome_iff_mem {key : String} :
    (d.lookup key).isSome = true ↔ key ∈ d.map Prod.fst := by
  rw [lookup_isSome_iff, mem_map]
  exact exists_congr fun e => and_congr_right fun _ => beq_iff_eq.trans eq_comm

/-- Sorting a dictionary by its keys does not change what it holds. -/
theorem lookup_sortKeys (d : List (String × α)) (key : String) :
    (sortKeys d).lookup key = d.lookup key := by
  rw [sortKeys, lookup_filterMap]
  split
  · rfl
  next h =>
    rw [sortNames, mem_insertionSort] at h
    rw [← lookup_isSome_iff_mem, Bool.not_eq_true, Option.isSome_eq_false_iff,
      Option.isNone_iff_eq_none] at h
    exact h.symm

/-! ### One metric gate -/

variable {gate : RagMetricGate} {A : Arithmetic}

section MetricGate

def exactThreshold (gate : RagMetricGate) (baseline : ℚ) : ℚ :=
  match gate.direction with
  | .higherIsBetter => baseline - gate.maxRegression
  | .lowerIsBetter => baseline + gate.maxRegression

theorem boundFailures_eq_nil {actual : ℚ} :
    boundFailures A gate actual = [] ↔
      (∀ minimum ∈ gate.minimum, minimum ≤ actual) ∧ ∀ maximum ∈ gate.maximum, actual ≤ maximum := by
  rw [boundFailures, append_eq_nil_iff]
  refine and_congr ?_ ?_
  · cases gate.minimum <;> simp
  · cases gate.maximum <;> simp

theorem baselineFailures_eq_nil {actual : ℚ} {eligible : ℕ} (hrequired : gate.required = true)
    {baseline : Option RagMetricResult} :
    (baselineFailures A gate actual eligible baseline).1 = [] ↔
      ∀ result ∈ baseline, ∃ value, result.value = some value ∧ result.eligibleCases ≤ eligible ∧
        ¬ beyond gate actual (baselineThreshold A gate value) := by
  match baseline with
  | none => simp [baselineFailures]
  | some ⟨none, _⟩ => simp [baselineFailures, hrequired]
  | some ⟨some value, baselineEligible⟩ =>
    by_cases hdrop : eligible < baselineEligible
    · simp [baselineFailures, hrequired, hdrop]
    · simp [baselineFailures, hdrop, not_lt.mp hdrop]

/-- A required gate does not fail exactly when the metric has a value within its bounds, and
the baseline, if it has the metric at all, has a value over no more cases and within the
rounded threshold. -/
theorem evaluateMetricGate_not_failed (hrequired : gate.required = true)
    {current baseline : Option RagMetricResult} :
    (evaluateMetricGate A gate current baseline).status ≠ .failed ↔
      ∃ actual eligible, current = some ⟨some actual, eligible⟩ ∧
        (∀ minimum ∈ gate.minimum, minimum ≤ actual) ∧
        (∀ maximum ∈ gate.maximum, actual ≤ maximum) ∧
        ∀ result ∈ baseline, ∃ value, result.value = some value ∧
          result.eligibleCases ≤ eligible ∧ ¬ beyond gate actual (baselineThreshold A gate value) := by
  match current with
  | none => simp [evaluateMetricGate, hrequired]
  | some ⟨none, _⟩ => simp [evaluateMetricGate, hrequired]
  | some ⟨some actual, eligible⟩ =>
    have hstatus : (evaluateMetricGate A gate (some ⟨some actual, eligible⟩) baseline).status ≠
        .failed ↔ boundFailures A gate actual ++
          (baselineFailures A gate actual eligible baseline).1 = [] := by
      simp only [evaluateMetricGate]
      split
      next h => simpa using h
      next h =>
        rw [not_not] at h
        split <;> simpa using h
    rw [hstatus, append_eq_nil_iff, boundFailures_eq_nil, baselineFailures_eq_nil hrequired]
    constructor
    · rintro ⟨⟨hmin, hmax⟩, hbase⟩
      exact ⟨actual, eligible, rfl, hmin, hmax, hbase⟩
    · rintro ⟨actual', eligible', heq, hmin, hmax, hbase⟩
      obtain ⟨hvalue, rfl⟩ := RagMetricResult.mk.inj (Option.some.inj heq)
      cases hvalue
      exact ⟨⟨hmin, hmax⟩, hbase⟩

end MetricGate

/-! ### The observed cases -/

variable {observations : List RagEvalObservation}

theorem indexObservations_eq_ok {indexed : List String} {u : Unit}
    (h : indexObservations indexed observations = .ok u) :
    (observations.map caseId).Nodup ∧ ∀ o ∈ observations, o.caseId ∉ indexed := by
  induction observations generalizing indexed with
  | nil => simp
  | cons o rest ih =>
    simp only [indexObservations] at h
    split at h
    next => simp at h
    next hnew =>
      obtain ⟨hnodup, hfresh⟩ := ih h
      refine ⟨?_, ?_⟩
      · rw [map_cons, nodup_cons]
        refine ⟨fun hmem => ?_, hnodup⟩
        obtain ⟨o', ho', hid⟩ := mem_map.mp hmem
        exact hfresh o' ho' (by simp [hid])
      · intro o' ho'
        rcases mem_cons.mp ho' with rfl | ho'
        · exact hnew
        · exact fun hmem => hfresh o' ho' (mem_cons_of_mem _ hmem)

/-- The element with an id, where ids are unique. -/
theorem find_of_nodup {key : α → String} {xs : List α} (h : (xs.map key).Nodup) {x : α}
    (hx : x ∈ xs) : (xs.find? fun y => key y = key x) = some x := by
  cases hfind : xs.find? fun y => key y = key x with
  | none =>
    have hnone := find?_eq_none.mp hfind x hx
    simp at hnone
  | some y =>
    have hkey : key y = key x := by simpa using find?_some hfind
    rw [inj_on_of_nodup_map h (mem_of_find?_eq_some hfind) hx hkey]

variable {dataset : RagEvalDataset} {kValues : List ℕ}

theorem mem_scoredCases [Platform] (hids : (observations.map caseId).Nodup)
    {result : RagEvalCaseResult} :
    result ∈ scoredCases A dataset observations kValues ↔
      ∃ case ∈ dataset.cases, ∃ o ∈ observations, o.caseId = case.id ∧
        result = scoreCase A case o kValues := by
  simp only [scoredCases, mem_filterMap]
  constructor
  · rintro ⟨id, -, hscore⟩
    obtain ⟨case, hcase, hscore⟩ := Option.bind_eq_some_iff.mp hscore
    obtain ⟨o, ho, hscore⟩ := Option.bind_eq_some_iff.mp hscore
    have hid : case.id = id := by simpa using find?_some hcase
    have hoid : o.caseId = id := by simpa using find?_some ho
    exact ⟨case, mem_of_find?_eq_some hcase, o, mem_of_find?_eq_some ho,
      hoid.trans hid.symm, (Option.some.inj hscore).symm⟩
  · rintro ⟨case, hcase, o, ho, hid, rfl⟩
    refine ⟨case.id, ?_, ?_⟩
    · rw [sortNames, mem_insertionSort]
      exact mem_map.mpr ⟨o, ho, hid⟩
    · have hfindCase : (dataset.cases.find? fun c => c.id = case.id) = some case :=
        find_of_nodup dataset.unique hcase
      have hfind : (observations.find? fun o' => o'.caseId = case.id) = some o := by
        rw [← hid]
        exact find_of_nodup hids ho
      simp only [hfindCase, hfind]
      rfl

/-! ### Critical cases -/

variable {cases : List RagEvalCaseResult} {baseline : RagEvalReport}

theorem criticalGate_not_failed (h : (criticalGate cases (some baseline)).status ≠ .failed) :
    ∀ case ∈ cases, case.critical = true → case.passed = true := by
  intro case hcase hcritical
  have hnone : currentFailures cases = [] := by
    by_contra hsome
    simp [criticalGate, hsome] at h
  by_contra hpassed
  have hmem : case.caseId ∈ currentFailures cases := by
    rw [currentFailures, sortNames, mem_insertionSort]
    exact mem_map.mpr ⟨case, mem_filter.mpr ⟨hcase, by simpa [hcritical] using hpassed⟩, rfl⟩
  simp [hnone] at hmem

variable {policy : RagEvalGatePolicy} {metadata : Dict} {case : RagEvalCase}

theorem scoreCase_check_true [Platform] {o : RagEvalObservation}
    (h : (scoreCase A case o kValues).passed = true)
    {check : String} {value : Bool}
    (hvalue : (caseChecks A case o kValues).lookup check = some (some value)) : value = true := by
  have hall : (caseChecks A case o kValues).all (fun check => check.2 != some false) = true :=
    (Bool.and_eq_true _ _ ▸ h : _ ∧ _).1
  obtain ⟨before, after, hchecks, -⟩ := lookup_eq_some_iff.mp hvalue
  have hnot := all_eq_true.mp hall (check, some value) (by simp [hchecks])
  simpa using hnot

/-! ### Reports -/

/-- The case is one of those that the aggregate of the metric is computed over. -/
def contributes (kValues : List ℕ) (metric : String) (case : RagEvalCaseResult) : Bool :=
  match checkRates.find? fun rate => rate.2 = metric with
  | some rate => ((case.checks.lookup rate.1).join).isSome
  | none =>
    if metric = "gold_chunk_coverage" then decide (0 < case.goldChunkCount)
    else if metric = s!"rewrite_improvement_rate_at_{largestK kValues}" then
      ((case.metrics.lookup s!"rewrite_improved_at_{largestK kValues}").join).isSome
    else if metric ∈ ["latency_mean_ms", "latency_p50_ms", "latency_p95_ms",
        "provider_failure_rate", "case_pass_rate", "rewrite_coverage_rate"] ++
          providerErrorStages.map (·.value ++ "_provider_failure_rate") then true
    else ((case.metrics.lookup metric).join).isSome

/-- The metric of the gate is no worse than in the baseline, and computed over every case that
it was computed over then. -/
def MetricKept (kValues : List ℕ) (baseline report : RagEvalReport) (gate : RagMetricGate) : Prop :=
  ∃ current prior actual value, report.metrics.lookup gate.metric = some current ∧
    baseline.metrics.lookup gate.metric = some prior ∧ current.value = some actual ∧
    prior.value = some value ∧ prior.eligibleCases ≤ current.eligibleCases ∧
    (∀ case ∈ report.cases, ∀ previous ∈ baselineCase baseline case.caseId,
      contributes kValues gate.metric previous = true →
        contributes kValues gate.metric case = true) ∧
    (∀ minimum ∈ gate.minimum, minimum ≤ actual) ∧ ¬ beyond gate actual (exactThreshold gate value)

/-- No required metric and no check of a critical case is worse than in the baseline. -/
structure NoRegression (policy : RagEvalGatePolicy) (baseline report : RagEvalReport) : Prop where
  gates : ∀ gate ∈ policy.metricGates, gate.required = true →
    MetricKept policy.kValues baseline report gate
  checks : ∀ case ∈ report.cases, case.critical = true →
    ∀ previous ∈ baselineCase baseline case.caseId, ∀ check,
      previous.checks.lookup check = some (some true) → case.checks.lookup check = some (some true)

/-- The observation has what the earlier one had: a rewrite, the scores of the judge, and a
context for their relevance. -/
structure Covers (before now : RagEvalObservation) : Prop where
  rewrite : before.rewritePerformed = true → now.rewritePerformed = true
  judge : before.judge.isSome = true → now.judge.isSome = true
  context : before.outcome ≠ some .noKnowledge → before.retrievedChunks ≠ [] →
    now.outcome ≠ some .noKnowledge ∧ now.retrievedChunks ≠ []

/-- The evaluation that gave the baseline, and the one that is compared with it. -/
structure Comparable (A : Arithmetic) (observations₀ : List RagEvalObservation)
    (policy₀ : RagEvalGatePolicy) (baseline : RagEvalReport)
    (observations : List RagEvalObservation) (policy : RagEvalGatePolicy) : Prop where
  cutOffs : policy.kValues = policy₀.kValues
  guarded : policy.criticalNoRegression = true
  covers : ∀ o₀ ∈ observations₀, ∀ o ∈ observations, o.caseId = o₀.caseId → Covers o₀ o
  /-- The thresholds of the required gates have no more than twelve decimals. -/
  exact : ∀ gate ∈ policy.metricGates, gate.required = true →
    ∀ prior ∈ baseline.metrics.lookup gate.metric, ∀ value ∈ prior.value,
      baselineThreshold A gate value = exactThreshold gate value

/-- What a report over a dataset is made of. -/
structure Reports [Platform] (A : Arithmetic) (dataset : RagEvalDataset)
    (observations : List RagEvalObservation) (kValues : List ℕ)
    (report : RagEvalReport) : Prop where
  ids : (observations.map caseId).Nodup
  complete : ∀ case ∈ dataset.cases, ∃ o ∈ observations, o.caseId = case.id
  cases : report.cases = scoredCases A dataset observations kValues
  metrics : report.metrics = sortKeys (aggregateMetrics A report.cases observations kValues)

variable {fingerprint : RagEvalDataset → String} {report : RagEvalReport}

theorem evaluateRag_eq_ok [Platform] {bundle : Option String} {baseline : Option RagEvalReport}
    (h : evaluateRag A fingerprint dataset bundle observations policy baseline metadata =
      .ok report) :
    Reports A dataset observations policy.kValues report ∧
      (report.passed = true → ∀ gate ∈ evaluateGates A policy
        (aggregateMetrics A report.cases observations policy.kValues) report.cases baseline metadata,
          gate.status ≠ .failed) := by
  obtain ⟨_, -, h⟩ := bind_eq_ok.mp h
  obtain ⟨_, -, h⟩ := bind_eq_ok.mp h
  obtain ⟨_, hindex, h⟩ := bind_eq_ok.mp h
  obtain ⟨_, hcovered, h⟩ := bind_eq_ok.mp h
  obtain ⟨_, -, h⟩ := bind_eq_ok.mp h
  rw [pure_eq_ok] at h
  have hcases : report.cases = scoredCases A dataset observations policy.kValues := by
    rw [← h]
  refine ⟨⟨(indexObservations_eq_ok hindex).1, fun case hcase => ?_, hcases, ?_⟩, ?_⟩
  · by_contra hmissing
    have hid : case.id ∈ sortNames ((dataset.cases.map RagEvalCase.id).filter
        (· ∉ observations.map caseId)) := by
      rw [sortNames, mem_insertionSort, mem_filter]
      refine ⟨mem_map_of_mem hcase, ?_⟩
      simpa using hmissing
    have hnone := not_or.mp (failIf_eq_ok.mp hcovered)
    simp only [Bool.false_eq_true, not_false_eq_true, and_true, not_not] at hnone
    rw [hnone.2] at hid
    cases hid
  · rw [hcases, ← h]
  · intro hpassed gate hgate
    rw [← h] at hpassed
    rw [hcases] at hgate
    simpa using all_eq_true.mp hpassed gate (mem_append_right _ hgate)

variable {metrics : List (String × RagMetricResult)}

theorem mem_evaluateGates_metric (hgate : gate ∈ policy.metricGates) :
    evaluateMetricGate A gate (metrics.lookup gate.metric) (baseline.metrics.lookup gate.metric) ∈
      evaluateGates A policy metrics cases (some baseline) metadata := by
  simp only [evaluateGates, Option.map_some, Option.getD_some, mem_append, mem_map,
    mem_insertionSort]
  exact .inr ⟨gate, hgate, rfl⟩

theorem mem_evaluateGates_critical
    {baseline : Option RagEvalReport} (h : policy.criticalNoRegression = true) :
    criticalGate cases baseline ∈ evaluateGates A policy metrics cases baseline metadata := by
  simp only [evaluateGates, h, if_true, mem_append, mem_singleton]
  exact .inl (.inr trivial)

/-! ### Covered cases -/

/-- The same keys in the same order, with a value wherever there was one. -/
def Covered {α : Type} (d₀ d : List (String × Option α)) : Prop :=
  Forall₂ (fun e₀ e => e₀.1 = e.1 ∧ (e₀.2.isSome = true → e.2.isSome = true)) d₀ d

section Covered

variable {d₀ d : List (String × Option α)}

theorem Covered.keys (h : Covered d₀ d) : d₀.map Prod.fst = d.map Prod.fst := by
  induction h with
  | nil => rfl
  | cons he _ ih => rw [map_cons, map_cons, he.1, ih]

theorem Covered.isSome_lookup (h : Covered d₀ d) {key : String}
    (hkey : ((d₀.lookup key).join).isSome = true) : ((d.lookup key).join).isSome = true := by
  induction h with
  | nil => exact hkey
  | @cons e₀ e _ _ he _ ih =>
    obtain ⟨⟨k, value₀⟩, ⟨_, value⟩⟩ := e₀, e
    obtain ⟨rfl, hvalue⟩ := he
    by_cases hk : key = k
    · subst hk
      rw [lookup_cons_self] at hkey ⊢
      exact hvalue hkey
    · rw [lookup_cons, beq_false_of_ne hk] at hkey ⊢
      exact ih hkey

end Covered

section Scored

variable [Platform] {o₀ o : RagEvalObservation}

omit [Platform] in
theorem judgeScore_covered (h : Covers o₀ o) {metric : JudgeMetric}
    (hscore : (judgeScore o₀ metric).isSome = true) : (judgeScore o metric).isSome = true := by
  unfold judgeScore at hscore ⊢
  split at hscore
  · cases hscore
  next hcontext =>
    rw [Option.isSome_map] at hscore
    rw [if_neg ?_, Option.isSome_map]
    · exact h.judge hscore
    · rintro ⟨hmetric, hmissing⟩
      have hbefore := not_or.mp fun hnone => hcontext ⟨hmetric, hnone⟩
      obtain ⟨houtcome, hchunks⟩ := h.context hbefore.1 hbefore.2
      exact hmissing.elim houtcome hchunks

theorem caseChecks_covered (h : Covers o₀ o) :
    Covered (caseChecks A case o₀ kValues) (caseChecks A case o kValues) := by
  refine rel_append ?_ ?_
  · simp only [forall₂_cons, optionalEqual, Option.isSome_map, Option.isSome_some, imp_self,
      and_self, true_and, Forall₂.nil, and_true]
    split <;> simp
  · rw [forall₂_map_left_iff, forall₂_map_right_iff, forall₂_same]
    intro metric _
    simpa using judgeScore_covered h

theorem chunkMetrics_covered (ks : List ℕ) :
    Covered (ks.flatMap (chunkMetricsAt A case o₀)) (ks.flatMap (chunkMetricsAt A case o)) := by
  induction ks with
  | nil => exact .nil
  | cons k ks ih =>
    refine rel_append ?_ ih
    unfold chunkMetricsAt
    split <;> simp

theorem rewriteDelta_covered (h : Covers o₀ o) {k : ℕ}
    (hdelta : (rewriteDelta A case o₀ k).isSome = true) :
    (rewriteDelta A case o k).isSome = true := by
  unfold rewriteDelta at hdelta ⊢
  split at hdelta
  next hrewrite => rw [if_pos ⟨h.rewrite hrewrite.1, hrewrite.2⟩, Option.isSome_some]
  next => cases hdelta

theorem caseMetrics_covered (h : Covers o₀ o) :
    Covered (caseMetrics A case o₀ kValues) (caseMetrics A case o kValues) := by
  refine rel_append (rel_append (rel_append (rel_append (rel_append ?_ ?_) ?_) ?_) ?_) ?_
  · refine .cons ⟨rfl, fun hcoverage => ?_⟩ .nil
    split at hcoverage <;> simp_all
  · exact chunkMetrics_covered kValues
  · rw [forall₂_map_left_iff, forall₂_map_right_iff, forall₂_same]
    intro k _
    refine ⟨rfl, fun hdocument => ?_⟩
    unfold documentMetricAt at hdocument ⊢
    split at hdocument <;> simp_all
  · simpa using fun hdelta => rewriteDelta_covered h hdelta
  · rw [forall₂_map_left_iff, forall₂_map_right_iff, forall₂_same]
    intro metric _
    simpa using judgeScore_covered h
  · simp

/-- A case that a metric was computed over is still one of those. -/
theorem contributes_covered (h : Covers o₀ o) {metric : String}
    (hbefore : contributes kValues metric (scoreCase A case o₀ kValues) = true) :
    contributes kValues metric (scoreCase A case o kValues) = true := by
  have hchecks : Covered (caseChecks A case o₀ kValues) (caseChecks A case o kValues) :=
    caseChecks_covered h
  have hmetrics : Covered (caseMetrics A case o₀ kValues) (caseMetrics A case o kValues) :=
    caseMetrics_covered h
  unfold contributes at hbefore ⊢
  simp only [scoreCase, lookup_sortKeys] at hbefore ⊢
  split at hbefore
  · exact hchecks.isSome_lookup hbefore
  · split_ifs at hbefore ⊢
    · exact hbefore
    · exact hmetrics.isSome_lookup hbefore
    · rfl
    · exact hmetrics.isSome_lookup hbefore

end Scored

/-! ### Keys of the aggregates -/

theorem mem_setKey {key k : String} {value : α} :
    k ∈ (setKey d key value).map Prod.fst ↔ k ∈ d.map Prod.fst ∨ k = key := by
  unfold setKey
  split
  next hmem =>
    have hkeys : (d.map fun e => if e.1 = key then (key, value) else e).map Prod.fst =
        d.map Prod.fst := by
      rw [map_map]
      refine map_congr_left fun e _ => ?_
      simp only [Function.comp_apply]
      split
      next h => exact h.symm
      next => rfl
    rw [hkeys]
    exact (or_iff_left_of_imp fun h => h ▸ hmem).symm
  next => simp

theorem mem_writes {writes : List (String × α)} {k : String} :
    k ∈ (writes.foldl (fun d e => setKey d e.1 e.2) d).map Prod.fst ↔
      k ∈ d.map Prod.fst ∨ k ∈ writes.map Prod.fst := by
  induction writes generalizing d with
  | nil => simp
  | cons e writes ih => rw [foldl_cons, ih, mem_setKey, map_cons, mem_cons, or_assoc]

theorem mem_sortKeys {k : String} : k ∈ (sortKeys d).map Prod.fst ↔ k ∈ d.map Prod.fst := by
  rw [← lookup_isSome_iff_mem, lookup_sortKeys, lookup_isSome_iff_mem]

/-- The names of the aggregates are those of the metrics of the cases, and some that depend on
the cut-offs only. -/
theorem aggregateMetrics_keys (A : Arithmetic) (kValues : List ℕ) : ∃ rest : List String,
    ∀ cases observations k, k ∈ (aggregateMetrics A cases observations kValues).map Prod.fst ↔
      (∃ case ∈ cases, k ∈ case.metrics.map Prod.fst) ∧ k ≠ "duration_ms" ∧ k ≠ "provider_failed" ∨
        k ∈ rest := by
  refine ⟨(aggregateWrites A [] [] kValues).map Prod.fst, fun cases observations k => ?_⟩
  rw [aggregateMetrics, mem_writes]
  simp [aggregateWrites, sortNames, mem_insertionSort]

variable {observations₀ : List RagEvalObservation}

section Reports

variable [Platform]

theorem Reports.previous (h : Reports A dataset observations₀ kValues baseline)
    (hcase : case ∈ dataset.cases) {previous : RagEvalCaseResult}
    (hprevious : baselineCase baseline case.id = some previous) :
    ∃ o₀ ∈ observations₀, o₀.caseId = case.id ∧ previous = scoreCase A case o₀ kValues := by
  have hmem := mem_reverse.mp (mem_of_find?_eq_some hprevious)
  have hid : previous.caseId = case.id := by simpa using find?_some hprevious
  rw [h.cases, mem_scoredCases h.ids] at hmem
  obtain ⟨case', hcase', o₀, ho₀, ho₀id, rfl⟩ := hmem
  obtain rfl := inj_on_of_nodup_map dataset.unique hcase' hcase hid
  exact ⟨o₀, ho₀, ho₀id, rfl⟩

/-- At the same cut-offs the baseline has every metric that the report has. -/
theorem Reports.metric_mem (h₀ : Reports A dataset observations₀ kValues baseline)
    (h : Reports A dataset observations kValues report)
    (hcovers : ∀ o₀ ∈ observations₀, ∀ o ∈ observations, o.caseId = o₀.caseId → Covers o₀ o)
    {metric : String} (hmetric : metric ∈ report.metrics.map Prod.fst) :
    metric ∈ baseline.metrics.map Prod.fst := by
  obtain ⟨rest, hkeys⟩ := aggregateMetrics_keys A kValues
  rw [h.metrics, mem_sortKeys, hkeys] at hmetric
  rw [h₀.metrics, mem_sortKeys, hkeys]
  refine hmetric.imp_left fun ⟨⟨result, hresult, hname⟩, hother⟩ => ⟨?_, hother⟩
  rw [h.cases, mem_scoredCases h.ids] at hresult
  obtain ⟨case, hcase, o, ho, hid, rfl⟩ := hresult
  obtain ⟨o₀, ho₀, hid₀⟩ := h₀.complete case hcase
  refine ⟨scoreCase A case o₀ kValues, ?_, ?_⟩
  · rw [h₀.cases, mem_scoredCases h₀.ids]
    exact ⟨case, hcase, o₀, ho₀, hid₀, rfl⟩
  · have hcovered : Covered (caseMetrics A case o₀ kValues) (caseMetrics A case o kValues) :=
      caseMetrics_covered (hcovers o₀ ho₀ o ho (hid.trans hid₀.symm))
    simp only [scoreCase, mem_sortKeys] at hname ⊢
    rwa [hcovered.keys]

end Reports

/-! ### Passed reports -/

section Passed

variable [Platform] {policy₀ : RagEvalGatePolicy}

section

variable {result previous : RagEvalCaseResult}
  (h : Reports A dataset observations policy.kValues report)
  (h₀ : Reports A dataset observations₀ policy₀.kValues baseline)
  (hsame : Comparable A observations₀ policy₀ baseline observations policy)

include h h₀ hsame

theorem case_of_report (hresult : result ∈ report.cases)
    (hprevious : previous ∈ baselineCase baseline result.caseId) :
    ∃ case o₀ o, Covers o₀ o ∧ result = scoreCase A case o policy.kValues ∧
      previous = scoreCase A case o₀ policy.kValues := by
  rw [h.cases, mem_scoredCases h.ids] at hresult
  obtain ⟨case, hcase, o, ho, hid, rfl⟩ := hresult
  rw [← hsame.cutOffs] at h₀
  obtain ⟨o₀, ho₀, hid₀, rfl⟩ := h₀.previous hcase hprevious
  exact ⟨case, o₀, o, hsame.covers o₀ ho₀ o ho (hid.trans hid₀.symm), rfl, rfl⟩

/-- A required gate that does not fail has compared its metric with that of the baseline. -/
theorem metric_kept (hgate : gate ∈ policy.metricGates) (hrequired : gate.required = true)
    (hpassed : (evaluateMetricGate A gate (report.metrics.lookup gate.metric)
      (baseline.metrics.lookup gate.metric)).status ≠ .failed) :
    MetricKept policy.kValues baseline report gate := by
  obtain ⟨actual, eligible, hcurrent, hmin, -, hbase⟩ :=
    (evaluateMetricGate_not_failed hrequired).mp hpassed
  have hprior : (baseline.metrics.lookup gate.metric).isSome = true := by
    rw [lookup_isSome_iff_mem]
    refine Reports.metric_mem (hsame.cutOffs ▸ h₀) h hsame.covers ?_
    rw [← lookup_isSome_iff_mem, hcurrent, Option.isSome_some]
  obtain ⟨prior, hprior⟩ := Option.isSome_iff_exists.mp hprior
  obtain ⟨value, hvalue, hcount, hthreshold⟩ := hbase prior hprior
  rw [hsame.exact gate hgate hrequired prior hprior value hvalue] at hthreshold
  refine ⟨_, prior, actual, value, hcurrent, hprior, rfl, hvalue, hcount, ?_, hmin, hthreshold⟩
  intro result hresult previous hprevious hbefore
  obtain ⟨case, o₀, o, hcovers, rfl, rfl⟩ := case_of_report h h₀ hsame hresult hprevious
  exact contributes_covered hcovers hbefore

/-- A check of a critical case that was true applies again, and no check that applies is false. -/
theorem check_kept (hpassed : (criticalGate report.cases (some baseline)).status ≠ .failed)
    (hresult : result ∈ report.cases)
    (hcritical : result.critical = true)
    (hprevious : previous ∈ baselineCase baseline result.caseId)
    {check : String} (htrue : previous.checks.lookup check = some (some true)) :
    result.checks.lookup check = some (some true) := by
  have hsafe := criticalGate_not_failed hpassed result hresult hcritical
  obtain ⟨case, o₀, o, hcovers, rfl, rfl⟩ := case_of_report h h₀ hsame hresult hprevious
  simp only [scoreCase, lookup_sortKeys] at htrue ⊢
  have hcovered :
      Covered (caseChecks A case o₀ policy.kValues) (caseChecks A case o policy.kValues) :=
    caseChecks_covered hcovers
  have happlies := hcovered.isSome_lookup (by rw [htrue]; rfl)
  obtain ⟨value, hvalue⟩ := Option.isSome_iff_exists.mp happlies
  rw [Option.join_eq_some_iff] at hvalue
  rw [hvalue, scoreCase_check_true hsafe hvalue]

end

/-- A report that passes over a baseline of the same dataset means no regression, if the two
evaluations are comparable. -/
theorem passed_no_regression (bundle₀ bundle : Option String) (baseline₀ : Option RagEvalReport)
    (metadata₀ metadata : Dict)
    (hbaseline :
      evaluateRag A fingerprint dataset bundle₀ observations₀ policy₀ baseline₀ metadata₀ =
      .ok baseline)
    (hreport :
      evaluateRag A fingerprint dataset bundle observations policy (some baseline) metadata =
      .ok report)
    (hsame : Comparable A observations₀ policy₀ baseline observations policy)
    (hpassed : report.passed = true) : NoRegression policy baseline report := by
  obtain ⟨h₀, -⟩ := evaluateRag_eq_ok hbaseline
  obtain ⟨h, hgates⟩ := evaluateRag_eq_ok hreport
  have hgates := hgates hpassed
  refine ⟨fun gate hgate hrequired => ?_,
    fun result hresult hcritical previous hprevious check htrue =>
    check_kept h h₀ hsame (hgates _ (mem_evaluateGates_critical hsame.guarded)) hresult
      hcritical hprevious htrue⟩
  have hnow := hgates _ (mem_evaluateGates_metric hgate)
  rw [← lookup_sortKeys, ← h.metrics] at hnow
  exact metric_kept h h₀ hsame hgate hrequired hnow

end Passed

/-! ### A baseline with other cut-offs -/

section CutOffs

open PlainPlatform

def documentDataset : RagEvalDataset where
  name := "documents"
  cases :=
    [{ id := "case-1", question := "q", expected := { outcome := some .answerable },
       goldDocuments := [⟨some "doc-1", none⟩] }]
  nonempty := by decide
  unique := by decide

/-- The gold document is retrieved, or another one is. -/
def retrieves (documentId : String) : RagEvalObservation :=
  { caseId := "case-1", outcome := some .answerable, durationMs := 1,
    retrievedChunks :=
      [{ rank := 1, chunkId := some "c-1", documentId := some documentId, rank_pos := by decide }] }

def documentRecallGate (k : ℕ) (hk : 0 < k) : RagEvalGatePolicy where
  kValues := [k]
  metricGates := [{ metric := s!"document_recall_at_{k}" }]
  kValues_nonempty := by simp
  kValues_pos := by simpa using hk
  kValues_sorted := by simp
  unique := by simp

def evaluateDocuments (k : ℕ) (hk : 0 < k) (documentId : String) (baseline : Option RagEvalReport) :
    Except RagEvaluationError RagEvalReport :=
  evaluateRag exactArithmetic (fun _ => "sha256") documentDataset none [retrieves documentId]
    (documentRecallGate k hk) baseline []

theorem exists_of_bind {ε β γ : Type} {x : Except ε α} {f : α → Except ε β} {g : α → β → γ}
    {v : γ} (h : (x.bind fun a => (f a).map (g a)).toOption = some v) :
    ∃ a b, x = .ok a ∧ f a = .ok b ∧ g a b = v := by
  cases hx : x with
  | error e => simp [hx, Except.bind, Except.toOption] at h
  | ok a =>
    cases hf : f a with
    | error e => simp [hx, hf, Except.bind, Except.map, Except.toOption] at h
    | ok b => exact ⟨a, b, rfl, hf, by simpa [hx, hf, Except.bind, Except.map, Except.toOption] using h⟩

theorem passed_no_regression_same_cut_off :
    ∃ baseline report, evaluateDocuments 5 (by decide) "doc-1" none = .ok baseline ∧
      evaluateDocuments 5 (by decide) "doc-1" (some baseline) = .ok report ∧
      report.passed = true ∧ NoRegression (documentRecallGate 5 (by decide)) baseline report := by
  have hrun : ((evaluateDocuments 5 (by decide) "doc-1" none).bind fun baseline =>
      (evaluateDocuments 5 (by decide) "doc-1" (some baseline)).map fun report =>
        (report.passed, baseline.metrics.lookup "document_recall_at_5")).toOption =
      some (true, some ⟨some 1, 1⟩) := by decide +kernel
  obtain ⟨baseline, report, hbaseline, hreport, hvalues⟩ := exists_of_bind hrun
  obtain ⟨hpassed, hvalue⟩ := Prod.mk.inj hvalues
  have hsame : Comparable exactArithmetic [retrieves "doc-1"] (documentRecallGate 5 (by decide))
      baseline [retrieves "doc-1"] (documentRecallGate 5 (by decide)) := by
    refine ⟨rfl, rfl, ?_, ?_⟩
    · intro o₀ ho₀ o ho _
      obtain rfl := mem_singleton.mp ho₀
      obtain rfl := mem_singleton.mp ho
      exact ⟨id, id, fun houtcome hchunks => ⟨houtcome, hchunks⟩⟩
    · intro gate hgate _ prior hprior value hprior'
      obtain rfl := mem_singleton.mp hgate
      cases hvalue.symm.trans hprior
      cases hprior'
      decide +kernel
  exact ⟨baseline, report, hbaseline, hreport, hpassed,
    passed_no_regression _ _ _ _ _ hbaseline hreport hsame hpassed⟩

/-- The recall fell from one to zero, and the report passes: the baseline was evaluated at
another cut-off, so the required gate has nothing to compare with. -/
theorem lost_document_passes :
    ∃ baseline report, evaluateDocuments 10 (by decide) "doc-1" none = .ok baseline ∧
      evaluateDocuments 5 (by decide) "doc-2" (some baseline) = .ok report ∧
      report.passed = true ∧
      baseline.metrics.lookup "document_recall_at_10" = some ⟨some 1, 1⟩ ∧
      report.metrics.lookup "document_recall_at_5" = some ⟨some 0, 1⟩ ∧
      ¬ NoRegression (documentRecallGate 5 (by decide)) baseline report := by
  have hrun : ((evaluateDocuments 10 (by decide) "doc-1" none).bind fun baseline =>
      (evaluateDocuments 5 (by decide) "doc-2" (some baseline)).map fun report =>
        (report.passed, baseline.metrics.lookup "document_recall_at_10",
          report.metrics.lookup "document_recall_at_5",
          baseline.metrics.lookup "document_recall_at_5")).toOption =
      some (true, some ⟨some 1, 1⟩, some ⟨some 0, 1⟩, none) := by decide +kernel
  obtain ⟨baseline, report, hbaseline, hreport, hvalues⟩ := exists_of_bind hrun
  obtain ⟨hpassed, hvalues⟩ := Prod.mk.inj hvalues
  obtain ⟨hbefore, hvalues⟩ := Prod.mk.inj hvalues
  obtain ⟨hnow, habsent⟩ := Prod.mk.inj hvalues
  refine ⟨baseline, report, hbaseline, hreport, hpassed, hbefore, hnow, fun h => ?_⟩
  have hgate : ({ metric := "document_recall_at_5" } : RagMetricGate) ∈
      (documentRecallGate 5 (by decide)).metricGates := by decide +kernel
  obtain ⟨_, prior, _, _, -, hprior, -⟩ := h.gates _ hgate rfl
  rw [habsent] at hprior
  simp at hprior

end CutOffs

end SuperMew.Evaluation
