import Mathlib.Data.Finset.Dedup
import SuperMew.Library.Table
import SuperMew.Evaluation.Contract

/-! The store of evaluation jobs: a job row carries its case rows, and every operation
of the repository is one transaction on the store. -/

namespace SuperMew.Evaluation

open Relational

inductive RagEvaluationJobStatus where
  | queued
  | running
  | cancelling
  | cancelled
  | succeeded
  | failed
  deriving DecidableEq, Repr

namespace RagEvaluationJobStatus

def Terminal (status : RagEvaluationJobStatus) : Prop :=
  status = cancelled ∨ status = succeeded ∨ status = failed

def Owned (status : RagEvaluationJobStatus) : Prop := status = running ∨ status = cancelling

instance (status : RagEvaluationJobStatus) : Decidable status.Terminal :=
  inferInstanceAs (Decidable (_ ∨ _))

instance (status : RagEvaluationJobStatus) : Decidable status.Owned :=
  inferInstanceAs (Decidable (_ ∨ _))

end RagEvaluationJobStatus

inductive RagEvaluationCaseStatus where
  | queued
  | running
  | completed
  | failed
  | cancelled
  deriving DecidableEq, Repr

structure CaseRow where
  caseId : String
  position : ℕ
  status : RagEvaluationCaseStatus := .queued
  question : String
  generatedAnswer : Option String := none
  judgeReason : Option String := none
  observation : Option RagEvalObservation := none
  metrics : List (String × Option ℚ) := []
  checks : List (String × Option Bool) := []
  providerErrorCode : Option String := none
  providerErrorStage : Option String := none
  durationMs : Option ℕ := none
  errorCode : Option String := none
  errorDetailRedacted : Option String := none
  startedAt : Option Time := none
  finishedAt : Option Time := none
  createdAt : Time
  updatedAt : Time

structure JobRow where
  datasetId : ℕ
  baselineJobId : Option ℕ
  status : RagEvaluationJobStatus := .queued
  completedCases : ℕ := 0
  totalCases : ℕ
  gatePolicy : RagEvalGatePolicy
  ownerWorkerId : Option String := none
  leaseExpiresAt : Option Time := none
  heartbeatAt : Option Time := none
  fencingToken : ℕ := 0
  attempts : ℕ := 0
  maxAttempts : ℕ
  errorCode : Option String := none
  errorDetailRedacted : Option String := none
  report : Option RagEvalReport := none
  createdBy : String
  startedAt : Option Time := none
  finishedAt : Option Time := none
  createdAt : Time
  updatedAt : Time
  cases : List CaseRow

structure DatasetRow where
  dataset : RagEvalDataset
  fingerprint : String
  createdBy : String
  createdAt : Time

structure Store where
  users : List String
  datasets : Table ℕ DatasetRow := ∅
  nextDataset : ℕ := 0
  jobs : Table ℕ JobRow := ∅
  nextJob : ℕ := 0

namespace Errors

def userInvalid : AppError := ⟨.authenticationRequired, "用户不存在或已失效", 401, false, []⟩
def datasetMissing : AppError := ⟨.notFound, "RAG 评估数据集不存在", 404, false, []⟩
def baselineMissing : AppError := ⟨.notFound, "Baseline Evaluation Job 不存在", 404, false, []⟩
def baselineInvalid : AppError :=
  ⟨.conflict, "Baseline 必须是同一数据集的成功 Evaluation Job", 409, false, []⟩
def baselineUnfinished : AppError :=
  ⟨.conflict, "Baseline Evaluation Job 尚未成功完成", 409, false, []⟩
def jobMissing : AppError := ⟨.notFound, "RAG Evaluation Job 不存在", 404, false, []⟩
def notOwner : AppError := ⟨.conflict, "当前 worker 不再拥有该 RAG Evaluation Job", 409, false, []⟩
def caseMissing : AppError := ⟨.notFound, "RAG Evaluation Case 不存在", 404, false, []⟩
def caseNotRunning : AppError := ⟨.conflict, "RAG Evaluation Case 当前不可完成", 409, false, []⟩
def casesIncomplete : AppError :=
  ⟨.conflict, "RAG Evaluation Job 尚未完成全部 Case", 409, false, []⟩
def reportIncomplete : AppError :=
  ⟨.conflict, "RAG Evaluation Report 未覆盖全部 Case", 409, false, []⟩
def observationMissing : AppError :=
  ⟨.conflict, "RAG Evaluation Job 仍有 Case 缺少 Observation", 409, false, []⟩

end Errors

/-! ## Datasets and new jobs -/

def createDataset (username : String) (dataset : RagEvalDataset) (fingerprint : String)
    (now : Time) (s : Store) : Except Fault (ℕ × Store) := do
  raiseIf (username ∉ s.users) Errors.userInvalid
  match s.datasets.find fun _ row => row.fingerprint == fingerprint with
  | some (id, _) => pure (id, s)
  | none =>
    let row : DatasetRow := ⟨dataset, fingerprint, username, now⟩
    pure (s.nextDataset, { s with
      datasets := s.datasets.put s.nextDataset row, nextDataset := s.nextDataset + 1 })

def newCases (dataset : RagEvalDataset) (now : Time) : List CaseRow :=
  dataset.cases.mapIdx fun i case =>
    { caseId := case.id, position := i + 1, question := case.question, createdAt := now,
      updatedAt := now }

variable (jobId : ℕ) (caseId : String) (reports : ℕ → Option RagEvalReport)
  (report : Option RagEvalReport) (now : Time) (s : Store) (job : JobRow)

def checkBaseline (datasetId : ℕ) : Option ℕ → Except Fault Unit
  | none => pure ()
  | some id => do
      let baseline ← orRaise (s.jobs.get id) Errors.baselineMissing
      raiseIf (baseline.datasetId ≠ datasetId ∨ baseline.status ≠ .succeeded ∨
        baseline.report.isNone) Errors.baselineInvalid

def createJob (username : String) (datasetId : ℕ) (gatePolicy : RagEvalGatePolicy)
    (baselineJobId : Option ℕ) (maxAttempts : ℕ) (now : Time) (s : Store) :
    Except Fault (ℕ × Store) := do
  raiseIf (username ∉ s.users) Errors.userInvalid
  let dataset ← orRaise (s.datasets.get datasetId) Errors.datasetMissing
  checkBaseline s datasetId baselineJobId
  let job : JobRow :=
    { datasetId, baselineJobId, gatePolicy, totalCases := dataset.dataset.cases.length,
      maxAttempts := max 1 maxAttempts, createdBy := username, createdAt := now,
      updatedAt := now, cases := newCases dataset.dataset now }
  pure (s.nextJob, { s with jobs := s.jobs.put s.nextJob job, nextJob := s.nextJob + 1 })

/-! ## Rows -/

namespace CaseRow

/-- An `UPDATE … WHERE status IN statuses`. -/
def closeIf (statuses : List RagEvaluationCaseStatus) (status : RagEvaluationCaseStatus)
    (errorCode : Option String) (now : Time) (case : CaseRow) : CaseRow :=
  if case.status ∈ statuses then
    { case with
      status, errorCode := errorCode <|> case.errorCode, finishedAt := some now, updatedAt := now }
  else case

/-- `case.metrics_json = scored.metrics; case.checks_json = scored.checks`, if the report
scores the case. The dictionary of scored cases keeps the last of equal ids. -/
def score (report : RagEvalReport) (now : Time) (case : CaseRow) : CaseRow :=
  match report.cases.reverse.find? fun scored => scored.caseId == case.caseId with
  | some scored =>
    { case with metrics := scored.metrics, checks := scored.checks, updatedAt := now }
  | none => case

/-- `if report is not None`: score the case. -/
def scoreIf (case : CaseRow) : CaseRow :=
  match report with
  | some r => score r now case
  | none => case

def start (case : CaseRow) : CaseRow :=
  { case with status := .running, startedAt := some now, updatedAt := now }

def requeue (case : CaseRow) : CaseRow :=
  if case.status = .running then
    { case with status := .queued, startedAt := none, updatedAt := now }
  else case

/-- What the runtime hands to `complete_case`. -/
structure Execution where
  observation : RagEvalObservation
  generatedAnswer : String
  judgeReason : Option String
  durationMs : ℤ

def complete (execution : Execution) (now : Time) (case : CaseRow) : CaseRow :=
  { case with
    status := .completed
    generatedAnswer := some execution.generatedAnswer
    judgeReason := execution.judgeReason
    observation := some execution.observation
    providerErrorCode := execution.observation.providerErrorCode
    providerErrorStage := execution.observation.providerErrorStage.map (·.value)
    durationMs := some execution.durationMs.toNat
    finishedAt := some now
    updatedAt := now }

def fail (errorCode errorDetail : String) (now : Time) (case : CaseRow) : CaseRow :=
  { case with
    status := .failed
    errorCode := some errorCode
    errorDetailRedacted := some errorDetail
    finishedAt := some now
    updatedAt := now }

end CaseRow

def updateCase (caseId : String) (f : CaseRow → CaseRow) : List CaseRow → List CaseRow
  | [] => []
  | case :: rest => if case.caseId = caseId then f case :: rest else case :: updateCase caseId f rest

def findCase (cases : List CaseRow) : Option CaseRow :=
  cases.find? fun case => case.caseId = caseId

namespace JobRow

def cancelLocked : JobRow :=
  { job with
    status := .cancelled
    ownerWorkerId := none
    leaseExpiresAt := none
    finishedAt := some now
    updatedAt := now
    cases := job.cases.map (CaseRow.closeIf [.queued, .running] .cancelled none now) }

/-- The case of an exhausted job in `reconcile_expired`; `report` is the partial report,
if one could be built. -/
def orphan : JobRow :=
  let scored := job.cases.map (CaseRow.scoreIf report now)
  { job with
    status := .failed
    errorCode := some "RAG_EVALUATION_ORPHANED"
    errorDetailRedacted := none
    report := report <|> job.report
    finishedAt := some now
    ownerWorkerId := none
    leaseExpiresAt := none
    updatedAt := now
    cases := scored.map
      (CaseRow.closeIf [.queued, .running] .failed (some "RAG_EVALUATION_ORPHANED") now) }

def requeue (now : Time) (job : JobRow) : JobRow :=
  { job with
    status := .queued
    ownerWorkerId := none
    leaseExpiresAt := none
    heartbeatAt := none
    updatedAt := now
    cases := job.cases.map (CaseRow.requeue now) }

/-- The filter of `reconcile_expired`. -/
def Expired : Prop :=
  job.status.Owned ∧ ∃ expiry ∈ job.leaseExpiresAt, expiry ≤ now

instance (now : Time) (job : JobRow) : Decidable (job.Expired now) :=
  inferInstanceAs (Decidable (_ ∧ _))

def recover : JobRow :=
  if job.status = .cancelling then job.cancelLocked now
  else if job.maxAttempts ≤ job.attempts then job.orphan report now
  else job.requeue now

/-- `max(10, lease_seconds)` seconds from now. -/
def leaseUntil (leaseSeconds : ℤ) : Time := now + secondsSpan (max 10 leaseSeconds)

def claim (workerId : String) (leaseSeconds : ℤ) (now : Time) (job : JobRow) : JobRow :=
  { job with
    status := .running
    ownerWorkerId := some workerId
    leaseExpiresAt := some (leaseUntil now leaseSeconds)
    heartbeatAt := some now
    fencingToken := job.fencingToken + 1
    attempts := job.attempts + 1
    startedAt := job.startedAt <|> some now
    updatedAt := now }

def extend (leaseSeconds : ℤ) (now : Time) (job : JobRow) : JobRow :=
  { job with
    heartbeatAt := some now
    leaseExpiresAt := some (leaseUntil now leaseSeconds)
    updatedAt := now }

def nextCase : Option CaseRow :=
  firstBy CaseRow.position (job.cases.filter fun case => case.status = .queued)

def startCase : JobRow :=
  { job with cases := updateCase caseId (CaseRow.start now) job.cases }

def completeCase (execution : CaseRow.Execution) (now : Time) (job : JobRow) :
    JobRow :=
  { job with
    cases := updateCase caseId (CaseRow.complete execution now) job.cases
    completedCases := job.completedCases + 1
    updatedAt := now }

/-- What `fail_job` is called with. -/
structure Failure where
  errorCode : String
  errorDetailRedacted : String
  caseId : Option String
  report : Option RagEvalReport

def fail (failure : Failure) (now : Time) (job : JobRow) : JobRow :=
  let scored := job.cases.map (CaseRow.scoreIf failure.report now)
  let failed := match failure.caseId with
    | some caseId =>
      updateCase caseId (CaseRow.fail failure.errorCode failure.errorDetailRedacted now) scored
    | none => scored
  { job with
    status := .failed
    errorCode := some failure.errorCode
    errorDetailRedacted := some failure.errorDetailRedacted
    report := failure.report <|> job.report
    finishedAt := some now
    ownerWorkerId := none
    leaseExpiresAt := none
    updatedAt := now
    cases := failed.map (CaseRow.closeIf [.queued] .cancelled none now) }

/-- `set(report_cases) == {case.case_id for case in case_rows}`. -/
def CoveredBy (report : RagEvalReport) : Prop :=
  (report.cases.map RagEvalCaseResult.caseId).toFinset = (job.cases.map CaseRow.caseId).toFinset

instance (job : JobRow) (report : RagEvalReport) : Decidable (job.CoveredBy report) :=
  inferInstanceAs (Decidable (_ = _))

def succeed (report : RagEvalReport) (now : Time) (job : JobRow) : JobRow :=
  { job with
    status := .succeeded
    report := some report
    errorCode := none
    errorDetailRedacted := none
    finishedAt := some now
    ownerWorkerId := none
    leaseExpiresAt := none
    updatedAt := now
    cases := job.cases.map (CaseRow.score report now) }

/-- The negation of the test of `_assert_owner`. -/
def OwnedBy (workerId : String) (fencingToken : ℕ) : Prop :=
  job.ownerWorkerId = some workerId ∧ job.fencingToken = fencingToken ∧ job.status.Owned

instance (job : JobRow) (workerId : String) (fencingToken : ℕ) :
    Decidable (job.OwnedBy workerId fencingToken) :=
  inferInstanceAs (Decidable (_ ∧ _))

end JobRow

/-! ## Transactions -/

namespace Store

def setJob (id : ℕ) (job : JobRow) : Store := { s with jobs := s.jobs.put id job }

end Store

def cancel : Except Fault (RagEvaluationJobStatus × Store) := do
  let job ← orRaise (s.jobs.get jobId) Errors.jobMissing
  let next := match job.status with
    | .queued => job.cancelLocked now
    | .running => { job with status := .cancelling, updatedAt := now }
    | _ => job
  pure (next.status, s.setJob jobId next)

/-- One job of the loop of `reconcile_expired`. -/
def recoverJob (jobId : ℕ) : Store :=
  match s.jobs.get jobId with
  | some job => s.setJob jobId (job.recover (reports jobId) now)
  | none => s

/-- `reports` are the partial reports of the exhausted jobs, where one could be built. -/
def reconcileExpired :
    List ℕ × Store :=
  let expired := (s.jobs.select fun _ job => decide (job.Expired now)).map Prod.fst
  (expired, expired.foldl (recoverJob reports now) s)

/-- The second transaction of `claim_next`. Rows that another transaction holds, `locked`,
are skipped. -/
def claimQueued (workerId : String) (leaseSeconds : ℤ) (locked : List ℕ) (now : Time)
    (s : Store) : Option (ℕ × JobRow) × Store :=
  let ready := s.jobs.select fun id job => decide (job.status = .queued ∧ id ∉ locked)
  match firstBy (fun e => e.2.createdAt) ready with
  | none => (none, s)
  | some (id, job) =>
    let claimed := job.claim workerId leaseSeconds now
    (some (id, claimed), s.setJob id claimed)

/-- A write that carries the worker and the token of a claim. -/
inductive Write where
  | heartbeat (leaseSeconds : ℤ)
  | claimCase
  | completeCase (caseId : String) (execution : CaseRow.Execution)
  | failJob (failure : JobRow.Failure)
  | finishJob (report : RagEvalReport)
  | finishCancelled

/-- What a write does to the row of its owner: the case that `claim_case` returns, and
the new row. -/
def Write.onRow : Write → Except Fault (Option String × JobRow)
  | .heartbeat leaseSeconds => pure (none, job.extend leaseSeconds now)
  | .claimCase =>
    if job.status = .cancelling then pure (none, job)
    else match job.nextCase with
      | none => pure (none, job)
      | some case => pure (some case.caseId, job.startCase case.caseId now)
  | .completeCase caseId execution => do
      let case ← orRaise (findCase caseId job.cases) Errors.caseMissing
      if case.status = .completed then pure (none, job)
      else do
        raiseIf (case.status ≠ .running) Errors.caseNotRunning
        pure (none, job.completeCase caseId execution now)
  | .failJob failure => pure (none, job.fail failure now)
  | .finishJob report => do
      raiseIf (job.completedCases ≠ job.totalCases) Errors.casesIncomplete
      raiseIf (¬ job.CoveredBy report) Errors.reportIncomplete
      pure (none, job.succeed report now)
  | .finishCancelled => pure (none, job.cancelLocked now)

/-- `heartbeat`, `claim_case`, `complete_case`, `fail_job`, `finish_job` and
`finish_cancelled`: each locks the row and asserts the ownership first. -/
def Write.perform (workerId : String) (fencingToken : ℕ) (now : Time) (write : Write)
    (s : Store) : Except Fault (Option String × Store) := do
  let job ← orRaise (s.jobs.get jobId) Errors.jobMissing
  raiseIf (¬ job.OwnedBy workerId fencingToken) Errors.notOwner
  let (claimed, next) ← write.onRow now job
  pure (claimed, s.setJob jobId next)

/-! ## Reads -/

def cancelRequested : Bool :=
  match s.jobs.get jobId with
  | some job => decide (job.status = .cancelling ∨ job.status = .cancelled)
  | none => false

def observations : Except Fault (List RagEvalObservation) := do
  let job ← orRaise (s.jobs.get jobId) Errors.jobMissing
  let observed := job.cases.filterMap CaseRow.observation
  raiseIf (observed.length ≠ job.cases.length) Errors.observationMissing
  pure observed

def baselineReport : Option ℕ → Except Fault (Option RagEvalReport)
  | none => pure none
  | some id => do
      let job ← orRaise (s.jobs.get id) Errors.jobMissing
      raiseIf (job.status ≠ .succeeded ∨ job.report.isNone) Errors.baselineUnfinished
      pure job.report

end SuperMew.Evaluation
