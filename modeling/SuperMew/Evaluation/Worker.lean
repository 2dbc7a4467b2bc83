import SuperMew.Library.Run
import SuperMew.Evaluation.Gates
import SuperMew.Evaluation.Ledger

/-! Evaluation workers over the job store. A worker is at some point of `run_once`; a step
of the system is one transaction or one read of one party, an exception that a worker
sees, or the end of a worker's process. -/

namespace SuperMew.Evaluation

open Relational

/-- Where a worker with a claimed job is. `active` is `_active_case_id`. -/
inductive Stage where
  /-- The top of the loop, before `cancel_requested`. -/
  | looping
  /-- Before `claim_case`. -/
  | claiming
  /-- In `execute_case`, before `complete_case`. -/
  | executing (caseId : String)
  /-- After the loop, before `cancel_requested`. -/
  | draining
  /-- Before the observations and the baseline are read. -/
  | reporting
  /-- Before `finish_job`. -/
  | finishing (report : RagEvalReport)
  /-- Before `finish_cancelled`, in the exception handler or not. -/
  | cancelling (handler : Bool) (active : Option String)
  /-- In the exception handler, before `cancel_requested`. -/
  | handling (active : Option String)
  /-- Before `fail_job`, with the partial report if it has been built. -/
  | failing (active : Option String) (report : Option RagEvalReport)

namespace Stage

def active : Stage → Option String
  | executing caseId => some caseId
  | cancelling _ active => active
  | handling active => active
  | failing active _ => active
  | _ => none

/-- After an exception: the handler, or nothing when it leaves `run_once`. -/
def raised : Stage → Option Stage
  | cancelling true _ => none
  | handling _ => none
  | failing _ _ => none
  | stage => some (handling stage.active)

def polled (requested : Bool) : Stage → Stage
  | looping => if requested then cancelling false none else claiming
  | draining => if requested then cancelling false none else reporting
  | handling active => if requested then cancelling true active else failing active none
  | stage => stage

end Stage

/-- What the outside gives to the next write of a worker. -/
inductive Payload where
  | claimCase
  | executed (execution : CaseRow.Execution)
  | finish
  | failed (errorCode errorDetail : String)
  | finishCancelled

namespace Stage

def write : Stage → Payload → Option Write
  | claiming, .claimCase => some .claimCase
  | executing caseId, .executed execution => some (.completeCase caseId execution)
  | finishing report, .finish => some (.finishJob report)
  | failing active report, .failed errorCode errorDetail =>
    some (.failJob ⟨errorCode, errorDetail, active, report⟩)
  | cancelling _ _, .finishCancelled => some .finishCancelled
  | _, _ => none

/-- After a write that returned; `claimed` is the case that `claim_case` returned. -/
def returned (claimed : Option String) : Stage → Option Stage
  | claiming => some (match claimed with
      | some caseId => executing caseId
      | none => draining)
  | executing _ => some looping
  | _ => none

end Stage

structure Claim where
  jobId : ℕ
  fencingToken : ℕ
  baselineJobId : Option ℕ

inductive WorkerState where
  | idle
  /-- In `claim_next`, after `reconcile_expired`. -/
  | polling
  | holding (claim : Claim) (stage : Stage)

namespace WorkerState

def onward (claim : Claim) : Option Stage → WorkerState
  | some stage => holding claim stage
  | none => idle

end WorkerState

structure Cluster where
  store : Store
  workers : ℕ → WorkerState

/-- The names of the workers, which need not differ, the hash of a dataset, and the library
functions of the processes. -/
structure Deployment where
  workerId : ℕ → String
  fingerprint : RagEvalDataset → String
  platform : Platform
  arithmetic : Arithmetic

section Reports

variable (env : Deployment) (jobId : ℕ) (metadata : Dict) (s : Store)

/-- `observations`, `baseline_report` and `evaluate_rag`, where none of them raises. The dataset
and the policy of a job are those that `claim_next` returned. -/
def finalReport (baselineJobId : Option ℕ) : Option RagEvalReport := do
  let observed ← (observations jobId s).toOption
  let baseline ← (baselineReport s baselineJobId).toOption
  let job ← s.jobs.get jobId
  let row ← s.datasets.get job.datasetId
  letI := env.platform
  (evaluateRag env.arithmetic env.fingerprint row.dataset (some row.fingerprint) observed
    job.gatePolicy baseline metadata).toOption

/-- `_partial_report` and `_orphaned_partial_report`, over the cases that have been observed. -/
def partialReport : Option RagEvalReport := do
  let job ← s.jobs.get jobId
  let row ← s.datasets.get job.datasetId
  letI := env.platform
  (evaluateRagPartial env.arithmetic env.fingerprint row.dataset (some row.fingerprint)
    (job.cases.filterMap CaseRow.observation) job.gatePolicy metadata).toOption

/-- The reports of the orphaned jobs, from the metadata of those where no step raises. -/
def orphanReports (metadata : ℕ → Option Dict) (jobId : ℕ) : Option RagEvalReport :=
  (metadata jobId).bind fun given => partialReport env jobId given s

end Reports

inductive Input where
  | createDataset (username : String) (dataset : RagEvalDataset) (now : Time)
  | createJob (username : String) (datasetId : ℕ) (gatePolicy : RagEvalGatePolicy)
      (baselineJobId : Option ℕ) (maxAttempts : ℕ) (now : Time)
  | cancel (jobId : ℕ) (now : Time)
  | reconcile (metadata : ℕ → Option Dict) (now : Time)
  /-- The heartbeat thread of a worker, which can outlive its job. -/
  | heartbeat (jobId : ℕ) (workerId : String) (fencingToken : ℕ) (leaseSeconds : ℤ) (now : Time)
  | poll (w : ℕ) (metadata : ℕ → Option Dict) (now : Time)
  | claimNext (w : ℕ) (leaseSeconds : ℤ) (locked : List ℕ) (now : Time)
  | cancelRequested (w : ℕ)
  | act (w : ℕ) (payload : Payload) (now : Time)
  | evaluate (w : ℕ) (metadata : Dict)
  | evaluatePartial (w : ℕ) (metadata : Dict)
  | raise (w : ℕ)
  | crash (w : ℕ)

variable (env : Deployment) (reports : ℕ → Option RagEvalReport)

namespace Cluster

def boot (users : List String) : Cluster := ⟨{ users }, fun _ => .idle⟩

def setWorker (s : Cluster) (w : ℕ) (worker : WorkerState) : Cluster :=
  { s with workers := Function.update s.workers w worker }

/-- A transaction commits or leaves the store as it was. -/
def commit {α : Type} (store : Store) : Except Fault (α × Store) → Store
  | .ok (_, store') => store'
  | .error _ => store

def act (w : ℕ) (payload : Payload) (now : Time) (s : Cluster) : Cluster :=
  match s.workers w with
  | .holding claim stage =>
    match stage.write payload with
    | some write =>
      match write.perform claim.jobId (env.workerId w) claim.fencingToken now s.store with
      | .ok (claimed, store) =>
        ({ s with store }).setWorker w (.onward claim (stage.returned claimed))
      | .error _ => s.setWorker w (.onward claim stage.raised)
    | none => s
  | _ => s

def evaluate (w : ℕ) (metadata : Dict) (s : Cluster) : Cluster :=
  match s.workers w with
  | .holding claim .reporting =>
    match finalReport env claim.jobId metadata s.store claim.baselineJobId with
    | some report => s.setWorker w (.holding claim (.finishing report))
    | none => s.setWorker w (.holding claim (.handling none))
  | _ => s

/-- Before `fail_job`; without this step the report could not be built. -/
def evaluatePartial (w : ℕ) (metadata : Dict) (s : Cluster) : Cluster :=
  match s.workers w with
  | .holding claim (.failing active _) =>
    s.setWorker w
      (.holding claim (.failing active (partialReport env claim.jobId metadata s.store)))
  | _ => s

def claimNext (w : ℕ) (leaseSeconds : ℤ) (locked : List ℕ) (now : Time) (s : Cluster) : Cluster :=
  match s.workers w with
  | .polling =>
    match claimQueued (env.workerId w) leaseSeconds locked now s.store with
    | (some (jobId, job), store) => ({ s with store }).setWorker w
        (.holding ⟨jobId, job.fencingToken, job.baselineJobId⟩ .looping)
    | (none, _) => s.setWorker w .idle
  | _ => s

def raise (w : ℕ) (s : Cluster) : Cluster :=
  match s.workers w with
  | .holding claim stage => s.setWorker w (.onward claim stage.raised)
  | _ => s.setWorker w .idle

end Cluster

open Cluster in
def exec (s : Cluster) : Input → Cluster
  | .createDataset username dataset now => { s with
      store := commit s.store
        (createDataset username dataset (env.fingerprint dataset) now s.store) }
  | .createJob username datasetId gatePolicy baselineJobId maxAttempts now => { s with
      store := commit s.store
        (createJob username datasetId gatePolicy baselineJobId maxAttempts now s.store) }
  | .cancel jobId now => { s with store := commit s.store (cancel jobId now s.store) }
  | .reconcile metadata now => { s with
      store := (reconcileExpired (orphanReports env s.store metadata) now s.store).2 }
  | .heartbeat jobId workerId fencingToken leaseSeconds now => { s with
      store := commit s.store
        ((Write.heartbeat leaseSeconds).perform jobId workerId fencingToken now s.store) }
  | .poll w metadata now =>
    match s.workers w with
    | .idle => ({ s with store := (reconcileExpired (orphanReports env s.store metadata) now
        s.store).2 }).setWorker w .polling
    | _ => s
  | .claimNext w leaseSeconds locked now => claimNext env w leaseSeconds locked now s
  | .cancelRequested w =>
    match s.workers w with
    | .holding claim stage =>
      s.setWorker w (.holding claim (stage.polled (cancelRequested claim.jobId s.store)))
    | _ => s
  | .act w payload now => act env w payload now s
  | .evaluate w metadata => Cluster.evaluate env w metadata s
  | .evaluatePartial w metadata => Cluster.evaluatePartial env w metadata s
  | .raise w => raise w s
  | .crash w => s.setWorker w .idle

/-! ### The store after a transaction -/

theorem setJob_get (store : Store) (id : ℕ) (job : JobRow) :
    (store.setJob id job).jobs.get = Function.update store.jobs.get id (some job) :=
  store.jobs.get_put id job

theorem recoverJob_get (now : Time) (store : Store) (id k : ℕ) :
    (recoverJob reports now store id).jobs.get k =
      if k = id then (store.jobs.get k).map (·.recover (reports k) now) else store.jobs.get k := by
  unfold recoverJob
  by_cases hk : k = id
  · subst hk
    cases hjob : store.jobs.get k <;> simp [hjob, setJob_get]
  · cases hjob : store.jobs.get id <;> simp [hk, setJob_get]

theorem recoverJobs_nextJob (now : Time) (ids : List ℕ)
    (store : Store) : (ids.foldl (recoverJob reports now) store).nextJob = store.nextJob := by
  induction ids generalizing store with
  | nil => rfl
  | cons id ids ih =>
    rw [List.foldl_cons, ih]
    unfold recoverJob
    split <;> rfl

theorem recoverJobs_get (now : Time) {ids : List ℕ} (hids : ids.Nodup) (store : Store) (k : ℕ) :
    (ids.foldl (recoverJob reports now) store).jobs.get k =
      if k ∈ ids then (store.jobs.get k).map (·.recover (reports k) now) else store.jobs.get k := by
  induction ids generalizing store with
  | nil => simp
  | cons id ids ih =>
    obtain ⟨hfresh, hrest⟩ := List.nodup_cons.mp hids
    rw [List.foldl_cons, ih hrest, recoverJob_get]
    by_cases hk : k = id
    · subst hk
      simp [hfresh]
    · simp [hk]

theorem claimQueued_eq_some {workerId : String} {leaseSeconds : ℤ} {locked : List ℕ} {now : Time}
    {store store' : Store} {id : ℕ} {claimed : JobRow}
    (h : claimQueued workerId leaseSeconds locked now store = (some (id, claimed), store')) :
    ∃ job, store.jobs.get id = some job ∧ job.status = .queued ∧
      claimed = job.claim workerId leaseSeconds now ∧ store' = store.setJob id claimed := by
  simp only [claimQueued] at h
  split at h
  next => simp at h
  next k job hfirst =>
    obtain ⟨hget, hready⟩ := Table.mem_select.mp (firstBy_mem hfirst)
    obtain ⟨hsome, rfl⟩ := Prod.mk.inj h
    cases hsome
    exact ⟨job, hget, (of_decide_eq_true hready).1, rfl, rfl⟩

theorem reconcileExpired_get (now : Time) (store : Store) (k : ℕ) :
    (reconcileExpired reports now store).2.jobs.get k = (store.jobs.get k).map fun job =>
      if job.Expired now then job.recover (reports k) now else job := by
  have hnodup := store.jobs.nodup_select fun _ job => decide (job.Expired now)
  refine (recoverJobs_get reports now hnodup store k).trans ?_
  cases hjob : store.jobs.get k with
  | none => simp
  | some job => by_cases hexpired : job.Expired now <;> simp [hjob, hexpired]

end SuperMew.Evaluation
