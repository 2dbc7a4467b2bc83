import SuperMew.Evaluation.Consistency

/-! The cancellation of an evaluation job against the worker that executes it. -/

namespace SuperMew.Evaluation

open Relational Cluster JobRow Write Machine

def Store.statusOf (store : Store) (id : ℕ) : Option RagEvaluationJobStatus :=
  (store.jobs.get id).map status

/-! ### How the row of a job can change -/

/-- Everything one step can do to a row. -/
inductive RowStep (env : Deployment) (s : Cluster) (id : ℕ) (job : JobRow) :
    Input → JobRow → Prop where
  | kept {i : Input} {next : JobRow} (hstatus : next.status = job.status) : RowStep env s id job i next
  | cancelled {now : Time} (hqueued : job.status = .queued) :
      RowStep env s id job (.cancel id now) (job.cancelLocked now)
  | requested {now : Time} (hrunning : job.status = .running) :
      RowStep env s id job (.cancel id now) { job with status := .cancelling, updatedAt := now }
  | recovered {i : Input} {report : Option RagEvalReport} {now : Time}
      (hexpired : job.Expired now) : RowStep env s id job i (job.recover report now)
  | claimed {i : Input} {workerId : String} {leaseSeconds : ℤ} {now : Time}
      (hqueued : job.status = .queued) :
      RowStep env s id job i (job.claim workerId leaseSeconds now)
  | written {w : ℕ} {payload : Payload} {now : Time} {claim : Claim} {stage : Stage} {write : Write}
      {case : Option String} {next : JobRow} (hw : s.workers w = .holding claim stage)
      (hid : claim.jobId = id) (hwrite : stage.write payload = some write)
      (howned : job.OwnedBy (env.workerId w) claim.fencingToken)
      (hrow : write.onRow now job = .ok (case, next)) :
      RowStep env s id job (.act w payload now) next

/-- What one step does to a place of the table. -/
inductive PlaceStep (env : Deployment) (s : Cluster) (i : Input) (id : ℕ) :
    Option JobRow → Option JobRow → Prop where
  | absent : PlaceStep env s i id none none
  | created {next : JobRow} (hqueued : next.status = .queued) : PlaceStep env s i id none (some next)
  | stepped {job next : JobRow} (hstep : RowStep env s id job i next) :
      PlaceStep env s i id (some job) (some next)

def TableStep (env : Deployment) (s : Cluster) (i : Input) (store : Store) : Prop :=
  ∀ id, PlaceStep env s i id (s.store.jobs.get id) (store.jobs.get id)

variable {store : Store} {s : Cluster} {now : Time}

section Steps

variable {env : Deployment} {i : Input}

theorem tableStep_same (hjobs : store.jobs = s.store.jobs) : TableStep env s i store := by
  intro id
  rw [hjobs]
  cases s.store.jobs.get id with
  | none => exact .absent
  | some job => exact .stepped (.kept rfl)

theorem tableStep_setJob {target : ℕ} {old next : JobRow}
    (hold : s.store.jobs.get target = some old) (hstep : RowStep env s target old i next) :
    TableStep env s i (s.store.setJob target next) := by
  intro id
  rw [setJob_get]
  by_cases htarget : id = target
  · subst htarget
    rw [hold, Function.update_self]
    exact .stepped hstep
  · rw [Function.update_of_ne htarget]
    exact tableStep_same rfl id

theorem tableStep_reconcile (reports : ℕ → Option RagEvalReport) (now : Time) :
    TableStep env s i (reconcileExpired reports now s.store).2 := by
  intro id
  rw [reconcileExpired_get]
  cases s.store.jobs.get id with
  | none => exact .absent
  | some job =>
    refine .stepped ?_
    by_cases hexpired : job.Expired now
    · simpa [hexpired] using .recovered hexpired
    · simpa [hexpired] using .kept rfl

theorem tableStep_commit {α : Type} {outcome : Except Fault (α × Store)}
    (hok : ∀ a store, outcome = .ok (a, store) → TableStep env s i store) :
    TableStep env s i (commit s.store outcome) := by
  cases outcome with
  | error e => exact tableStep_same rfl
  | ok result => exact hok result.1 result.2 rfl

theorem tableStep_act (w : ℕ) (payload : Payload) (now : Time) :
    TableStep env s (.act w payload now) (act env w payload now s).store := by
  unfold act
  split
  next claim stage hw =>
    split
    next write hwrite =>
      split
      next claimed store hok =>
        obtain ⟨old, next, hold, howned, hrow, rfl⟩ := perform_eq_ok hok
        exact tableStep_setJob hold (.written hw rfl hwrite howned hrow)
      next => exact tableStep_same rfl
    next => exact tableStep_same rfl
  next => exact tableStep_same rfl

theorem tableStep_claimNext (w : ℕ) (leaseSeconds : ℤ) (locked : List ℕ) (now : Time) :
    TableStep env s i (claimNext env w leaseSeconds locked now s).store := by
  unfold claimNext
  split
  next =>
    split
    next jobId claimed store hclaim =>
      obtain ⟨old, hold, hqueued, rfl, rfl⟩ := claimQueued_eq_some hclaim
      exact tableStep_setJob hold (.claimed hqueued)
    next => exact tableStep_same rfl
  next => exact tableStep_same rfl

theorem tableStep_createJob (h : s.Valid env) {username : String} {datasetId : ℕ}
    {gatePolicy : RagEvalGatePolicy} {baselineJobId : Option ℕ} {maxAttempts : ℕ}
    {new : ℕ} (hok : createJob username datasetId gatePolicy baselineJobId
      maxAttempts now s.store = .ok (new, store)) : TableStep env s i store := by
  obtain ⟨job, -, hqueued, -, hget⟩ := createJob_eq_ok hok
  intro id
  rw [hget]
  by_cases hid : id = s.store.nextJob
  · subst hid
    rw [h.fresh _ le_rfl, Function.update_self]
    exact .created hqueued
  · rw [Function.update_of_ne hid]
    exact tableStep_same rfl id

theorem exec_tableStep (h : s.Valid env) (i : Input) : TableStep env s i (exec env s i).store := by
  cases i with
  | createDataset username dataset now =>
    exact tableStep_commit fun _ store hok => tableStep_same (createDataset_jobs hok).1
  | createJob username datasetId gatePolicy baselineJobId maxAttempts now =>
    exact tableStep_commit fun _ _ hok => tableStep_createJob h hok
  | cancel jobId now =>
    refine tableStep_commit fun _ store hok => ?_
    obtain ⟨old, next, hold, -, rfl, hnext⟩ := cancel_eq_ok hok
    refine tableStep_setJob hold ?_
    rcases hnext with ⟨hqueued, rfl⟩ | ⟨hrunning, rfl⟩ | ⟨-, -, rfl⟩
    · exact .cancelled hqueued
    · exact .requested hrunning
    · exact .kept rfl
  | reconcile metadata now => exact tableStep_reconcile _ now
  | heartbeat jobId workerId fencingToken leaseSeconds now =>
    refine tableStep_commit fun _ store hok => ?_
    obtain ⟨old, next, hold, -, hrow, rfl⟩ := perform_eq_ok hok
    rw [onRow, pure_eq_ok] at hrow
    cases hrow
    exact tableStep_setJob hold (.kept rfl)
  | poll w metadata now =>
    simp only [exec]
    split
    next => exact tableStep_reconcile _ now
    next => exact tableStep_same rfl
  | claimNext w leaseSeconds locked now => exact tableStep_claimNext w leaseSeconds locked now
  | cancelRequested w =>
    simp only [exec]
    split <;> exact tableStep_same rfl
  | act w payload now => exact tableStep_act w payload now
  | evaluate w metadata =>
    simp only [exec, Cluster.evaluate]
    split
    · split <;> exact tableStep_same rfl
    · exact tableStep_same rfl
  | evaluatePartial w metadata =>
    simp only [exec, Cluster.evaluatePartial]
    split <;> exact tableStep_same rfl
  | raise w =>
    simp only [exec, Cluster.raise]
    split <;> exact tableStep_same rfl
  | crash w => exact tableStep_same rfl

end Steps

/-! ### Statuses -/

variable {write : Write} {claimed : Option String}

theorem Write.onRow_status {job next : JobRow} (h : write.onRow now job = .ok (claimed, next)) :
    next.status = match write with
      | .failJob _ => .failed
      | .finishJob _ => .succeeded
      | .finishCancelled => .cancelled
      | _ => job.status := by
  cases write with
  | heartbeat leaseSeconds | failJob failure | finishCancelled =>
    rw [onRow, pure_eq_ok] at h
    cases h
    rfl
  | claimCase =>
    rcases claimCase_onRow h with ⟨-, rfl⟩ | ⟨case, -, -, rfl⟩ <;> rfl
  | completeCase caseId execution =>
    obtain ⟨case, -, ⟨-, rfl⟩ | ⟨-, rfl⟩⟩ := completeCase_onRow h <;> rfl
  | finishJob report =>
    obtain ⟨-, -, rfl⟩ := finishJob_onRow h
    rfl

/-- `fail_job` always writes its status; `finish_job` does when every case is counted and
the report covers the cases. -/
def Write.Ends (job : JobRow) : Write → Prop
  | .failJob _ => True
  | .finishJob report => job.completedCases = job.totalCases ∧ job.CoveredBy report
  | _ => False

/-- The step is a `fail_job`, or a `finish_job` that passes its checks, by the owner of a job
that is being cancelled. -/
def Overrides (env : Deployment) (id : ℕ) (s : Cluster) : Input → Prop
  | .act w payload _ => ∃ claim stage job write, s.workers w = .holding claim stage ∧
      claim.jobId = id ∧ s.store.jobs.get id = some job ∧ job.status = .cancelling ∧
      job.OwnedBy (env.workerId w) claim.fencingToken ∧ stage.write payload = some write ∧
      write.Ends job
  | _ => False

theorem Write.perform_of_owned {jobId fencingToken : ℕ} {workerId : String} {job next : JobRow}
    (hjob : store.jobs.get jobId = some job) (howned : job.OwnedBy workerId fencingToken)
    (hrow : write.onRow now job = .ok (claimed, next)) :
    write.perform jobId workerId fencingToken now store =
      .ok (claimed, store.setJob jobId next) := by
  have hguard : raiseIf (¬ job.OwnedBy workerId fencingToken) Errors.notOwner = .ok () :=
    raiseIf_eq_ok.mpr (not_not.mpr howned)
  simp only [perform, hjob, orRaise, ok_bind, hguard, hrow]
  rfl

theorem Write.Ends.onRow {job : JobRow} (h : write.Ends job) (now : Time) :
    ∃ next, write.onRow now job = .ok (none, next) ∧
      (next.status = .failed ∨ next.status = .succeeded) := by
  cases write with
  | failJob failure => exact ⟨_, rfl, .inl rfl⟩
  | finishJob report =>
    refine ⟨job.succeed report now, ?_, .inr rfl⟩
    have hall : raiseIf (job.completedCases ≠ job.totalCases) Errors.casesIncomplete = .ok () :=
      raiseIf_eq_ok.mpr (not_not.mpr h.1)
    have hcovered : raiseIf (¬ job.CoveredBy report) Errors.reportIncomplete = .ok () :=
      raiseIf_eq_ok.mpr (not_not.mpr h.2)
    simp only [onRow, hall, hcovered, ok_bind]
    rfl
  | _ => exact h.elim

variable {id : ℕ}

section Statuses

variable {env : Deployment} {job next : JobRow} {i : Input}

section

variable (h : RowStep env s id job i next)

include h

/-- A job that is being cancelled stays so or is cancelled, unless the step overrides it. -/
theorem RowStep.cancelling (hjob : s.store.jobs.get id = some job)
    (hstatus : job.status = .cancelling) (hno : ¬ Overrides env id s i) :
    next.status = .cancelling ∨ next.status = .cancelled := by
  cases h with
  | kept hkept => exact .inl (hkept.trans hstatus)
  | cancelled hqueued | claimed hqueued => simp [hstatus] at hqueued
  | requested hrunning => simp [hstatus] at hrunning
  | recovered hexpired =>
    right
    simp [recover, hstatus, cancelLocked]
  | @written w payload now claim stage write case _ hw hid hwrite howned hrow =>
    have hends : ¬ write.Ends job := fun hends =>
      hno ⟨claim, stage, job, write, hw, hid, hjob, hstatus, howned, hwrite, hends⟩
    rw [onRow_status hrow]
    cases write with
    | failJob failure => exact absurd trivial hends
    | finishJob report =>
      obtain ⟨hall, hcovered, -⟩ := finishJob_onRow hrow
      exact absurd ⟨hall, hcovered⟩ hends
    | finishCancelled => exact .inr rfl
    | _ => exact .inl hstatus

theorem RowStep.terminal (hstatus : job.status.Terminal) : next.status = job.status := by
  have hnot : ¬ job.status.Owned ∧ job.status ≠ .queued ∧ job.status ≠ .running := by
    rcases hstatus with hs | hs | hs <;> simp [hs, RagEvaluationJobStatus.Owned]
  cases h with
  | kept hkept => exact hkept
  | cancelled hqueued | claimed hqueued => exact absurd hqueued hnot.2.1
  | requested hrunning => exact absurd hrunning hnot.2.2
  | recovered hexpired => exact absurd hexpired.1 hnot.1
  | written _ _ _ howned => exact absurd howned.2.2 hnot.1

/-- Only the API asks for a cancellation. -/
theorem RowStep.of_cancelling (hnext : next.status = .cancelling) :
    job.status = .cancelling ∨ ∃ now, i = .cancel id now := by
  cases h with
  | kept hkept => exact .inl (hkept ▸ hnext)
  | cancelled hqueued | requested hrunning => exact .inr ⟨_, rfl⟩
  | recovered hexpired =>
    unfold recover at hnext
    split at hnext
    · simp [cancelLocked] at hnext
    · split at hnext <;> simp [orphan, requeue] at hnext
  | claimed hqueued => simp [claim] at hnext
  | @written w payload now claim stage write case _ hw hid hwrite howned hrow =>
    rw [onRow_status hrow] at hnext
    cases write <;> simp_all

end

/-- An overriding step ends the job as failed or succeeded. -/
theorem Overrides.ends (h : Overrides env id s i) :
    (exec env s i).store.statusOf id = some .failed ∨
      (exec env s i).store.statusOf id = some .succeeded := by
  cases i with
  | act w payload now =>
    obtain ⟨claim, stage, job, write, hw, rfl, hjob, -, howned, hwrite, hends⟩ := h
    obtain ⟨next, hrow, hstatus⟩ := hends.onRow now
    have hok := perform_of_owned hjob howned hrow
    simp only [exec, act, hw, hwrite, hok, Store.statusOf, setWorker,
      setJob_get, Function.update_self, Option.map_some, Option.some.injEq]
    exact hstatus
  | _ => exact h.elim

end Statuses

/-! ### Cancellation wins, or not -/

variable {status : RagEvaluationJobStatus} {inputs : List Input}

section Runs

variable (env : Deployment) (users : List String)

def reached (inputs : List Input) : Cluster := run (exec env) (boot users) inputs

/-- Whenever a cancel leaves the job CANCELLING, it is CANCELLING or CANCELLED in every later
state of the run. -/
def CancelWins (id : ℕ) (inputs : List Input) : Prop :=
  ∀ before now after rest, inputs = before ++ .cancel id now :: (after ++ rest) →
    (reached env users (before ++ [.cancel id now])).store.statusOf id = some .cancelling →
    (reached env users (before ++ .cancel id now :: after)).store.statusOf id = some .cancelling ∨
      (reached env users (before ++ .cancel id now :: after)).store.statusOf id = some .cancelled

theorem reached_valid (inputs : List Input) : (reached env users inputs).Valid env :=
  .run env users inputs

variable {env users}

theorem reached_snoc (inputs : List Input) (i : Input) :
    reached env users (inputs ++ [i]) = exec env (reached env users inputs) i := by
  simp [reached]

theorem statusOf_eq_some :
    store.statusOf id = some status ↔ ∃ job, store.jobs.get id = some job ∧ job.status = status :=
  Option.map_eq_some_iff

theorem exec_statusOf (h : s.Valid env) (i : Input) (hstatus : s.store.statusOf id = some status) :
    ∃ job next, s.store.jobs.get id = some job ∧ job.status = status ∧
      RowStep env s id job i next ∧ (exec env s i).store.statusOf id = some next.status := by
  obtain ⟨job, hjob, hjobStatus⟩ := statusOf_eq_some.mp hstatus
  have hplace := exec_tableStep h i id
  rw [hjob] at hplace
  generalize hafter : (exec env s i).store.jobs.get id = after at hplace
  cases hplace with
  | stepped hstep => exact ⟨job, _, hjob, hjobStatus, hstep, by rw [Store.statusOf, hafter]; rfl⟩

/-- A job that is being cancelled owes that to a cancel of the run. -/
theorem cancelling_requested (h : (reached env users inputs).store.statusOf id = some .cancelling) :
    ∃ before now after, inputs = before ++ .cancel id now :: after ∧
      (reached env users (before ++ [.cancel id now])).store.statusOf id = some .cancelling := by
  induction inputs using List.reverseRecOn with
  | nil => simp [reached, Store.statusOf, boot] at h
  | append_singleton inputs i ih =>
    rw [reached_snoc] at h
    by_cases hbefore : (reached env users inputs).store.statusOf id = some .cancelling
    · obtain ⟨before, now, after, rfl, hcancelling⟩ := ih hbefore
      exact ⟨before, now, after ++ [i], by simp, hcancelling⟩
    · obtain ⟨now, rfl⟩ : ∃ now, i = .cancel id now := by
        obtain ⟨next, hnext, hstatus⟩ := statusOf_eq_some.mp h
        have hplace := exec_tableStep (reached_valid env users inputs) i id
        rw [hnext] at hplace
        generalize hprior : (reached env users inputs).store.jobs.get id = prior at hplace
        cases hplace with
        | created hqueued => simp [hstatus] at hqueued
        | @stepped job _ hstep =>
          rcases hstep.of_cancelling hstatus with hsame | hcancel
          · exact absurd (statusOf_eq_some.mpr ⟨job, hprior, hsame⟩) hbefore
          · exact hcancel
      refine ⟨inputs, now, [], rfl, ?_⟩
      rw [reached_snoc]
      exact h

/-- Without an overriding step a cancellation is not lost. -/
theorem cancelling_kept (h : s.Valid env)
    (hquiet : Machine.Along (exec env) (fun s i => ¬ Overrides env id s i) s inputs)
    (hstatus : s.store.statusOf id = some .cancelling ∨ s.store.statusOf id = some .cancelled) :
    (run (exec env) s inputs).store.statusOf id = some .cancelling ∨
      (run (exec env) s inputs).store.statusOf id = some .cancelled := by
  induction inputs generalizing s with
  | nil => exact hstatus
  | cons i inputs ih =>
    refine ih (h.exec i) hquiet.2 ?_
    rcases hstatus with hcancelling | hcancelled
    · obtain ⟨job, next, hjob, hs, hstep, hnext⟩ := exec_statusOf h i hcancelling
      rw [hnext]
      rcases hstep.cancelling hjob hs hquiet.1 with hn | hn <;> simp [hn]
    · obtain ⟨job, next, hjob, hs, hstep, hnext⟩ := exec_statusOf h i hcancelled
      rw [hnext, hstep.terminal (.inl hs), hs]
      exact .inr rfl

/-- A cancellation wins exactly in the runs in which no owner fails or finishes the job after
the cancel was accepted. -/
theorem cancel_wins_iff (env : Deployment) (users : List String) (id : ℕ) (inputs : List Input) :
    CancelWins env users id inputs ↔
      Machine.Along (exec env) (fun s i => ¬ Overrides env id s i) (boot users) inputs := by
  constructor
  · intro hwins
    refine along_iff_forall_split.mpr ?_
    rintro xs i ys rfl hoverrides
    have hcancelling : (reached env users xs).store.statusOf id = some .cancelling := by
      cases i with
      | act w payload now =>
        obtain ⟨claim, stage, job, write, -, -, hjob, hs, -⟩ := hoverrides
        exact statusOf_eq_some.mpr ⟨job, hjob, hs⟩
      | _ => exact hoverrides.elim
    obtain ⟨before, now, after, rfl, hrequested⟩ := cancelling_requested hcancelling
    have hafter := hwins before now (after ++ [i]) ys (by simp) hrequested
    have hstate : reached env users (before ++ .cancel id now :: (after ++ [i])) =
        exec env (reached env users (before ++ .cancel id now :: after)) i := by
      rw [← reached_snoc]
      simp
    rw [hstate] at hafter
    unfold reached at hafter
    rcases hoverrides.ends with hends | hends <;> rw [hends] at hafter <;> simp at hafter
  · rintro hquiet before now after rest rfl hcancelling
    have hstate : reached env users (before ++ .cancel id now :: after) =
        run (exec env) (reached env users (before ++ [.cancel id now])) after := by
      simp [reached]
    have hrest : Machine.Along (exec env) (fun s i => ¬ Overrides env id s i)
        (reached env users (before ++ [.cancel id now])) after := by
      have hsplit : before ++ .cancel id now :: (after ++ rest) =
          (before ++ [.cancel id now]) ++ (after ++ rest) := by simp
      rw [hsplit] at hquiet
      exact (along_append.mp (along_append.mp hquiet).2).1
    rw [hstate]
    exact cancelling_kept (reached_valid env users _) hrest (.inl hcancelling)

end Runs

/-! ### A cancel between the last poll and `finish_job` -/

def soleWorker : Deployment :=
  ⟨fun _ => "rag-evaluation", fun _ => "sha256", PlainPlatform.plain, exactArithmetic⟩

def soleCase : RagEvalDataset :=
  ⟨"smoke", [{ id := "case-1", question := "q", expected := {} }], by decide, by decide⟩

def onePolicy : RagEvalGatePolicy where
  kValues := [5]
  kValues_nonempty := by decide
  kValues_pos := by decide
  kValues_sorted := by decide
  unique := by decide

def soleExecution : CaseRow.Execution :=
  ⟨{ caseId := "case-1", durationMs := 1 }, "a", none, 1⟩

/-- The worker has polled for the last time and evaluated the only case. -/
def evaluated : List Input :=
  [.createDataset "admin" soleCase 0, .createJob "admin" 0 onePolicy none 3 0,
    .poll 0 (fun _ => none) 1, .claimNext 0 60 [] 1, .cancelRequested 0, .act 0 .claimCase 2,
    .act 0 (.executed soleExecution) 3, .cancelRequested 0, .act 0 .claimCase 4,
    .cancelRequested 0, .evaluate 0 []]

/-- A cancel that was accepted is followed by success. -/
theorem cancelled_job_succeeds :
    (reached soleWorker ["admin"] (evaluated ++ [.cancel 0 5])).store.statusOf 0 =
        some .cancelling ∧
      (reached soleWorker ["admin"] (evaluated ++ [.cancel 0 5, .act 0 .finish 6])).store.statusOf
        0 = some .succeeded ∧
      ¬ CancelWins soleWorker ["admin"] 0 (evaluated ++ [.cancel 0 5, .act 0 .finish 6]) := by
  have hrequested : (reached soleWorker ["admin"] (evaluated ++ [.cancel 0 5])).store.statusOf 0 =
      some .cancelling := by decide +kernel
  have hsucceeded : (reached soleWorker ["admin"]
      (evaluated ++ [.cancel 0 5, .act 0 .finish 6])).store.statusOf 0 = some .succeeded := by
    decide +kernel
  refine ⟨hrequested, hsucceeded, fun hwins => ?_⟩
  have hlater := hwins evaluated 5 [.act 0 .finish 6] [] rfl hrequested
  rw [hsucceeded] at hlater
  simp at hlater

end SuperMew.Evaluation
