import SuperMew.Evaluation.Cancellation

/-! Exceptions that leave `run_once`. The exception handler guards `fail_job`, but neither its
read of `cancel_requested` nor its call of `finish_cancelled`. -/

namespace SuperMew.Evaluation

open Relational

/-- The worker is in the exception handler, outside of its `try` blocks. -/
def Stage.bare : Stage → Bool
  | cancelling handler _ => handler
  | handling _ => true
  | _ => false

/-- The exceptions that the repository does not answer with come from the `try` block of
`run_once`. -/
def reachable (s : Cluster) : Input → Bool
  | .raise w =>
    match s.workers w with
    | .holding _ stage => !stage.bare
    | _ => false
  | _ => true

/-- An exception leaves the `run_once` of a worker. -/
def Escapes (env : Deployment) (w : ℕ) (s : Cluster) : Input → Prop
  | .act w' payload now => w' = w ∧ ∃ claim stage write fault, s.workers w = .holding claim stage ∧
      stage.bare = true ∧ stage.write payload = some write ∧
      write.perform claim.jobId (env.workerId w) claim.fencingToken now s.store = .error fault
  | .raise w' => w' = w ∧ ∀ claim stage, s.workers w = .holding claim stage → stage.bare = true
  | _ => False

/-- If the worker is in its exception handler and the job is being cancelled or has been
cancelled, then the job is still its own. -/
def keepsCancelled (env : Deployment) (w : ℕ) (s : Cluster) : Bool :=
  match s.workers w with
  | .holding claim stage => !(stage.bare && cancelRequested claim.jobId s.store) ||
      (s.store.jobs.get claim.jobId).any fun job =>
        decide (job.OwnedBy (env.workerId w) claim.fencingToken)
  | _ => true

variable {env : Deployment} {s : Cluster} {w : ℕ} {i : Input} {claim : Claim}
  {active : Option String}

theorem cancelRequested_eq_true {store : Store} {id : ℕ} :
    cancelRequested id store = true ↔
      store.statusOf id = some .cancelling ∨ store.statusOf id = some .cancelled := by
  unfold cancelRequested Store.statusOf
  cases store.jobs.get id <;> simp

@[simp] theorem Stage.raised_ne_cancelling {stage : Stage} :
    stage.raised ≠ some (cancelling true active) := by
  unfold raised
  split <;> simp

@[simp] theorem Stage.returned_ne_cancelling {stage : Stage} {claimed : Option String} :
    stage.returned claimed ≠ some (cancelling true active) := by
  unfold returned
  split
  · cases claimed <;> simp
  · simp
  · simp

@[simp] theorem onward_eq_holding {c : Claim} {next : Option Stage} {stage : Stage} :
    WorkerState.onward c next = .holding claim stage ↔ c = claim ∧ next = some stage := by
  cases next <;> simp [WorkerState.onward]

/-- A worker comes before the `finish_cancelled` of its handler only by a read of
`cancel_requested`. -/
theorem exec_cancelling (h : (exec env s i).workers w = .holding claim (.cancelling true active)) :
    s.workers w = .holding claim (.cancelling true active) ∨
      (exec env s i).store = s.store ∧ cancelRequested claim.jobId s.store = true := by
  have hset : ∀ {s' : Cluster} {w' : ℕ} {worker : WorkerState}, s'.workers = s.workers →
      (w' = w → worker ≠ .holding claim (.cancelling true active)) →
      (s'.setWorker w' worker).workers w = .holding claim (.cancelling true active) →
      s.workers w = .holding claim (.cancelling true active) := by
    intro s' w' worker hs hne hset
    by_cases hw : w = w'
    · subst hw
      exact absurd (by simpa [Cluster.setWorker] using hset) (hne rfl)
    · simpa [Cluster.setWorker, hw, hs] using hset
  cases i with
  | createDataset | createJob | cancel | reconcile | heartbeat => exact .inl h
  | poll w' metadata now =>
    simp only [exec] at h
    split at h
    · exact .inl (hset rfl (by simp) h)
    · exact .inl h
  | claimNext w' leaseSeconds locked now =>
    simp only [exec, Cluster.claimNext] at h
    split at h
    · split at h <;> exact .inl (hset rfl (by simp) h)
    · exact .inl h
  | cancelRequested w' =>
    simp only [exec] at h ⊢
    split at h
    next c stage hw' =>
      by_cases hw : w = w'
      · subst hw
        simp only [Cluster.setWorker, Function.update_self, WorkerState.holding.injEq] at h
        obtain ⟨rfl, hstage⟩ := h
        rw [hw']
        cases stage <;> simp_all [Stage.polled, Cluster.setWorker]
        all_goals split at hstage <;> simp_all
      · exact .inl (hset rfl (fun heq => absurd heq.symm hw) h)
    next => exact .inl h
  | act w' payload now =>
    simp only [exec, Cluster.act] at h
    split at h
    · split at h
      · split at h <;> exact .inl (hset rfl (by simp) h)
      · exact .inl h
    · exact .inl h
  | evaluate w' metadata =>
    simp only [exec, Cluster.evaluate] at h
    split at h
    · split at h <;> exact .inl (hset rfl (by simp) h)
    · exact .inl h
  | evaluatePartial w' metadata =>
    simp only [exec, Cluster.evaluatePartial] at h
    split at h
    · exact .inl (hset rfl (by simp) h)
    · exact .inl h
  | raise w' =>
    simp only [exec, Cluster.raise] at h
    split at h <;> exact .inl (hset rfl (by simp) h)
  | crash w' => exact .inl (hset rfl (by simp) h)

/-- Before the `finish_cancelled` of its handler, a worker has seen that the job is to be
cancelled. -/
def SawCancelled (w : ℕ) (s : Cluster) : Prop :=
  ∀ claim active, s.workers w = .holding claim (.cancelling true active) →
    cancelRequested claim.jobId s.store = true

theorem keepsCancelled_owned (hkeeps : keepsCancelled env w s = true) (hsaw : SawCancelled w s)
    (hw : s.workers w = .holding claim (.cancelling true active)) :
    ∃ job, s.store.jobs.get claim.jobId = some job ∧
      job.OwnedBy (env.workerId w) claim.fencingToken ∧ job.status = .cancelling := by
  have hrequested := hsaw claim active hw
  simp only [keepsCancelled, hw, Stage.bare, hrequested, Bool.and_self, Bool.not_true,
    Bool.false_or, Option.any_eq_true, decide_eq_true_eq] at hkeeps
  obtain ⟨job, hjob, howned⟩ := hkeeps
  refine ⟨job, hjob, howned, ?_⟩
  rw [cancelRequested_eq_true, Store.statusOf, hjob] at hrequested
  rcases hrequested with hstatus | hstatus
  · exact Option.some.inj hstatus
  · have howned' := howned.2.2
    rw [Option.some.inj hstatus] at howned'
    simp [RagEvaluationJobStatus.Owned] at howned'

theorem SawCancelled.exec (hsaw : SawCancelled w s) (hvalid : s.Valid env)
    (hkeeps : keepsCancelled env w s = true) (i : Input) : SawCancelled w (exec env s i) := by
  intro claim active hafter
  rcases exec_cancelling hafter with hw | ⟨hstore, hrequested⟩
  · obtain ⟨job, hjob, howned, hstatus⟩ := keepsCancelled_owned hkeeps hsaw hw
    -- the owner is this worker, and it does not write before its `finish_cancelled`
    have hquiet : ¬ Overrides env claim.jobId s i := by
      intro hover
      cases i with
      | act w' payload now =>
        obtain ⟨claim', stage, job', write, hw', hid, hjob', -, howned', hwrite, hends⟩ := hover
        obtain rfl := Option.mem_unique hjob hjob'
        obtain rfl := hvalid.single w w' claim claim' _ stage hw hw' hid.symm
          (howned.2.1.symm.trans howned'.2.1)
        obtain ⟨rfl, rfl⟩ := WorkerState.holding.inj (hw.symm.trans hw')
        cases payload <;> simp_all [Stage.write]
        subst hwrite
        exact hends
      | _ => exact hover
    have hbefore : s.store.statusOf claim.jobId = some .cancelling :=
      statusOf_eq_some.mpr ⟨job, hjob, hstatus⟩
    obtain ⟨row, next, hrow, hs, hstep, hnext⟩ := exec_statusOf hvalid i hbefore
    rw [cancelRequested_eq_true, hnext]
    rcases hstep.cancelling hrow hs hquiet with hn | hn <;> simp [hn]
  · rwa [hstore]

theorem not_escapes (hsaw : SawCancelled w s) (hkeeps : keepsCancelled env w s = true)
    (hreach : reachable s i = true) : ¬ Escapes env w s i := by
  intro hescapes
  cases i with
  | act w' payload now =>
    obtain ⟨rfl, claim, stage, write, fault, hw, hbare, hwrite, hfault⟩ := hescapes
    cases stage with
    | cancelling handler active =>
      obtain rfl : handler = true := hbare
      obtain ⟨job, hjob, howned, -⟩ := keepsCancelled_owned hkeeps hsaw hw
      cases payload <;> simp [Stage.write] at hwrite
      subst hwrite
      rw [Write.perform_of_owned hjob howned rfl] at hfault
      cases hfault
    | handling active => cases payload <;> simp [Stage.write] at hwrite
    | _ => simp [Stage.bare] at hbare
  | raise w' =>
    obtain ⟨rfl, hbare⟩ := hescapes
    simp only [reachable] at hreach
    split at hreach
    next claim stage hw => simp [hbare claim stage hw] at hreach
    next => cases hreach
  | _ => exact hescapes

/-- With a repository that answers, no exception leaves the `run_once` of a worker that has not
lost, in its exception handler, a job that is being cancelled or has been cancelled. -/
theorem run_once_survives (env : Deployment) (users : List String) (w : ℕ) (inputs : List Input)
    (hreach : Machine.Along (exec env) (fun s i => reachable s i = true) (Cluster.boot users) inputs)
    (hkeeps : Machine.Along (exec env) (fun s _ => keepsCancelled env w s = true)
      (Cluster.boot users) inputs) :
    Machine.Along (exec env) (fun s i => ¬ Escapes env w s i) (Cluster.boot users) inputs := by
  have hrun : ∀ (s : Cluster), s.Valid env → SawCancelled w s →
      Machine.Along (exec env) (fun s i => reachable s i = true) s inputs →
      Machine.Along (exec env) (fun s _ => keepsCancelled env w s = true) s inputs →
      Machine.Along (exec env) (fun s i => ¬ Escapes env w s i) s inputs := by
    clear hreach hkeeps
    induction inputs with
    | nil => exact fun _ _ _ _ _ => trivial
    | cons i inputs ih =>
      intro s hvalid hsaw hreach hkeeps
      exact ⟨not_escapes hsaw hkeeps.1 hreach.1,
        ih _ (hvalid.exec i) (hsaw.exec hvalid hkeeps.1 i) hreach.2 hkeeps.2⟩
  exact hrun _ (.boot env users) (fun _ _ h => nomatch h) hreach hkeeps

def cancelledCase : List Input :=
  [.createDataset "admin" soleCase 0, .createJob "admin" 0 onePolicy none 3 0,
    .poll 0 (fun _ => none) 1, .claimNext 0 60 [] 1, .cancelRequested 0, .act 0 .claimCase 2,
    .cancel 0 3]

theorem raising_case_survived :
    Machine.Along (exec soleWorker) (fun s i => ¬ Escapes soleWorker 0 s i) (Cluster.boot ["admin"])
      (cancelledCase ++ [.raise 0, .cancelRequested 0, .act 0 .finishCancelled 4]) :=
  run_once_survives soleWorker ["admin"] 0 _ (by decide +kernel) (by decide +kernel)

/-- The lease runs out, and the recovery cancels the job. -/
def lostCase : List Input :=
  cancelledCase ++ [.reconcile (fun _ => none) 100000000,
    .act 0 (.executed soleExecution) 100000001, .cancelRequested 0]

/-- `finish_cancelled` refuses the worker. -/
theorem lost_cancellation_escapes :
    Machine.Along (exec soleWorker) (fun s i => reachable s i = true) (Cluster.boot ["admin"])
        (lostCase ++ [.act 0 .finishCancelled 100000002]) ∧
      Escapes soleWorker 0 (reached soleWorker ["admin"] lostCase)
        (.act 0 .finishCancelled 100000002) :=
  ⟨by decide +kernel, rfl, ⟨0, 1, none⟩, .cancelling true (some "case-1"), .finishCancelled,
    .app Errors.notOwner, rfl, rfl, rfl, rfl⟩

end SuperMew.Evaluation
