import SuperMew.Evaluation.Worker

/-! Jobs and cases agree in every state that the workers, their crashes, the recovery of
expired leases and the API can reach. -/

namespace SuperMew.Evaluation

open Relational Cluster Write Stage

variable {job : JobRow} {next : JobRow}

namespace JobRow

/-- What the holders of old claims rely on: tokens do not decrease, and a holder that still
owns the row after the change owned it before and knows its running case. -/
structure Follows (job next : JobRow) : Prop where
  token : job.fencingToken ≤ next.fencingToken
  tracks : ∀ workerId fencingToken active, fencingToken ≤ job.fencingToken →
    (job.OwnedBy workerId fencingToken → job.Tracks active) →
      next.OwnedBy workerId fencingToken → next.Tracks active

theorem Follows.refl (job : JobRow) : job.Follows job := ⟨le_rfl, fun _ _ _ _ h => h⟩

/-- Nobody owns a job outside the owned statuses. -/
theorem Follows.of_released (htoken : next.fencingToken = job.fencingToken)
    (hstatus : ¬ next.status.Owned) : job.Follows next :=
  ⟨htoken.ge, fun _ _ _ _ _ howned => absurd howned.2.2 hstatus⟩

theorem Follows.of_same (htoken : next.fencingToken = job.fencingToken)
    (howner : next.ownerWorkerId = job.ownerWorkerId) (hstatus : job.status.Owned)
    (hcases : next.cases = job.cases) : job.Follows next where
  token := htoken.ge
  tracks := by
    intro workerId fencingToken active _ htracks howned
    obtain ⟨hname, htok, -⟩ := howned
    exact (htracks ⟨howner ▸ hname, htoken ▸ htok, hstatus⟩).congr hcases

theorem follows_recover (job : JobRow) (report : Option RagEvalReport) (now : Time) :
    job.Follows (job.recover report now) := by
  unfold recover
  split
  · exact .of_released rfl (by simp [cancelLocked, RagEvaluationJobStatus.Owned])
  · split
    · exact .of_released rfl (by simp [orphan, RagEvaluationJobStatus.Owned])
    · exact .of_released rfl (by simp [requeue, RagEvaluationJobStatus.Owned])

/-- A claim takes a token that no older claim has. -/
theorem follows_claim (job : JobRow) (workerId : String) (leaseSeconds : ℤ) (now : Time) :
    job.Follows (job.claim workerId leaseSeconds now) where
  token := Nat.le_succ _
  tracks := by
    intro name fencingToken active hle _ howned
    have htoken : job.fencingToken + 1 = fencingToken := howned.2.1
    omega

theorem Sound.claim (h : job.Sound) (hqueued : job.status = .queued) (workerId : String)
    (leaseSeconds : ℤ) (now : Time) : (job.claim workerId leaseSeconds now).Sound :=
  .of_owned (h.congr rfl rfl rfl) ((h.waiting hqueued).congr rfl) (.inl rfl)

end JobRow

variable {now : Time} {jobId : ℕ} {status : RagEvaluationJobStatus}

theorem cancel_eq_ok {s s' : Store} (h : cancel jobId now s = .ok (status, s')) :
    ∃ job next, s.jobs.get jobId = some job ∧ status = next.status ∧ s' = s.setJob jobId next ∧
      (job.status = .queued ∧ next = job.cancelLocked now ∨
        job.status = .running ∧ next = { job with status := .cancelling, updatedAt := now } ∨
        job.status ≠ .queued ∧ job.status ≠ .running ∧ next = job) := by
  simp only [cancel, ok_rules] at h
  obtain ⟨job, hjob, rfl, rfl⟩ := h
  refine ⟨job, _, hjob, rfl, rfl, ?_⟩
  cases hstatus : job.status <;> simp

variable {id : ℕ} {username : String} {dataset : RagEvalDataset} {fingerprint : String}

theorem createDataset_jobs
    {s s' : Store} (h : createDataset username dataset fingerprint now s = .ok (id, s')) :
    s'.jobs = s.jobs ∧ s'.nextJob = s.nextJob := by
  simp only [createDataset, ok_rules] at h
  obtain ⟨_, -, h⟩ := h
  split at h <;> simp only [ok_rules] at h <;> obtain ⟨-, rfl⟩ := h <;> exact ⟨rfl, rfl⟩

variable {gatePolicy : RagEvalGatePolicy} {baselineJobId : Option ℕ} {maxAttempts datasetId : ℕ}

/-- A new job waits, under an id of its own. -/
theorem createJob_eq_ok {s s' : Store}
    (h : createJob username datasetId gatePolicy baselineJobId maxAttempts now s = .ok (id, s')) :
    ∃ job : JobRow, job.Sound ∧ job.status = .queued ∧ s'.nextJob = s.nextJob + 1 ∧
      s'.jobs.get = Function.update s.jobs.get s.nextJob (some job) := by
  simp only [createJob, ok_rules] at h
  obtain ⟨_, -, dataset, -, _, -, -, rfl⟩ := h
  exact ⟨_, .of_new rfl rfl rfl rfl, rfl, rfl, Table.get_put ..⟩

namespace JobRow

theorem Sound.cancel (h : job.Sound) (hnext : job.status = .queued ∧ next = job.cancelLocked now ∨
      job.status = .running ∧ next = { job with status := .cancelling, updatedAt := now } ∨
      job.status ≠ .queued ∧ job.status ≠ .running ∧ next = job) :
    next.Sound ∧ job.Follows next := by
  rcases hnext with ⟨-, rfl⟩ | ⟨hrunning, rfl⟩ | ⟨-, -, rfl⟩
  · exact ⟨h.cancelLocked now,
      .of_released rfl (by simp [JobRow.cancelLocked, RagEvaluationJobStatus.Owned])⟩
  · obtain ⟨active, hactive⟩ := h.serial
    exact ⟨.of_owned (h.congr rfl rfl rfl) (hactive.congr rfl) (.inr rfl),
      .of_same rfl rfl (.inl hrunning) rfl⟩
  · exact ⟨h, .refl _⟩

end JobRow

/-! ### The invariant -/

structure Cluster.Valid (env : Deployment) (s : Cluster) : Prop where
  fresh : ∀ id, s.store.nextJob ≤ id → s.store.jobs.get id = none
  sound : ∀ id job, s.store.jobs.get id = some job → job.Sound
  /-- A worker holds an issued token; while it owns its job it knows the running case. -/
  held : ∀ w claim stage, s.workers w = .holding claim stage →
    ∃ job, s.store.jobs.get claim.jobId = some job ∧ claim.fencingToken ≤ job.fencingToken ∧
      (job.OwnedBy (env.workerId w) claim.fencingToken → job.Tracks stage.active)
  /-- No two workers hold one token of a job. -/
  single : ∀ w w' claim claim' stage stage', s.workers w = .holding claim stage →
    s.workers w' = .holding claim' stage' → claim.jobId = claim'.jobId →
    claim.fencingToken = claim'.fencingToken → w = w'

variable {w : ℕ} {s : Cluster}

theorem Cluster.setWorker_setWorker {a b : WorkerState} :
    (s.setWorker w a).setWorker w b = s.setWorker w b := by
  simp [setWorker]

variable {stage : Stage} {claim : Claim} {env : Deployment}

namespace Cluster.Valid

theorem boot (env : Deployment) (users : List String) : (boot users).Valid env where
  fresh := fun _ _ => rfl
  sound := fun _ _ h => nomatch h
  held := fun _ _ _ h => nomatch h
  single := fun _ _ _ _ _ _ h => nomatch h

variable (h : s.Valid env)

include h

/-- A transaction that every holder can follow keeps the invariant. -/
theorem store {store : Store} (hfresh : ∀ id, store.nextJob ≤ id → store.jobs.get id = none)
    (hsound : ∀ id job, store.jobs.get id = some job → job.Sound)
    (hfollows : Evolves (fun _ => JobRow.Follows) s.store.jobs.get store.jobs.get) :
    ({ s with store } : Cluster).Valid env where
  fresh := hfresh
  sound := hsound
  held := by
    intro w claim stage hw
    obtain ⟨job, hjob, htoken, htracks⟩ := h.held w claim stage hw
    obtain ⟨next, hnext, hfollow⟩ := hfollows _ _ hjob
    exact ⟨next, hnext, htoken.trans hfollow.token, hfollow.tracks _ _ _ htoken htracks⟩
  single := h.single

/-- One row is written over an existing row, and its holders know the running case. -/
theorem replace (hjob : s.store.jobs.get id = some job) (hsound : next.Sound)
    (htoken : job.fencingToken ≤ next.fencingToken)
    (hheld : ∀ w claim stage, s.workers w = .holding claim stage → claim.jobId = id →
      next.OwnedBy (env.workerId w) claim.fencingToken → next.Tracks stage.active) :
    ({ s with store := s.store.setJob id next } : Cluster).Valid env where
  fresh := by
    intro k hk
    have hne : k ≠ id := by
      rintro rfl
      simp [h.fresh k hk] at hjob
    rw [setJob_get, Function.update_of_ne hne]
    exact h.fresh k hk
  sound := Table.forall_put h.sound hsound
  held := by
    intro w claim stage hw
    obtain ⟨old, hold, hle, htracks⟩ := h.held w claim stage hw
    rw [setJob_get]
    by_cases hid : claim.jobId = id
    · rw [hid, hjob] at hold
      cases hold
      exact ⟨next, by simp [hid], hle.trans htoken, hheld w claim stage hw hid⟩
    · exact ⟨old, by simp [hid, hold], hle, htracks⟩
  single := h.single

theorem setJob
    (hjob : s.store.jobs.get id = some job) (hsound : next.Sound) (hfollows : job.Follows next) :
    ({ s with store := s.store.setJob id next } : Cluster).Valid env := by
  refine h.replace hjob hsound hfollows.token ?_
  rintro w claim stage hw rfl
  obtain ⟨old, hold, hle, htracks⟩ := h.held w claim stage hw
  cases hjob.symm.trans hold
  exact hfollows.tracks _ _ _ hle htracks

theorem setWorker {worker : WorkerState} (hnew : ∀ claim stage, worker = .holding claim stage →
      (∃ job, s.store.jobs.get claim.jobId = some job ∧
        claim.fencingToken ≤ job.fencingToken ∧
        (job.OwnedBy (env.workerId w) claim.fencingToken → job.Tracks stage.active)) ∧
      ∀ w' claim' stage', w' ≠ w → s.workers w' = .holding claim' stage' →
        claim.jobId = claim'.jobId → claim.fencingToken ≠ claim'.fencingToken) :
    (s.setWorker w worker).Valid env where
  fresh := h.fresh
  sound := h.sound
  held := by
    intro w' claim stage hw'
    by_cases hw : w' = w
    · subst hw
      exact (hnew claim stage (by simpa [setWorker] using hw')).1
    · exact h.held w' claim stage (by simpa [Cluster.setWorker, hw] using hw')
  single := by
    intro w₁ w₂ c₁ c₂ g₁ g₂ h₁ h₂ hid htok
    by_cases hw₁ : w₁ = w <;> by_cases hw₂ : w₂ = w
    · exact hw₁.trans hw₂.symm
    · subst hw₁
      have hnew₁ := hnew c₁ g₁ (by simpa [setWorker] using h₁)
      exact absurd htok (hnew₁.2 w₂ c₂ g₂ hw₂ (by simpa [setWorker, hw₂] using h₂) hid)
    · subst hw₂
      have hnew₂ := hnew c₂ g₂ (by simpa [setWorker] using h₂)
      exact absurd htok.symm (hnew₂.2 w₁ c₁ g₁ hw₁ (by simpa [setWorker, hw₁] using h₁) hid.symm)
    · exact h.single w₁ w₂ c₁ c₂ g₁ g₂ (by simpa [Cluster.setWorker, hw₁] using h₁)
        (by simpa [Cluster.setWorker, hw₂] using h₂) hid htok

theorem onward (hw : s.workers w = .holding claim stage) {next : Option Stage}
    (hactive : ∀ g ∈ next, g.active = stage.active) :
    (s.setWorker w (.onward claim next)).Valid env := by
  refine h.setWorker ?_
  intro claim' g hg
  cases next with
  | none => exact nomatch hg
  | some next =>
    obtain ⟨rfl, rfl⟩ := WorkerState.holding.inj hg
    refine ⟨?_, ?_⟩
    · rw [hactive next rfl]
      exact h.held w claim stage hw
    · intro w' claim' stage' hne hw' hid htok
      exact hne (h.single w w' claim claim' stage stage' hw hw' hid htok).symm

theorem moved {g : Stage} (hw : s.workers w = .holding claim stage)
    (hactive : g.active = stage.active) : (s.setWorker w (.holding claim g)).Valid env :=
  h.onward hw fun _ hg => Option.some.inj hg ▸ hactive

theorem idle (w : ℕ) : (s.setWorker w .idle).Valid env :=
  h.setWorker fun _ _ hg => nomatch hg

end Cluster.Valid

/-! ### The writes of a worker -/

theorem Stage.raised_active {g : Stage} (h : g ∈ stage.raised) : g.active = stage.active := by
  cases stage with
  | cancelling handler active => cases handler <;> simp_all [raised, Stage.active, eq_comm]
  | _ => simp_all [raised, active, eq_comm]

theorem Stage.polled_active (requested : Bool) (stage : Stage) :
    (stage.polled requested).active = stage.active := by
  cases stage <;> cases requested <;> rfl

variable {claimed : Option String}

theorem completeCase_onRow {caseId : String} {execution : CaseRow.Execution}
    (h : (completeCase caseId execution).onRow now job = .ok (claimed, next)) :
    ∃ case, findCase caseId job.cases = some case ∧ (case.status = .completed ∧ next = job ∨
        case.status = .running ∧ next = job.completeCase caseId execution now) := by
  simp only [onRow, ok_rules] at h
  obtain ⟨case, hfind, h⟩ := h
  refine ⟨case, hfind, ?_⟩
  split at h <;> simp only [ok_rules, not_not] at h
  next hcompleted => exact .inl ⟨hcompleted, h.2.symm⟩
  next =>
    obtain ⟨_, hrunning, -, rfl⟩ := h
    exact .inr ⟨hrunning, rfl⟩

theorem finishJob_onRow {report : RagEvalReport}
    (h : (finishJob report).onRow now job = .ok (claimed, next)) :
    job.completedCases = job.totalCases ∧ job.CoveredBy report ∧ next = job.succeed report now := by
  simp only [onRow, ok_rules, not_not] at h
  obtain ⟨_, hall, _, hcovered, -, rfl⟩ := h
  exact ⟨hall, hcovered, rfl⟩

theorem claimCase_onRow (h : claimCase.onRow now job = .ok (claimed, next)) :
    claimed = none ∧ next = job ∨ ∃ case, job.nextCase = some case ∧ claimed = some case.caseId ∧
        next = job.startCase case.caseId now := by
  simp only [onRow] at h
  split at h
  · simp only [ok_rules] at h
    exact .inl ⟨h.1.symm, h.2.symm⟩
  · cases hnext : job.nextCase <;> simp only [hnext, ok_rules] at h <;> obtain ⟨rfl, rfl⟩ := h
    · exact .inl ⟨rfl, rfl⟩
    · exact .inr ⟨_, rfl, rfl, rfl⟩

/-- A write that the owner makes from its stage keeps the row sound, and the worker knows
the running case afterwards. -/
theorem Stage.write_sound {payload : Payload} {write : Write} (h : job.Sound)
    (howned : job.status.Owned) (hactive : job.Tracks stage.active)
    (hwrite : stage.write payload = some write) (hok : write.onRow now job = .ok (claimed, next)) :
    next.Sound ∧ next.fencingToken = job.fencingToken ∧
      ∀ g ∈ stage.returned claimed, next.Tracks g.active := by
  unfold Stage.write at hwrite
  split at hwrite <;> simp only [Option.some.injEq, reduceCtorEq] at hwrite <;> subst hwrite
  · rcases claimCase_onRow hok with ⟨rfl, rfl⟩ | ⟨case, hnext, rfl, rfl⟩
    · refine ⟨h, rfl, fun g hg => ?_⟩
      cases hg
      exact hactive
    · refine ⟨h.startCase howned hactive hnext now, rfl, fun g hg => ?_⟩
      cases hg
      exact JobRow.tracks_startCase h.toLedger hactive case.caseId now
  · rename_i caseId execution
    obtain ⟨case, hfind, hcase⟩ := completeCase_onRow hok
    obtain ⟨hmem, hid⟩ := findCase_mem hfind
    have hrunning : case.status = .running := by
      rw [hactive case hmem, hid]
      rfl
    rcases hcase with ⟨hcompleted, rfl⟩ | ⟨-, rfl⟩
    · simp [hcompleted] at hrunning
    · have hidle := JobRow.tracks_completeCase h.toLedger hactive execution now
      refine ⟨.of_owned (h.completeCase hfind (by simp [hrunning]) execution now) hidle howned, rfl,
        fun g hg => ?_⟩
      cases hg
      exact hidle
  · obtain ⟨hall, hcovered, rfl⟩ := finishJob_onRow hok
    exact ⟨h.succeed hall hcovered now, rfl, by simp [returned]⟩
  · simp only [onRow, ok_rules] at hok
    obtain ⟨-, rfl⟩ := hok
    exact ⟨h.fail hactive now, rfl, by simp [returned]⟩
  · simp only [onRow, ok_rules] at hok
    obtain ⟨-, rfl⟩ := hok
    exact ⟨h.cancelLocked now, rfl, by simp [returned]⟩

variable {workerId : String} {fencingToken : ℕ}

theorem Write.perform_eq_ok {write : Write} {s s' : Store}
    (h : write.perform jobId workerId fencingToken now s = .ok (claimed, s')) :
    ∃ job next, s.jobs.get jobId = some job ∧ job.OwnedBy workerId fencingToken ∧
      write.onRow now job = .ok (claimed, next) ∧ s' = s.setJob jobId next := by
  simp only [perform, ok_rules, not_not] at h
  obtain ⟨job, hjob, _, howned, ⟨_, next⟩, hrow, rfl, rfl⟩ := h
  exact ⟨job, next, hjob, howned, hrow, rfl⟩

namespace Cluster.Valid

variable {store : Store} (h : s.Valid env)

include h

theorem write {payload : Payload} {write : Write}
    (hw : s.workers w = .holding claim stage) (hwrite : stage.write payload = some write)
    (hjob : s.store.jobs.get claim.jobId = some job)
    (howned : job.OwnedBy (env.workerId w) claim.fencingToken)
    (hrow : write.onRow now job = .ok (claimed, next)) :
    (({ s with store := s.store.setJob claim.jobId next } : Cluster).setWorker w
      (.onward claim (stage.returned claimed))).Valid env := by
  obtain ⟨job', hjob', -, htracks⟩ := h.held w claim stage hw
  cases hjob.symm.trans hjob'
  obtain ⟨hsound, htoken, hnext⟩ :=
    write_sound (h.sound _ _ hjob) howned.2.2 (htracks howned) hwrite hrow
  -- Another holder of the job has another token, so it does not own the row.
  have hothers : ∀ w' claim' stage', w' ≠ w → s.workers w' = .holding claim' stage' →
      claim.jobId = claim'.jobId → claim.fencingToken ≠ claim'.fencingToken :=
    fun w' claim' stage' hne hw' hid htok =>
      hne (h.single w w' claim claim' stage stage' hw hw' hid htok).symm
  have hset : (({ s with store := s.store.setJob claim.jobId next } : Cluster).setWorker w
      .idle).Valid env := by
    refine (h.idle w).replace hjob hsound htoken.ge ?_
    intro w' claim' stage' hw' hid howned'
    by_cases hne : w' = w
    · simp [Cluster.setWorker, hne] at hw'
    · have hw'' : s.workers w' = .holding claim' stage' := by
        simpa [Cluster.setWorker, hne] using hw'
      have hsame : next.fencingToken = claim'.fencingToken := howned'.2.1
      exact absurd (howned.2.1.symm.trans (htoken.symm.trans hsame))
        (hothers w' claim' stage' hne hw'' hid.symm)
  rw [← setWorker_setWorker (a := .idle)]
  refine hset.setWorker ?_
  intro claim' g hg
  cases hreturned : stage.returned claimed with
  | none => simp [hreturned, WorkerState.onward] at hg
  | some g' =>
    simp only [hreturned, WorkerState.onward, WorkerState.holding.injEq] at hg
    obtain ⟨rfl, rfl⟩ := hg
    refine ⟨⟨next, by simp [Cluster.setWorker, setJob_get], ?_, fun _ => hnext g' hreturned⟩, ?_⟩
    · exact (howned.2.1.symm.trans htoken.symm).le
    · intro w' claim' stage' hne hw'
      exact hothers w' claim' stage' hne (by simpa [Cluster.setWorker, hne] using hw')

theorem act (w : ℕ) (payload : Payload) (now : Time) : (act env w payload now s).Valid env := by
  unfold Cluster.act
  split
  next claim stage hw =>
    split
    next write hwrite =>
      split
      next claimed store' hok =>
        obtain ⟨job, next, hjob, howned, hrow, rfl⟩ := perform_eq_ok hok
        exact h.write hw hwrite hjob howned hrow
      next => exact h.onward hw fun g hg => raised_active hg
    next => exact h
  next => exact h

theorem evaluate (w : ℕ) (metadata : Dict) : (evaluate env w metadata s).Valid env := by
  unfold Cluster.evaluate
  split
  next claim hw =>
    split
    · exact h.moved hw rfl
    · exact h.moved hw rfl
  next => exact h

theorem evaluatePartial (w : ℕ) (metadata : Dict) :
    (evaluatePartial env w metadata s).Valid env := by
  unfold Cluster.evaluatePartial
  split
  next hw => exact h.moved hw rfl
  next => exact h

theorem raise (w : ℕ) : (raise w s).Valid env := by
  unfold Cluster.raise
  split
  next hw => exact h.onward hw fun g hg => raised_active hg
  next => exact h.idle w

theorem reconcile (reports : ℕ → Option RagEvalReport) (now : Time) :
    ({ s with store := (reconcileExpired reports now s.store).2 } : Cluster).Valid env := by
  refine h.store ?_ ?_ ?_
  · intro id hid
    rw [reconcileExpired_get, h.fresh id ((recoverJobs_nextJob reports now _ s.store).symm ▸ hid)]
    rfl
  · intro id job hjob
    rw [reconcileExpired_get] at hjob
    obtain ⟨old, hold, rfl⟩ := Option.map_eq_some_iff.mp hjob
    split
    · exact (h.sound id old hold).recover (reports id) now
    · exact h.sound id old hold
  · intro id job hjob
    refine ⟨_, by rw [reconcileExpired_get, hjob]; rfl, ?_⟩
    dsimp only
    split
    · exact job.follows_recover (reports id) now
    · exact .refl job

theorem claimNext (w : ℕ) (leaseSeconds : ℤ) (locked : List ℕ) (now : Time) :
    (claimNext env w leaseSeconds locked now s).Valid env := by
  unfold Cluster.claimNext
  split
  next hw =>
    split
    next jobId claimed store' hclaim =>
      obtain ⟨job, hget, hqueued, rfl, rfl⟩ := claimQueued_eq_some hclaim
      have hset := h.setJob hget
        ((h.sound _ _ hget).claim hqueued (env.workerId w) leaseSeconds now)
        (job.follows_claim (env.workerId w) leaseSeconds now)
      refine hset.setWorker ?_
      intro claim g hg
      obtain ⟨rfl, rfl⟩ := WorkerState.holding.inj hg
      refine ⟨⟨_, by simp [setJob_get], le_rfl, fun _ =>
        ((h.sound _ _ hget).waiting hqueued).congr rfl⟩, ?_⟩
      -- The tokens that are held are those of earlier claims.
      intro w' claim' stage' _ hw' hid htok
      obtain ⟨old, hold, hle, -⟩ := h.held w' claim' stage' hw'
      rw [← hid, hget] at hold
      cases hold
      have hnew : job.fencingToken + 1 = claim'.fencingToken := htok
      omega
    next => exact h.idle w
  next => exact h

theorem createJob (hok : createJob username datasetId gatePolicy baselineJobId
    maxAttempts now s.store = .ok (id, store)) : ({ s with store } : Cluster).Valid env := by
  obtain ⟨job, hsound, -, hnext, hget⟩ := createJob_eq_ok hok
  have hnone : s.store.jobs.get s.store.nextJob = none := h.fresh _ le_rfl
  refine h.store ?_ ?_ ?_
  · intro k hk
    have hlt : s.store.nextJob < k := by
      have hle : store.nextJob ≤ k := hk
      omega
    rw [hget, Function.update_of_ne hlt.ne']
    exact h.fresh k hlt.le
  · intro k row hrow
    rw [hget] at hrow
    by_cases hk : k = s.store.nextJob
    · subst hk
      rw [Function.update_self] at hrow
      exact Option.some.inj hrow ▸ hsound
    · rw [Function.update_of_ne hk] at hrow
      exact h.sound k row hrow
  · rw [hget]
    exact Evolves.update (fun _ => .refl) fun old hold => by simp [hnone] at hold

theorem createDataset
    (hok : createDataset username dataset fingerprint now s.store = .ok (id, store)) :
    ({ s with store } : Cluster).Valid env := by
  have hjobs := createDataset_jobs hok
  refine h.store ?_ ?_ ?_
  · rw [hjobs.1, hjobs.2]
    exact h.fresh
  · rw [hjobs.1]
    exact h.sound
  · rw [hjobs.1]
    exact Evolves.refl (fun _ => .refl) _

theorem cancel (hok : cancel jobId now s.store = .ok (status, store)) :
    ({ s with store } : Cluster).Valid env := by
  obtain ⟨job, next, hjob, -, rfl, hnext⟩ := cancel_eq_ok hok
  obtain ⟨hsound, hfollows⟩ := (h.sound _ _ hjob).cancel hnext
  exact h.setJob hjob hsound hfollows

theorem heartbeat {leaseSeconds : ℤ}
    (hok : (heartbeat leaseSeconds).perform jobId workerId fencingToken now s.store =
    .ok (claimed, store)) : ({ s with store } : Cluster).Valid env := by
  obtain ⟨job, next, hjob, howned, hrow, rfl⟩ := perform_eq_ok hok
  simp only [onRow, ok_rules] at hrow
  obtain ⟨-, rfl⟩ := hrow
  have hsound := h.sound _ _ hjob
  obtain ⟨active, hactive⟩ := hsound.serial
  exact h.setJob hjob (.of_owned (hsound.congr rfl rfl rfl) (hactive.congr rfl) howned.2.2)
    (.of_same rfl rfl howned.2.2 rfl)

theorem commit {α : Type} {outcome : Except Fault (α × Store)}
    (hok : ∀ a store, outcome = .ok (a, store) → ({ s with store } : Cluster).Valid env) :
    ({ s with store := commit s.store outcome } : Cluster).Valid env := by
  cases outcome with
  | error e => exact h
  | ok result => exact hok result.1 result.2 rfl

theorem exec (i : Input) : (exec env s i).Valid env := by
  cases i with
  | createDataset username dataset now => exact h.commit fun _ _ hok => h.createDataset hok
  | createJob username datasetId gatePolicy baselineJobId maxAttempts now =>
    exact h.commit fun _ _ hok => h.createJob hok
  | cancel jobId now => exact h.commit fun _ _ hok => h.cancel hok
  | reconcile metadata now => exact h.reconcile _ now
  | heartbeat jobId workerId fencingToken leaseSeconds now =>
    exact h.commit fun _ _ hok => h.heartbeat hok
  | poll w metadata now =>
    simp only [SuperMew.Evaluation.exec]
    split
    next hw => exact (h.reconcile _ now).setWorker fun _ _ hg => nomatch hg
    next => exact h
  | claimNext w leaseSeconds locked now => exact h.claimNext w leaseSeconds locked now
  | cancelRequested w =>
    simp only [SuperMew.Evaluation.exec]
    split
    next claim stage hw => exact h.moved hw (polled_active _ stage)
    next => exact h
  | act w payload now => exact h.act w payload now
  | evaluate w metadata => exact h.evaluate w metadata
  | evaluatePartial w metadata => exact h.evaluatePartial w metadata
  | raise w => exact h.raise w
  | crash w => exact h.idle w

omit h in
theorem run (env : Deployment) (users : List String) (inputs : List Input) :
    (Machine.run (SuperMew.Evaluation.exec env) (Cluster.boot users) inputs).Valid env :=
  Machine.run_preserves (fun _ i h => h.exec i) (boot env users) inputs

end Cluster.Valid

/-! ### Consistency of jobs and cases -/

namespace JobRow

structure Consistent (job : JobRow) : Prop where
  completed : job.completedCases = job.cases.countP fun c => c.status = .completed
  observed : job.completedCases = job.cases.countP fun c => c.observation.isSome
  total : job.totalCases = job.cases.length
  bounded : job.completedCases ≤ job.totalCases
  serial : (job.cases.countP fun c => c.status = .running) ≤ 1
  ended : job.status.Terminal → job.ownerWorkerId = none ∧ job.leaseExpiresAt = none ∧
    ∀ c ∈ job.cases, c.status ≠ .queued ∧ c.status ≠ .running
  succeeded : job.status = .succeeded → (∀ c ∈ job.cases, c.status = .completed) ∧
    ∃ report, job.report = some report ∧
      ∀ caseId, caseId ∈ report.cases.map RagEvalCaseResult.caseId ↔
        caseId ∈ job.cases.map CaseRow.caseId

/-- The worker or the token is not the one of the last claim. -/
def Outdated (job : JobRow) (workerId : String) (fencingToken : ℕ) : Prop :=
  job.ownerWorkerId ≠ some workerId ∨ job.fencingToken ≠ fencingToken

/-- Cases with different ids cannot both be the active one. -/
theorem Ledger.running_le_one (h : job.Ledger) {active : Option String}
    (hactive : job.Tracks active) : (job.cases.countP fun c => c.status = .running) ≤ 1 := by
  have hsub : job.cases.countP (fun c => c.status = .running) ≤
      (job.cases.map CaseRow.caseId).countP fun id => active = some id := by
    rw [List.countP_map]
    refine List.countP_mono_left fun c hc hrunning => ?_
    simpa using (hactive c hc).mp (by simpa using hrunning)
  refine hsub.trans ?_
  cases active with
  | none => simp
  | some caseId =>
    have hcount : (job.cases.map CaseRow.caseId).countP (fun id => some caseId = some id) =
        (job.cases.map CaseRow.caseId).count caseId := by
      refine List.countP_congr fun id _ => ?_
      rw [decide_eq_true_iff, Option.some.injEq, beq_iff_eq, eq_comm]
    rw [hcount]
    exact List.nodup_iff_count_le_one.mp h.ids caseId

theorem Sound.consistent (h : job.Sound) : job.Consistent where
  completed := h.completed
  observed := by
    rw [h.completed]
    refine List.countP_congr fun c hc => ?_
    simp [h.observed c hc]
  total := h.total
  bounded := by
    rw [h.completed, h.total]
    exact List.countP_le_length
  serial := by
    obtain ⟨active, hactive⟩ := h.serial
    exact h.running_le_one hactive
  ended := h.ended
  succeeded := by
    intro hs
    obtain ⟨hcompleted, report, hreport, hcovered⟩ := h.succeeded hs
    refine ⟨hcompleted, report, hreport, fun caseId => ?_⟩
    rw [← List.mem_toFinset, hcovered, List.mem_toFinset]

end JobRow

theorem Write.perform_outdated {store : Store} (hjob : store.jobs.get jobId = some job)
    (h : job.Outdated workerId fencingToken) (write : Write) (now : Time) :
    write.perform jobId workerId fencingToken now store = .error (.app Errors.notOwner) := by
  have hnot : ¬ job.OwnedBy workerId fencingToken := fun howned =>
    h.elim (· howned.1) (· howned.2.1)
  have hraise : raiseIf (¬ job.OwnedBy workerId fencingToken) Errors.notOwner =
      .error (.app Errors.notOwner) := raiseIf_eq_error.mpr ⟨hnot, rfl⟩
  simp only [perform, hjob, orRaise, ok_bind, hraise]
  rfl

/-- In every reachable state every job agrees with its cases, and a write with an outdated
worker or token raises and changes nothing. -/
theorem evaluation_jobs_consistent (env : Deployment) (users : List String) (inputs : List Input) :
    let s := Machine.run (exec env) (boot users) inputs
    (∀ id job, s.store.jobs.get id = some job → job.Consistent) ∧
      (∀ jobId job workerId fencingToken, s.store.jobs.get jobId = some job →
        job.Outdated workerId fencingToken → ∀ (write : Write) (now : Time),
          write.perform jobId workerId fencingToken now s.store =
            .error (.app Errors.notOwner)) ∧
      ∀ w claim stage job, s.workers w = .holding claim stage →
        s.store.jobs.get claim.jobId = some job →
        job.Outdated (env.workerId w) claim.fencingToken → ∀ payload now,
          (exec env s (.act w payload now)).store = s.store := by
  intro s
  have hvalid : s.Valid env := .run env users inputs
  refine ⟨fun id job hjob => (hvalid.sound id job hjob).consistent, ?_, ?_⟩
  · intro jobId job workerId fencingToken hjob houtdated write now
    exact perform_outdated hjob houtdated write now
  · intro w claim stage job hw hjob houtdated payload now
    simp only [exec, act, hw]
    split
    next write _ =>
      rw [perform_outdated hjob houtdated write now]
      rfl
    next => rfl

end SuperMew.Evaluation
