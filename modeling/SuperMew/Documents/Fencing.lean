import SuperMew.Documents.Refinement.Calls

/-! Execution fencing: who may act on an index job, and what the calls of an execution
that has lost its lease can do. -/

namespace SuperMew.Documents

open Relational Catalog

/-- The call acts on job `j` in the name of the execution `k`. -/
def Call.Carries (call : Call) (j : Id) (k : IndexJobExecution) : Prop :=
  match call.op with
  | .assertIndexLease jobId execution _ => jobId = j ∧ execution = k
  | .heartbeatIndexJob r => r.jobId = j ∧ r.execution = k
  | .updateJob r => r.jobId = j ∧ r.execution = some k
  | .recordManifest r => r.jobId = j ∧ r.execution = some k
  | .publish r => r.jobId = j ∧ r.execution = some k
  | .scheduleIndexRetry r => r.jobId = j ∧ IndexJobExecution.mk r.workerId r.executionFence = k
  | .fail r => r.jobId = j ∧ r.execution = some k
  | .deadLetterIndexJob r => r.jobId = j ∧ r.execution = k
  | _ => False

def IndexJobExecution.ticket (k : IndexJobExecution) : Lease.Ticket String :=
  ⟨k.workerId, k.executionFence⟩

variable {s s' : Catalog} {j : Id} {k : IndexJobExecution}

/-- The execution holds the lease of the job at `clock`. -/
def Catalog.Held (s : Catalog) (clock : Time) (j : Id) (k : IndexJobExecution) : Prop :=
  ∃ job, s.jobs.get j = some job ∧ job.lease.Holds clock k.ticket

variable {clock : Time}

theorem held_of_guard {g : JobGraph} {tenantId : Option String} {u : Unit}
    (hg : jobGraph s j tenantId = .ok g) (h : assertIndexExecution g.job (some k) clock = .ok u) :
    s.Held clock j k := by
  obtain ⟨hjoined, rfl⟩ := jobGraph_ok hg
  exact ⟨g.job, hjoined.job, assertIndexExecution_some.mp h⟩

theorem Catalog.Held.not_lost (h : s.Held clock j k) : ¬ s.ledger.Lost clock j k.ticket := by
  obtain ⟨job, hj, hholds⟩ := h
  rintro ⟨state, hstate, hlost⟩
  rw [ledger_job hj] at hstate
  cases hstate
  exact hlost.2 hholds

/-- A claim renews the lease of its live owner under the old fence, or issues the next
fence; the fences of all other jobs stay. -/
theorem Claimed.fence {now : Time} {worker : String} {claimed : Option Id} {a b : Ledger}
    (h : Claimed now worker claimed a b) {job : JobState} (hj : a.jobs j = some job) :
    ∃ job', b.jobs j = some job' ∧ (job'.lease.fence = job.lease.fence ∧
          (claimed = some j → job.lease.Holds now ⟨worker, job.lease.fence⟩) ∨
        claimed = some j ∧ job'.lease.fence = job.lease.fence + 1) := by
  cases h with
  | @renewed _ _ i owned hi hheld hstep =>
    have hsteps : Steps now [.hold] a b := .single hstep (by simp)
    obtain ⟨job', hj', hfence⟩ := hsteps.fence_eq (by simp) j job hj
    refine ⟨job', hj', .inl ⟨hfence, fun heq => ?_⟩⟩
    cases heq
    obtain rfl := Option.mem_unique hi hj
    exact hheld
  | @granted _ mid _ i hdiscards hstep =>
    obtain ⟨middle, hm, hfence⟩ := hdiscards.fence_eq (by simp) j job hj
    obtain ⟨job', hj', hmove⟩ := hstep.lease j middle hm
    refine ⟨job', hj', ?_⟩
    by_cases hij : i = j
    · subst hij
      cases hstep with
      | acquire hi =>
        obtain rfl := Option.mem_unique hi hm
        simp only [Ledger.setJob_jobs, Function.update_self, Option.some.injEq] at hj'
        obtain rfl := hj'
        exact .inr ⟨rfl, by rw [hfence]⟩
    · have hkept := hmove.fence.resolve_right (by
        rintro ⟨w, heq, -⟩
        exact hij (Action.acquire.inj heq).1)
      exact .inl ⟨hkept.trans hfence, fun heq => absurd (Option.some.inj heq) hij⟩
  | idle hdiscards =>
    obtain ⟨job', hj', hfence⟩ := hdiscards.fence_eq (by simp) j job hj
    exact ⟨job', hj', .inl ⟨hfence, by simp⟩⟩

theorem Op.acquire_mem_kinds {op : Op} (h : .acquire ∈ op.kinds) : ∃ r, op = .claimIndexJob r := by
  cases op <;> simp [Op.kinds] at h ⊢

/-- The execution was issued for job `j` and no longer passes the guard at `clock`: its
lease has run out, was given up or went to another execution. -/
def Catalog.Stale (s : Catalog) (clock : Time) (j : Id) (k : IndexJobExecution) : Prop :=
  ∃ job, s.jobs.get j = some job ∧ k.executionFence ≤ job.executionFence ∧
    assertIndexExecution job (some k) clock ≠ .ok ()

theorem Catalog.Stale.lost (h : s.Stale clock j k) : s.ledger.Lost clock j k.ticket := by
  obtain ⟨job, hj, hfence, hguard⟩ := h
  exact ⟨_, ledger_job hj, hfence, fun hheld => hguard (assertIndexExecution_some.mpr hheld)⟩

variable {build : VersionBuild} {call : Call}

section Runs

variable [Platform]

theorem recordManifest_held {env : Env} {r : ManifestRequest}
    (h : recordManifest env r s = .ok (build, s')) (hk : r.execution = some k) :
    s.Held env.databaseNow r.jobId k := by
  simp only [recordManifest, ok_rules] at h
  obtain ⟨_, _, _, _, _, _, g, hgraph, _, hguard, _⟩ := h
  rw [hk] at hguard
  exact held_of_guard hgraph hguard

/-- A call in the name of an execution leaves the catalog alone, or the execution holds
the lease. -/
theorem Call.Carries.held (hc : call.Carries j k) (h : call.commit s = .ok s') :
    s' = s ∨ s.Held call.clock j k := by
  obtain ⟨env, op⟩ := call
  cases op with
  | assertIndexLease jobId execution now =>
    obtain ⟨_, _, rfl⟩ := map_eq_ok.mp h
    exact .inl rfl
  | heartbeatIndexJob r =>
    obtain ⟨rfl, rfl⟩ := hc
    obtain ⟨⟨_, _⟩, hop, rfl⟩ := map_eq_ok.mp h
    simp only [heartbeatIndexJob, ok_rules] at hop
    obtain ⟨_, _, g, hgraph, _, hguard, _⟩ := hop
    exact .inr (held_of_guard hgraph hguard)
  | updateJob r =>
    obtain ⟨rfl, hk⟩ := hc
    obtain ⟨⟨_, _⟩, hop, rfl⟩ := map_eq_ok.mp h
    simp only [updateJob, ok_rules] at hop
    obtain ⟨_, _, _, _, g, hgraph, _, _, _, hguard, _⟩ := hop
    rw [hk] at hguard
    exact .inr (held_of_guard hgraph hguard)
  | recordManifest r =>
    obtain ⟨rfl, hk⟩ := hc
    exact of_map_snd h fun hop => .inr (recordManifest_held hop hk)
  | publish r =>
    obtain ⟨rfl, hk⟩ := hc
    obtain ⟨⟨_, _⟩, hop, rfl⟩ := map_eq_ok.mp h
    obtain rfl | ⟨g, hg, hid, hp, -⟩ := publish_ok hop
    · exact .inl rfl
    · exact .inr ⟨g.job, hid ▸ hg.job, assertIndexExecution_some.mp (hk ▸ hp.guard)⟩
  | scheduleIndexRetry r =>
    obtain ⟨rfl, rfl⟩ := hc
    obtain ⟨⟨_, _⟩, hop, rfl⟩ := map_eq_ok.mp h
    simp only [scheduleIndexRetry, ok_rules] at hop
    obtain ⟨_, _, _, _, g, hgraph, _, hguard, _⟩ := hop
    exact .inr (held_of_guard hgraph hguard)
  | fail r =>
    obtain ⟨rfl, hk⟩ := hc
    obtain ⟨⟨_, _⟩, hop, rfl⟩ := map_eq_ok.mp h
    simp only [fail, ok_rules, failLocked, hk] at hop
    obtain ⟨_, _, g, hgraph, s₁, ⟨_, _, hs₁⟩, _⟩ := hop
    simp only [reduceCtorEq, and_false, if_false, ok_rules] at hs₁
    obtain ⟨_, hguard, _⟩ := hs₁
    exact .inr (held_of_guard hgraph hguard)
  | deadLetterIndexJob r =>
    obtain ⟨rfl, rfl⟩ := hc
    obtain ⟨⟨_, _⟩, hop, rfl⟩ := map_eq_ok.mp h
    simp only [deadLetterIndexJob, ok_rules] at hop
    obtain ⟨_, _, g, hgraph, _, hguard, _⟩ := hop
    exact .inr (held_of_guard hgraph hguard)
  | _ => exact hc.elim

theorem exec_eq_of_lost (hc : call.Carries j k)
    (hlost : s.ledger.Lost call.clock j k.ticket) : exec s call = s := by
  unfold exec
  split
  · rename_i s' h
    rcases hc.held h with heq | hheld
    · exact heq
    · exact absurd hlost hheld.not_lost
  · rfl

/-! ## The fence -/

/-- The fence of a job changes only where a claim returns the job, and then by one. -/
theorem exec_fence (hw : s.ledger.Wf) {job job' : IndexJob} (hj : s.jobs.get j = some job)
    (hj' : (exec s call).jobs.get j = some job') (hne : job'.executionFence ≠ job.executionFence) :
    job'.executionFence = job.executionFence + 1 ∧ ∃ r build, call.op = .claimIndexJob r ∧
      claimIndexJob call.env r s = .ok (some build, exec s call) ∧ build.job.id = j := by
  have hacquire : .acquire ∈ call.op.kinds := by
    by_contra hnot
    obtain ⟨state, hstate, hfence⟩ :=
      (exec_refines hw call).fence_eq hnot j _ (ledger_job hj)
    rw [ledger_job hj'] at hstate
    cases hstate
    exact hne hfence
  obtain ⟨r, hop⟩ := Op.acquire_mem_kinds hacquire
  obtain ⟨env, op⟩ := call
  subst hop
  cases hres : claimIndexJob env r s with
  | error e =>
    simp only [exec, Call.commit, hres, Except.map] at hj'
    rw [hj] at hj'
    exact absurd (congrArg IndexJob.executionFence (Option.some.inj hj')).symm hne
  | ok result =>
    obtain ⟨build, s'⟩ := result
    have hexec : exec s ⟨env, .claimIndexJob r⟩ = s' := by
      simp [exec, Call.commit, hres, Except.map]
    rw [hexec] at hj' ⊢
    obtain ⟨worker, -, hclaimed⟩ := claimIndexJob_claimed hw hres
    obtain ⟨state, hstate, hfence⟩ := hclaimed.fence (ledger_job hj)
    rw [ledger_job hj'] at hstate
    cases hstate
    rcases hfence with ⟨hkept, -⟩ | ⟨hid, hnext⟩
    · exact absurd hkept hne
    · obtain ⟨b, rfl, hb⟩ := Option.map_eq_some_iff.mp hid
      exact ⟨hnext, r, b, rfl, hres, hb⟩

/-- A claim that returns the job is a renewal by the live owner or issues the next fence. -/
theorem claim_fence (hw : s.ledger.Wf) {env : Env} {r : ClaimRequest}
    (h : claimIndexJob env r s = .ok (some build, s')) {job : IndexJob}
    (hj : s.jobs.get build.job.id = some job) :
    ∃ job', s'.jobs.get build.job.id = some job' ∧ (job'.executionFence = job.executionFence + 1 ∨
        job'.executionFence = job.executionFence ∧
          ∃ worker, requiredText r.workerId "worker_id" 128 = .ok worker ∧
            assertIndexExecution job (some ⟨worker, job.executionFence⟩)
              (env.leaseClock r.now) = .ok ()) := by
  obtain ⟨worker, hworker, hclaimed⟩ := claimIndexJob_claimed hw h
  obtain ⟨state, hstate, hfence⟩ := hclaimed.fence (ledger_job hj)
  obtain ⟨job', hj', rfl⟩ := Option.map_eq_some_iff.mp hstate
  refine ⟨job', hj', ?_⟩
  rcases hfence with ⟨hkept, hheld⟩ | ⟨-, hnext⟩
  · exact .inr ⟨hkept, worker, hworker, assertIndexExecution_some.mpr (hheld rfl)⟩
  · exact .inl hnext

/-! ## Lost executions -/

/-- From the loss of its lease on, no call of the execution changes the catalog. -/
theorem stale_calls (hw : s.ledger.Wf) (h : s.Stale clock j k) {later : List Call}
    (hclock : Machine.ClockFrom Call.clock clock later) :
    Machine.Along exec (fun s call => call.Carries j k → exec s call = s) s later := by
  have hlater {t : Time} {s : Catalog} {call : Call} (hl : s.ledger.Lost t j k.ticket)
      (ht : t ≤ call.clock) : s.ledger.Lost call.clock j k.ticket := by
    obtain ⟨job, hj, hlost⟩ := hl
    exact ⟨job, hj, hlost.later ht⟩
  refine Machine.along_of_timed (I := fun t (s : Catalog) =>
    s.ledger.Wf ∧ s.ledger.Lost t j k.ticket) ?_ ?_ ⟨hw, h.lost⟩ hclock
  · rintro t s call ⟨hw, hl⟩ ht
    exact ⟨exec_wf hw call, (exec_refines hw call).lost (hlater hl ht)⟩
  · rintro t s call ⟨-, hl⟩ ht hc
    exact exec_eq_of_lost hc (hlater hl ht)

/-- The guarantees that the executions of one index job have. -/
structure Catalog.Fenced (s : Catalog) (j : Id) (job : IndexJob) : Prop where
  /-- Nothing but a claim that returns the job moves its execution fence. -/
  moved : ∀ call job', (exec s call).jobs.get j = some job' →
    job'.executionFence ≠ job.executionFence →
      job'.executionFence = job.executionFence + 1 ∧ ∃ r build, call.op = .claimIndexJob r ∧
        claimIndexJob call.env r s = .ok (some build, exec s call) ∧ build.job.id = j
  /-- A claim that returns the job moves the fence, or renews the lease of its live owner. -/
  claimed : ∀ env r build s', claimIndexJob env r s = .ok (some build, s') → build.job.id = j →
    ∃ job', s'.jobs.get j = some job' ∧
      (job'.executionFence = job.executionFence + 1 ∨
        job'.executionFence = job.executionFence ∧
          ∃ worker, requiredText r.workerId "worker_id" 128 = .ok worker ∧
            assertIndexExecution job (some ⟨worker, job.executionFence⟩)
              (env.leaseClock r.now) = .ok ())
  exclusive : ∀ clock k k', assertIndexExecution job (some k) clock = .ok () →
    assertIndexExecution job (some k') clock = .ok () → k = k'
  /-- An execution that has lost its lease changes no row from then on. -/
  stale : ∀ clock k later, s.Stale clock j k → Machine.ClockFrom Call.clock clock later →
    Machine.Along exec (fun s call => call.Carries j k → exec s call = s) s later
  /-- No call, and so no claim, changes the publication fence. -/
  publicationFence : ∀ call, ∃ job', (exec s call).jobs.get j = some job' ∧
    job'.publicationFence = job.publicationFence

/-- Every index job of every reachable catalog is fenced. -/
theorem index_execution_fencing (calls : List Call) (j : Id) (job : IndexJob)
    (hj : (after calls).jobs.get j = some job) : (after calls).Fenced j job := by
  have hw := after_wf calls
  constructor
  case moved =>
    intro call job' hj' hne
    exact exec_fence hw hj hj' hne
  case claimed =>
    rintro env r build s' h rfl
    exact claim_fence hw h hj
  case exclusive =>
    rintro clock ⟨worker, fence⟩ ⟨worker', fence'⟩ h h'
    have hunique := (assertIndexExecution_some.mp h).unique (assertIndexExecution_some.mp h')
    obtain ⟨rfl, rfl⟩ := Lease.Ticket.mk.inj hunique
    rfl
  case stale =>
    intro clock k later hstale hclock
    exact stale_calls hw hstale hclock
  case publicationFence =>
    intro call
    obtain ⟨state, hstate, hlater⟩ :=
      ((exec_refines hw call).later hw).jobs j _ (ledger_job hj)
    obtain ⟨job', hj', rfl⟩ := Option.map_eq_some_iff.mp hstate
    exact ⟨job', hj', hlater.fence⟩

end Runs

open PlainPlatform in
theorem index_execution_fencing_claimed :
    let calls := [Sample.createBase, Sample.upload 1 1 'a', Sample.claim 2 "w"]
    ∃ job, (after calls).jobs.get 1 = some job ∧ job.executionFence = 1 ∧
      (after calls).Fenced 1 job := by
  have hj : ((after [Sample.createBase, Sample.upload 1 1 'a',
    Sample.claim 2 "w"]).jobs.get 1).isSome = true := by decide +kernel
  have hget := (Option.some_get hj).symm
  exact ⟨_, hget, by decide +kernel +revert, index_execution_fencing _ 1 _ hget⟩

end SuperMew.Documents
