import SuperMew.Documents.Jobs
import SuperMew.Documents.Refinement.Shared

/-! The operations on index jobs as steps of the protocol. -/

namespace SuperMew.Documents

open Relational Catalog IndexJobStatus Ledger

variable {s s' : Catalog} {env : Env} {clock : Time}

/-! ## Publication -/

/-- The checks of `publish` that stand before its writes. -/
structure Publishable (env : Env) (g : JobGraph) (r : PublishRequest) : Prop where
  guard : assertIndexExecution g.job r.execution env.databaseNow = .ok ()
  candidate : g.IsCandidate
  expected : g.document.currentVersionId = r.expectedCurrentVersionId
  staged : g.version.status = .staged

variable {g : JobGraph} {now : Time} {record : JobRecord} {worker : String} {r : UpdateRequest}
  {next : IndexJobStatus} {job : IndexJob} {capability : Option String} {claimed : Option Id}
  {result : PublicationResult} {leaseSeconds : ℤ}

theorem publish_ok {r : PublishRequest} (h : publish env r s = .ok (result, s')) :
    s' = s ∨ ∃ g, s.Joined g ∧ g.jobId = r.jobId ∧ Publishable env g r ∧
      publishCandidate env g r.expectedCurrentVersionId s = .ok (result, s') := by
  simp only [publish, ok_rules] at h
  obtain ⟨g, hgraph, h⟩ := h
  obtain ⟨hg, hid⟩ := jobGraph_ok hgraph
  split at h
  · simp only [ok_rules] at h
    obtain ⟨_, _, _, rfl⟩ := h
    exact .inl rfl
  · simp only [ok_rules, not_not] at h
    obtain ⟨_, hguard, _, hcand, _, _, _, hstaged, _, _, _, hcas, h⟩ := h
    exact .inr ⟨g, hg, hid, ⟨hguard, (assertCandidate_ok hcand).1, hcas.2.2.2, hstaged⟩, h⟩

/-- The published version replaces the one that was current. -/
theorem publishCandidate_steps (hw : s.ledger.Wf) (hg : s.Joined g)
    {r : PublishRequest} (hp : Publishable env g r)
    (h : publishCandidate env g r.expectedCurrentVersionId s = .ok (result, s')) :
    (g.document.currentVersionId = none ∧
      Step clock (.promote g.documentId g.versionId) s.ledger s'.ledger) ∨
    ∃ p mid, g.document.currentVersionId = some p ∧
      Step clock (.drop g.documentId p (env.databaseNow + replacementCleanupGrace)) s.ledger mid ∧
      Step clock (.promote g.documentId g.versionId) mid s'.ledger := by
  have hd := ledger_document hg.document
  have hv := ledger_version hg.version
  have hj := ledger_job hg.job
  simp only [publishCandidate, ok_rules] at h
  obtain ⟨previous, hprev, s₁, hs₁, record, _, _, rfl⟩ := h
  obtain ⟨rfl, hnone⟩ | ⟨p, row, rfl, hsome, hrow, hrowd⟩ := versionByPointer_ok hprev
  · left
    cases hs₁
    have hcur : g.document.currentVersionId = none := hp.expected.trans hnone
    refine ⟨hcur, ?_⟩
    simp only [ledger_bumpRevision, ledger_putJob, ledger_putVersion, ledger_putDocument]
    exact .promote hd hcur hp.candidate.pending hv hp.staged hj rfl
  · right
    have hcur : g.document.currentVersionId = some p := hp.expected.trans hsome
    have hrow' : s.versions.get p = some row := hrow
    obtain ⟨-, hready⟩ := hw.current_version hd hcur (ledger_version hrow')
    have hne : p ≠ g.versionId := by
      rintro rfl
      rw [hg.version] at hrow'
      cases hrow'
      exact absurd hready (by rw [show g.version.state.status = .staged from hp.staged]; decide)
    have hn : s.cleanupForVersion p = none := cleanupForVersion_none hw.cleanups hrow' (by
      rw [show row.status = .ready from hready]
      decide)
    simp only [supersedePrevious, ne_eq, hne, not_false_eq_true, if_true] at hs₁
    obtain ⟨hfree, hs₁⟩ := supersedeVersion_keep (by simpa using hn) hs₁
    obtain ⟨mid, hdrop, hpromote⟩ := Step.replace hd hcur hp.candidate.pending hne.symm
      (ledger_version hrow') hv hp.staged hj rfl (ledger_cleanup_none.mpr hfree)
    refine ⟨p, mid, hcur, hdrop, ?_⟩
    simp only [ledger_bumpRevision, ledger_putJob, ledger_putVersion, hs₁, ledger_putDocument]
    exact hpromote

theorem publish_steps (hw : s.ledger.Wf) {r : PublishRequest}
    (h : publish env r s = .ok (result, s')) : Steps clock [.drop, .promote] s.ledger s'.ledger := by
  obtain rfl | ⟨g, hg, -, hp, h⟩ := publish_ok h
  · exact .none rfl
  · obtain ⟨-, hstep⟩ | ⟨p, mid, -, hdrop, hstep⟩ := publishCandidate_steps hw hg hp h
    · exact .single hstep (by simp)
    · exact .trans (.single hdrop (by simp)) (.single hstep (by simp))

/-! ## Calls of an execution -/

theorem heartbeatIndexJob_steps (hw : s.ledger.Wf) {r : LeaseRequest}
    (h : heartbeatIndexJob env r s = .ok (record, s')) :
    Steps (env.leaseClock r.now) [.hold] s.ledger s'.ledger := by
  simp only [heartbeatIndexJob, ok_rules] at h
  obtain ⟨_, _, g, hgraph, _, hlive, _, hcand, _, _, _, rfl⟩ := h
  obtain ⟨hg, hid⟩ := jobGraph_ok hgraph
  have hheld := assertIndexExecution_some.mp hlive
  obtain ⟨-, -, hb⟩ := hg.candidate hw (assertCandidate_ok hcand).1.open_job
  rw [ledger_putJob, ← hid]
  exact .single (.hold_job (ledger_job hg.job) (ledger_version hg.version) hb hb
    (.renew _ _ _ hheld) rfl) (by simp)

/-- A retry keeps STAGED and turns every other status into RETRY_WAIT. -/
theorem Building.retried {status : IndexJobStatus} {stage : DocumentVersionStatus}
    (h : Building status stage) :
    Building (if status = .staged then .staged else .retryWait) stage := by
  have hs := h.staged
  refine ⟨?_, h.candidate, ?_⟩
  · split <;> rfl
  · split <;> simp_all

theorem scheduleIndexRetry_steps [Platform] (hw : s.ledger.Wf) {r : RetryRequest}
    (h : scheduleIndexRetry env r s = .ok (record, s')) :
    Steps clock [.hold, .discard] s.ledger s'.ledger := by
  simp only [scheduleIndexRetry, ok_rules] at h
  obtain ⟨_, _, _, _, g, hgraph, _, _, _, hcand, s₁, hs₁, _, _, _, rfl⟩ := h
  obtain ⟨hg, hid⟩ := jobGraph_ok hgraph
  obtain ⟨-, -, hb⟩ := hg.candidate hw (assertCandidate_ok hcand).1.open_job
  split at hs₁
  · exact (deadLetterLocked_steps hw hg hs₁).mono (by simp)
  · cases hs₁
    rw [ledger_putJob, ← hid]
    exact .single (.hold_job (ledger_job hg.job) (ledger_version hg.version) hb
      hb.retried (.release _) rfl) (by simp)

theorem deadLetterIndexJob_steps [Platform] (hw : s.ledger.Wf) {r : DeadLetterRequest}
    (h : deadLetterIndexJob env r s = .ok (record, s')) :
    Steps clock [.discard] s.ledger s'.ledger := by
  simp only [deadLetterIndexJob, ok_rules] at h
  obtain ⟨_, _, g, hgraph, _, _, s₁, hs₁, _, _, _, rfl⟩ := h
  exact deadLetterLocked_steps hw (jobGraph_ok hgraph).1 hs₁

theorem fail_steps [Platform] (hw : s.ledger.Wf) {r : FailRequest}
    (h : fail env r s = .ok (record, s')) : Steps clock [.discard] s.ledger s'.ledger := by
  simp only [fail, ok_rules] at h
  obtain ⟨_, _, g, hgraph, s₁, hs₁, _, _, _, rfl⟩ := h
  exact failLocked_steps hw (jobGraph_ok hgraph).1 hs₁

/-! ## Claiming -/

theorem leaseFree_iff :
    leaseFree job.ownerWorkerId job.leaseExpiresAt now = true ↔ job.lease.Free now := by
  cases howner : job.ownerWorkerId <;> cases hlease : job.leaseExpiresAt <;>
    simp [leaseFree, Lease.Register.Free, IndexJob.lease, IndexJob.state, howner, hlease]

theorem ready_open (h : job.ready now = true) :
    job.status.terminal = false ∧ job.lease.Free now := by
  rw [← leaseFree_iff]
  unfold IndexJob.ready at h
  split at h <;> simp_all [terminal]

theorem mem_jobGraphs (h : g ∈ s.jobGraphs) : s.Joined g := by
  obtain ⟨e, _, he⟩ := List.mem_filterMap.mp h
  exact (joined_of_join he).1

theorem readyJob_some (h : readyJob s capability clock = some g) :
    s.Joined g ∧ g.capable capability = true ∧ g.job.ready clock = true := by
  have hmem := firstBy_mem h
  rw [List.mem_filter, Bool.and_eq_true] at hmem
  exact ⟨mem_jobGraphs hmem.1, hmem.2⟩

theorem ownedJob_some (h : ownedJob s worker capability clock = some g) :
    s.Joined g ∧ g.job.status.terminal = false ∧
      g.job.lease.Holds clock ⟨worker, g.job.executionFence⟩ := by
  have hmem := firstBy_mem h
  rw [List.mem_filter, Bool.and_eq_true] at hmem
  obtain ⟨hin, -, howned⟩ := hmem
  simp only [JobGraph.ownedBy, Bool.and_eq_true, Bool.or_eq_true, beq_iff_eq, Option.any_eq_true,
    decide_eq_true_eq] at howned
  obtain ⟨⟨howner, hstatus⟩, hlease⟩ := howned
  refine ⟨mem_jobGraphs hin, ?_, howner, rfl, hlease⟩
  rcases hstatus with hstatus | hstatus <;> simp [hstatus, terminal]

theorem candidateOwned_of_open (hw : s.ledger.Wf) (hg : s.Joined g)
    (hopen : g.job.status.terminal = false) : g.candidateOwned = true := by
  obtain ⟨hp, hf, hb⟩ := hg.candidate hw hopen
  have hlive : g.document.deletedAt = none := by
    by_contra hdel
    have hnone := (hw.deleted _ _ (ledger_document hg.document)
      (Option.isSome_iff_ne_none.mpr hdel)).2
    simp [Document.state, hp] at hnone
  have hactive : g.version.status.active = true := by
    have hcand := hb.candidate
    cases hs : g.version.status <;> simp_all [DocumentVersionStatus.phase, DocumentVersionStatus.active]
  simp [JobGraph.candidateOwned, hlive, hp, hf, hactive]

theorem grantJob_step (hw : s.ledger.Wf) (hg : s.Joined g) (hready : g.job.ready clock = true) :
    Step clock (.acquire g.jobId worker) s.ledger
      (grantJob g worker clock leaseSeconds s).ledger := by
  obtain ⟨hopen, hfree⟩ := ready_open hready
  obtain ⟨-, -, hb⟩ := hg.candidate hw hopen
  have hj := ledger_job hg.job
  have hv := ledger_version hg.version
  have hs := hb.staged
  unfold grantJob
  split
  · rename_i hstaged
    have hclaimed : (g.job.claimed worker clock leaseSeconds).status = .staged := if_pos hstaged
    rw [ledger_putJob]
    refine .acquire_job hj hv hb ⟨?_, hb.candidate, ?_⟩ hfree
    · rw [hclaimed]
      rfl
    · exact iff_of_true (hs.mpr hstaged) hclaimed
  · rename_i hstaged
    rw [ledger_putVersion, ledger_putJob]
    have hcand : (claimedVersionStatus g.job.currentStep).phase = .candidate := by
      unfold claimedVersionStatus
      split <;> rfl
    have hne : claimedVersionStatus g.job.currentStep ≠ .staged := by
      unfold claimedVersionStatus
      split <;> decide
    have hclaimed : (g.job.claimed worker clock leaseSeconds).status = .running := if_neg hstaged
    refine .acquire hj hv hb ⟨?_, hcand, ?_⟩ (fun h => absurd h hne) hfree
    · rw [hclaimed]
      rfl
    · simp [hne, hclaimed]

/-- The claim loop dead-letters exhausted candidates until it grants a job or
finds none ready. -/
theorem claimLoop_steps {fuel : ℕ} (hw : s.ledger.Wf)
    (h : claimLoop env worker capability clock leaseSeconds fuel s = .ok (claimed, s')) :
    (claimed = none ∧ Steps clock [.discard] s.ledger s'.ledger) ∨
    ∃ j mid, claimed = some j ∧ Steps clock [.discard] s.ledger mid ∧
      Step clock (.acquire j worker) mid s'.ledger := by
  induction fuel generalizing s with
  | zero => simp [claimLoop] at h
  | succ fuel ih =>
    rw [claimLoop] at h
    cases hready : readyJob s capability clock with
    | none =>
      simp only [hready, Except.ok.injEq, Prod.mk.injEq] at h
      obtain ⟨rfl, rfl⟩ := h
      exact .inl ⟨rfl, .none rfl⟩
    | some g =>
      obtain ⟨hg, -, hr⟩ := readyJob_some hready
      have howned := candidateOwned_of_open hw hg (ready_open hr).1
      simp only [hready, howned, not_true_eq_false, if_false] at h
      split at h
      · simp only [ok_rules] at h
        obtain ⟨s₁, hs₁, h⟩ := h
        have hdead : Steps clock [.discard] s.ledger s₁.ledger :=
          deadLetterLocked_steps hw hg hs₁
        obtain ⟨hn, hsteps⟩ | ⟨j, mid, hj, hsteps, hlast⟩ := ih (hdead.wf hw) h
        · exact .inl ⟨hn, hdead.trans hsteps⟩
        · exact .inr ⟨j, mid, hj, hdead.trans hsteps, hlast⟩
      · cases h
        exact .inr ⟨g.jobId, s.ledger, rfl, .none rfl, grantJob_step hw hg hr⟩

/-- A claim renews the lease of its live owner, or dead-letters some candidates and
then acquires at most one free lease. -/
inductive Claimed (now : Time) (worker : String) : Option Id → Ledger → Ledger → Prop where
  | renewed {a b : Ledger} {j : Id} {job : JobState} : a.jobs j = some job →
      job.lease.Holds now ⟨worker, job.lease.fence⟩ → Step now (.hold j) a b →
      Claimed now worker (some j) a b
  | granted {a mid b : Ledger} {j : Id} : Steps now [.discard] a mid →
      Step now (.acquire j worker) mid b → Claimed now worker (some j) a b
  | idle {a b : Ledger} : Steps now [.discard] a b → Claimed now worker none a b

theorem Claimed.steps {a b : Ledger}
    (h : Claimed now worker claimed a b) : Steps now [.hold, .acquire, .discard] a b := by
  cases h with
  | renewed _ _ hstep => exact .single hstep (by simp)
  | granted hsteps hstep =>
    exact .trans (hsteps.mono (by simp)) (.single hstep (by simp))
  | idle hsteps => exact hsteps.mono (by simp)

theorem renewOrClaim_claimed (hw : s.ledger.Wf)
    (h : renewOrClaim env worker capability clock leaseSeconds s = .ok (claimed, s')) :
    Claimed clock worker claimed s.ledger s'.ledger := by
  unfold renewOrClaim at h
  split at h
  · rename_i g howned
    cases h
    obtain ⟨hg, hopen, hheld⟩ := ownedJob_some howned
    obtain ⟨-, -, hb⟩ := hg.candidate hw hopen
    rw [ledger_putJob]
    exact .renewed (ledger_job hg.job) hheld (.hold_job (ledger_job hg.job)
      (ledger_version hg.version) hb hb (.renew _ _ _ hheld) rfl)
  · obtain ⟨rfl, hsteps⟩ | ⟨j, mid, rfl, hsteps, hlast⟩ := claimLoop_steps hw h
    · exact .idle hsteps
    · exact .granted hsteps hlast

theorem versionBuild_id {j : Id} {build : VersionBuild} (h : versionBuild s j = .ok build) :
    build.job.id = j := by
  simp only [versionBuild, ok_rules] at h
  obtain ⟨g, _, record, _, rfl⟩ := h
  rfl

variable {build : Option VersionBuild}

theorem claimedBuild_id
    (h : claimedBuild s claimed = .ok build) : build.map (fun b => b.job.id) = claimed := by
  cases claimed with
  | none =>
    cases h
    rfl
  | some j =>
    cases hbuild : versionBuild s j with
    | error e => simp [claimedBuild, hbuild, Except.map] at h
    | ok b =>
      simp only [claimedBuild, hbuild, Except.map, Except.ok.injEq] at h
      obtain rfl := h
      simp [versionBuild_id hbuild]

theorem claimIndexJob_claimed [Platform] (hw : s.ledger.Wf) {r : ClaimRequest}
    (h : claimIndexJob env r s = .ok (build, s')) :
    ∃ worker, requiredText r.workerId "worker_id" 128 = .ok worker ∧
      Claimed (env.leaseClock r.now) worker (build.map fun b => b.job.id) s.ledger s'.ledger := by
  simp only [claimIndexJob, ok_rules] at h
  obtain ⟨worker, hworker, capability, _, _, _, ⟨claimed, s₁⟩, hclaim, build', hbuild, rfl, rfl⟩ := h
  refine ⟨worker, hworker, ?_⟩
  rw [claimedBuild_id hbuild]
  exact renewOrClaim_claimed hw hclaim

/-! ## Progress -/

/-- What the checks of `update_job` leave open for a status other than FAILED. -/
theorem updateChecks_ok {u : Unit} (h : updateChecks r g next = .ok u) :
    (next = .completed → g.version.status = .ready) ∧
      (next = .staged → g.version.status = .staged) ∧ (next ≠ .completed → g.IsCandidate) := by
  simp only [updateChecks, ok_rules] at h
  obtain ⟨_, hcompleted, _, hstaged, _, hcand, _⟩ := h
  refine ⟨by grind, by grind, fun hn => ?_⟩
  rw [if_pos hn] at hcand
  exact (assertCandidate_ok hcand).1

/-- The statuses that `update_job` may give to a job that stays open. -/
theorem building_of_transition (hb : Building g.job.status g.version.status)
    (hnext : next ∈ g.job.status.transitions) (hopen : next.terminal = false)
    (hstaged : next = .staged → g.version.status = .staged) : Building next g.version.status := by
  refine ⟨hopen, hb.candidate, fun hv => ?_, hstaged⟩
  -- a STAGED job only moves to STAGED or to an end
  rw [hb.staged.mp hv] at hnext
  cases next <;> simp_all [transitions, terminal]

theorem updateTerminal_discard (hw : s.ledger.Wf) [Platform]
    (hg : s.Joined g) (hid : g.jobId = r.jobId) (hc : g.IsCandidate)
    (hnext : next = .cancelled ∨ next = .deadLetter)
    (hjob : (job.released now).state = g.job.state.release next)
    (h : updateTerminal env r g job next now (s.putJob r.jobId job) = .ok s') :
    Step clock (.discard g.documentId g.versionId) s.ledger s'.ledger := by
  obtain ⟨-, -, hb⟩ := hg.candidate hw hc.open_job
  have halive : g.version.status.phase ≠ .dead := by
    rw [hb.candidate]
    decide
  have hn : s.cleanupForVersion g.versionId = none := cleanupForVersion_none hw.cleanups hg.version halive
  simp only [updateTerminal, ok_rules] at h
  obtain ⟨s₁, hs₁, -, -, s₂, hs₂, rfl⟩ := h
  rcases hnext with rfl | rfl
  · simp only [endVersion, if_true] at hs₁
    cases hs₂
    obtain ⟨hfree, hs₁⟩ := supersedeVersion_keep (by simpa using hn) hs₁
    have huncleaned : g.version.state.cleaned = false :=
      (hw.shape _ _ (ledger_version hg.version)).uncleaned halive
    have hstep : Step clock _ s.ledger _ :=
      hg.discard hc.pending .superseded rfl .cancelled rfl hfree now
    simpa [hjob, hs₁, hid, setDocument, setJob, setVersion, setCleanup, huncleaned] using hstep
  · simp only [endVersion, reduceCtorEq, if_false, ok_rules] at hs₁
    obtain ⟨code, _, rfl⟩ := hs₁
    simp only [if_true] at hs₂
    obtain ⟨hfree, hs₂⟩ := ensureCleanupJob_new (by simpa using hn) hs₂
    have hstep : Step clock _ s.ledger _ :=
      hg.discard hc.pending .failed rfl .deadLetter rfl hfree now
    simpa [hjob, hs₂, hid, setDocument, setJob, setVersion, setCleanup] using hstep

variable {step : Option String}

/-- `update_job` on a job that stays open. -/
theorem followStatus_hold (hw : s.ledger.Wf) [Platform]
    (hg : s.Joined g) (hid : g.jobId = r.jobId) (hc : g.IsCandidate)
    (hnext : next ∈ g.job.status.transitions)
    (hopen : next.terminal = false) (hstaged : next = .staged → g.version.status = .staged)
    (h : followStatus env r g (g.job.updated r next step now) next now
    (s.putJob r.jobId (g.job.updated r next step now)) = .ok s') :
    Step clock (.hold g.jobId) s.ledger s'.ledger := by
  have hv := ledger_version hg.version
  have hj := ledger_job hg.job
  obtain ⟨-, -, hb⟩ := hg.candidate hw hc.open_job
  have hkeep : Step clock (.hold g.jobId) s.ledger
      (s.putJob r.jobId (g.job.updated r next step now)).ledger := by
    rw [ledger_putJob, ← hid]
    exact .hold_job hj hv hb (building_of_transition hb hnext hopen hstaged) (.keep _) rfl
  cases next with
  | running =>
    cases h
    rw [ledger_putVersion, ledger_putJob, ← hid]
    have hcand : ∀ step, (runningVersionStatus step).phase = .candidate ∧
        runningVersionStatus step ≠ .staged := by
      intro step
      unfold runningVersionStatus
      split <;> decide
    exact .hold hj hv hb ⟨rfl, (hcand _).1, by simp [(hcand _).2, IndexJob.updated]⟩
      (fun hst => absurd hst (hcand _).2) (.keep _) rfl
  | pending | retryWait | staged => exact Except.ok.inj h ▸ hkeep
  | completed | failed | cancelled | deadLetter => simp [terminal] at hopen

theorem Catalog.ledger_putJob_self {j : Id} {row : IndexJob} (hj : s.jobs.get j = some job)
    (hstate : row.state = job.state) : (s.putJob j row).ledger = s.ledger := by
  rw [ledger_putJob, hstate]
  simp only [setJob, ← ledger_job hj, Function.update_eq_self]

theorem updateTo_steps (hw : s.ledger.Wf) [Platform] (hg : s.Joined g) (hid : g.jobId = r.jobId)
    (hnext : next ∈ g.job.status.transitions) (h : updateTo env r g step next now s = .ok s') :
    Steps clock [.hold, .discard] s.ledger s'.ledger := by
  unfold updateTo at h
  split at h
  · simp only [ok_rules] at h
    obtain ⟨_, _, h⟩ := h
    exact (failLocked_steps hw hg h).mono (by simp)
  · rename_i hfailed
    simp only [ok_rules, updateWrites] at h
    obtain ⟨_, hchecks, s₁, hs₁, rfl⟩ := h
    obtain ⟨hready, hstaged, hcand⟩ := updateChecks_ok hchecks
    rw [ledger_bumpRevision]
    by_cases hdone : next = .completed
    · -- the version is published, so the job was completed before
      subst hdone
      have hstatus : g.job.status = .completed :=
        (hw.agrees _ _ _ (ledger_job hg.job) (ledger_version hg.version)).ready
          (hready rfl)
      cases hs₁
      refine .none (ledger_putJob_self (hid ▸ hg.job) ?_)
      simp [IndexJob.state, IndexJob.updated, hstatus]
    · have hc := hcand hdone
      by_cases hopen : next.terminal = false
      · exact .single (followStatus_hold hw hg hid hc hnext hopen hstaged hs₁) (by simp)
      · have hend : next = .cancelled ∨ next = .deadLetter := by
          cases next <;> simp_all [terminal]
        have hterm : updateTerminal env r g (g.job.updated r next step now) next now
            (s.putJob r.jobId (g.job.updated r next step now)) = .ok s₁ := by
          rcases hend with rfl | rfl <;> exact hs₁
        exact .single (updateTerminal_discard hw hg hid hc hend rfl hterm) (by simp)

theorem updateJob_steps (hw : s.ledger.Wf) [Platform] (h : updateJob env r s = .ok (record, s')) :
    Steps clock [.hold, .discard] s.ledger s'.ledger := by
  simp only [updateJob, ok_rules, not_not] at h
  obtain ⟨_, _, step, _, g, hgraph, _, _, _, _, _, hnext, s₁, hs₁, _, _, _, rfl⟩ := h
  obtain ⟨hg, hid⟩ := jobGraph_ok hgraph
  exact updateTo_steps hw hg hid hnext hs₁

/-! ## Manifest -/

variable {rows : List IndexManifest}

theorem manifestOf_replace {v w : Id} (hrows : ∀ m ∈ rows, m.documentVersionId = v) :
    (s.replaceManifest v rows).manifestOf w = if w = v then rows else s.manifestOf w := by
  simp only [manifestOf, replaceManifest, List.filter_append, List.filter_filter]
  by_cases hwv : w = v
  · subst hwv
    have hold : (s.manifests.filter fun m =>
        (m.documentVersionId == w) && (m.documentVersionId != w)) = [] := by
      rw [List.filter_eq_nil_iff]
      simp
    have hnew : (rows.filter fun m => m.documentVersionId == w) = rows := by
      rw [List.filter_eq_self]
      simpa using hrows
    rw [if_pos rfl, hold, hnew, List.nil_append]
  · have hold : (s.manifests.filter fun m =>
        (m.documentVersionId == w) && (m.documentVersionId != v)) =
        s.manifests.filter fun m => m.documentVersionId == w := by
      apply List.filter_congr
      intro m _
      by_cases hm : m.documentVersionId = w <;> simp [hm, hwv]
    have hnew : (rows.filter fun m => m.documentVersionId == w) = [] := by
      rw [List.filter_eq_nil_iff]
      intro m hm
      simp [hrows m hm, Ne.symm hwv]
    rw [if_neg hwv, hold, hnew, List.append_nil]

theorem ledger_replaceManifest {v : Id} (hrows : ∀ m ∈ rows, m.documentVersionId = v) :
    (s.replaceManifest v rows).ledger =
      s.ledger.setManifest v fun kind => (rows.filter fun m => m.storeKind == kind).length := by
  have hcount : (fun w kind => (s.replaceManifest v rows).manifestCount w kind) =
      Function.update (fun w kind => s.manifestCount w kind) v
        fun kind => (rows.filter fun m => m.storeKind == kind).length := by
    funext w kind
    rw [manifestCount, manifestOf_replace hrows]
    by_cases hwv : w = v
    · simp [hwv]
    · simp [hwv, manifestCount]
  simp only [ledger, setManifest, hcount]
  rfl

theorem countKind_stored (rows : List ManifestRow) (v : Id) (now : Time) (kind : StoreKind) :
    (((rows.map fun row => row.stored v now).filter fun m => m.storeKind == kind)).length =
      countKind rows kind := by
  rw [List.filter_map, List.length_map]
  rfl

theorem recordManifest_steps (hw : s.ledger.Wf) [Platform] {r : ManifestRequest}
    {build : VersionBuild} (h : recordManifest env r s = .ok (build, s')) :
    Steps clock [.hold] s.ledger s'.ledger := by
  simp only [recordManifest, ok_rules, not_or, not_lt, ne_eq, not_not] at h
  obtain ⟨normalized, _, _, ⟨hpos, _⟩, _, ⟨hvectors, hparents⟩, g, hgraph, _, _, _, hcand, _, _, _,
    rfl⟩ := h
  obtain ⟨hg, hid⟩ := jobGraph_ok hgraph
  obtain ⟨-, -, hb⟩ := hg.candidate hw (assertCandidate_ok hcand).1.open_job
  rw [ledger_bumpRevision, ledger_putJob, ledger_putVersion,
    ledger_replaceManifest (by simp [ManifestRow.stored]), ← hid]
  simp only [countKind_stored, hvectors, hparents, Int.toNat_natCast]
  have hstage : Step clock (.hold g.jobId) s.ledger _ :=
    .stage (ledger_job hg.job) (ledger_version hg.version) hb
      (show 0 < countKind normalized .vector by omega)
  exact .single hstage (by simp)

end SuperMew.Documents
