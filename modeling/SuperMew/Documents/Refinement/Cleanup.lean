import SuperMew.Documents.Cleanup
import SuperMew.Documents.Refinement.Shared

/-! The operations on cleanup jobs as steps of the protocol. -/

namespace SuperMew.Documents

open Relational Catalog DocumentCleanupJob

variable {s s' : Catalog} {env : Env} {clock : Time} {g : CleanupGraph}

/-! ## Rows that show the same state -/

theorem Catalog.ledger_putCleanup_self {c : Id} {job row : DocumentCleanupJob}
    (hc : s.cleanups.get c = some job) (hstate : row.state = job.state) :
    (s.putCleanup c row).ledger = s.ledger := by
  rw [ledger_putCleanup, hstate]
  simp [Ledger.setCleanup, ← ledger_cleanup hc, Function.update_eq_self]

theorem Catalog.ledger_putVersion_self {v : Id} {version row : DocumentVersion}
    (hv : s.versions.get v = some version) (hstate : row.state = version.state) :
    (s.putVersion v row).ledger = s.ledger := by
  rw [ledger_putVersion, hstate, Ledger.setVersion_self (ledger_version hv)]

/-! ## Writes to a cleanup -/

theorem Catalog.CleanupJoined.uncleaned (hw : s.ledger.Wf) (hg : s.CleanupJoined g)
    (hs : g.job.status ≠ .completed) : g.version.indexCleanedAt = none := by
  have hswept := hw.swept _ _ _ (ledger_cleanup hg.job) (ledger_version hg.version)
  cases hclean : g.version.indexCleanedAt with
  | none => rfl
  | some t => exact absurd (hswept.mpr (by simp [DocumentVersion.state, hclean])) hs

theorem Catalog.CleanupJoined.tend (hg : s.CleanupJoined g) {status : CleanupJobStatus}
    (hopen : g.version.indexCleanedAt = none) (hs : status ≠ .completed)
    (hrun : status = .running → g.job.status = .running ∨
      ∃ t, g.version.cleanupAfter = some t ∧ t ≤ clock) :
    Step clock (.clean g.versionId) s.ledger
      (s.ledger.setCleanup g.jobId ⟨g.versionId, status⟩) := by
  have hstep : Step clock (.clean g.versionId) s.ledger ((s.ledger.setVersion g.versionId
      { g.version.state with cleaned := false }).setCleanup g.jobId ⟨g.versionId, status⟩) :=
    .clean (ledger_cleanup hg.job) (ledger_version hg.version) (by simp [hs])
      (by simp [DocumentVersion.state, hopen]) hrun
  have hsame : { g.version.state with cleaned := false } = g.version.state := by
    simp [DocumentVersion.state, hopen]
  rwa [hsame, Ledger.setVersion_self (ledger_version hg.version)] at hstep

theorem Catalog.CleanupJoined.complete (hg : s.CleanupJoined g) :
    Step clock (.clean g.versionId) s.ledger ((s.ledger.setVersion g.versionId
      { g.version.state with cleaned := true }).setCleanup g.jobId ⟨g.versionId, .completed⟩) :=
  .clean (ledger_cleanup hg.job) (ledger_version hg.version) (by simp) (by simp)
    (by simp)

theorem assertCleanupExecution_ok {job : DocumentCleanupJob} {e : CleanupJobExecution} {now : Time}
    {u : Unit} (h : assertCleanupExecution job e now = .ok u) : job.status = .running := by
  rw [assertCleanupExecution, raiseIf_eq_ok, not_not] at h
  exact h.2

theorem deadLetterCleanup_step (hg : s.CleanupJoined g) (hopen : g.version.indexCleanedAt = none)
    (code : String) (detail : Option String) (now : Time) :
    Step clock (.clean g.versionId) s.ledger (deadLetterCleanup g code detail now s).ledger := by
  have hversion : (s.putCleanup g.jobId (g.job.deadLettered code detail now)).versions.get
      g.versionId = some g.version := hg.version
  rw [deadLetterCleanup, ledger_putVersion_self hversion (by rfl), ledger_putCleanup]
  exact hg.tend hopen (by simp [deadLettered]) (by simp [deadLettered])

/-! ## Claiming -/

theorem mem_cleanupGraphs (h : g ∈ s.cleanupGraphs) : s.CleanupJoined g := by
  obtain ⟨e, _, he⟩ := List.mem_filterMap.mp h
  exact (cleanupJoined_of_join he).1

theorem readyCleanup_some (h : readyCleanup s clock = some g) :
    s.CleanupJoined g ∧ (∃ t, g.version.cleanupAfter = some t ∧ t ≤ clock) ∧
      g.version.indexCleanedAt = none := by
  have hmem := firstBy_mem h
  rw [List.mem_filter] at hmem
  obtain ⟨hin, hdue⟩ := hmem
  simp only [CleanupGraph.due, Bool.and_eq_true, Option.any_eq_true, decide_eq_true_eq,
    Option.isNone_iff_eq_none] at hdue
  exact ⟨mem_cleanupGraphs hin, hdue.1.2, hdue.2⟩

variable {build : CleanupBuild} {record : Id × DocumentCleanupJob} {worker : String}
  {claimed : Option Id}

theorem ownedCleanup_some (h : ownedCleanup s worker clock = some g) :
    s.CleanupJoined g ∧ g.job.status = .running := by
  have hmem := firstBy_mem h
  rw [List.mem_filter] at hmem
  obtain ⟨hin, howned⟩ := hmem
  simp only [CleanupGraph.ownedBy, Bool.and_eq_true, beq_iff_eq] at howned
  exact ⟨mem_cleanupGraphs hin, howned.1.2⟩

def Running (s : Ledger) (claimed : Option Id) : Prop :=
  ∀ c, claimed = some c → ∃ row, s.cleanups c = some row ∧ row.status = .running

theorem claimCleanupLoop_steps {leaseSeconds : ℤ} {fuel : ℕ} (hw : s.ledger.Wf)
    (h : claimCleanupLoop worker clock leaseSeconds fuel s = .ok (claimed, s')) :
    Steps clock [.clean] s.ledger s'.ledger ∧ Running s'.ledger claimed := by
  induction fuel generalizing s with
  | zero => simp [claimCleanupLoop] at h
  | succ fuel ih =>
    rw [claimCleanupLoop] at h
    cases hready : readyCleanup s clock with
    | none =>
      simp only [hready, Except.ok.injEq, Prod.mk.injEq] at h
      obtain ⟨rfl, rfl⟩ := h
      exact ⟨.none rfl, by simp [Running]⟩
    | some g =>
      obtain ⟨hg, hdue, hopen⟩ := readyCleanup_some hready
      simp only [hready] at h
      split at h
      · have hstep : ∀ code detail, Steps clock [.clean] s.ledger
            (deadLetterCleanup g code detail clock s).ledger := fun code detail =>
          .single (deadLetterCleanup_step hg hopen code detail clock) (by simp)
        obtain ⟨hsteps, hrun⟩ := ih ((hstep _ _).wf hw) h
        exact ⟨(hstep _ _).trans hsteps, hrun⟩
      · cases h
        rw [ledger_putCleanup]
        have hne : (g.job.claimed worker clock leaseSeconds).status ≠ .completed := by
          simp [claimed]
        refine ⟨.single (hg.tend hopen hne fun _ => .inr hdue) (by simp), ?_⟩
        intro c hc
        cases hc
        exact ⟨(g.job.claimed worker clock leaseSeconds).state, by simp, rfl⟩

theorem renewOrClaimCleanup_steps {leaseSeconds : ℤ} (hw : s.ledger.Wf)
    (h : renewOrClaimCleanup worker clock leaseSeconds s = .ok (claimed, s')) :
    Steps clock [.clean] s.ledger s'.ledger ∧ Running s'.ledger claimed := by
  unfold renewOrClaimCleanup at h
  split at h
  · rename_i g howned
    cases h
    obtain ⟨hg, hstatus⟩ := ownedCleanup_some howned
    rw [ledger_putCleanup_self hg.job (by rfl)]
    refine ⟨.none rfl, fun c hc => ?_⟩
    cases hc
    exact ⟨_, ledger_cleanup hg.job, hstatus⟩
  · exact claimCleanupLoop_steps hw h

theorem cleanupBuild_id {c : Id} (h : cleanupBuild s c = .ok build) :
    build.job.1 = c ∧ s.cleanups.get c = some build.job.2 ∧
      build.version.1 = build.job.2.documentVersionId := by
  simp only [cleanupBuild, ok_rules] at h
  obtain ⟨g, hgraph, record, _, rfl⟩ := h
  obtain ⟨hg, rfl⟩ := cleanupGraph_ok hgraph
  exact ⟨rfl, hg.job, rfl⟩

theorem claimedCleanup_some (h : claimedCleanup s claimed = .ok (some build)) :
    ∃ c, claimed = some c ∧ cleanupBuild s c = .ok build := by
  cases claimed with
  | none => simp [claimedCleanup] at h
  | some c =>
    cases hbuild : cleanupBuild s c with
    | error e => simp [claimedCleanup, hbuild, Except.map] at h
    | ok b =>
      simp only [claimedCleanup, hbuild, Except.map, Except.ok.injEq, Option.some.injEq] at h
      exact ⟨c, rfl, h ▸ hbuild⟩

theorem claimCleanupJob_steps [Platform] (hw : s.ledger.Wf) {r : CleanupClaimRequest}
    {build : Option CleanupBuild} (h : claimCleanupJob env r s = .ok (build, s')) :
    Steps (env.leaseClock r.now) [.clean] s.ledger s'.ledger ∧
      ∀ b, build = some b → ∃ row, s'.ledger.cleanups b.job.1 = some row ∧
        row.version = b.version.1 ∧ row.status = .running := by
  simp only [claimCleanupJob, ok_rules] at h
  obtain ⟨worker, _, _, _, ⟨claimed, s₁⟩, hclaim, build', hbuild, rfl, rfl⟩ := h
  obtain ⟨hsteps, hrun⟩ := renewOrClaimCleanup_steps hw hclaim
  refine ⟨hsteps, ?_⟩
  rintro b rfl
  obtain ⟨c, rfl, hb⟩ := claimedCleanup_some hbuild
  obtain ⟨rfl, hget, hver⟩ := cleanupBuild_id hb
  obtain ⟨row, hrow, hstatus⟩ := hrun _ rfl
  have hstate := ledger_cleanup hget
  obtain rfl := Option.mem_unique hrow hstate
  exact ⟨_, hrow, hver.symm, hstatus⟩

/-! ## Calls of the owner -/

theorem heartbeatCleanupJob_steps {r : CleanupLeaseRequest}
    (h : heartbeatCleanupJob env r s = .ok (record, s')) :
    Steps clock [.clean] s.ledger s'.ledger := by
  simp only [heartbeatCleanupJob, ok_rules] at h
  obtain ⟨_, _, g, hgraph, _, _, _, rfl⟩ := h
  obtain ⟨hg, hid⟩ := cleanupGraph_ok hgraph
  rw [← hid]
  exact .none (ledger_putCleanup_self hg.job (by rfl))

theorem updateCleanupJob_steps [Platform] {r : CleanupUpdateRequest}
    (h : updateCleanupJob env r s = .ok (record, s')) :
    Steps clock [.clean] s.ledger s'.ledger := by
  simp only [updateCleanupJob, ok_rules] at h
  obtain ⟨_, _, g, hgraph, _, _, _, rfl⟩ := h
  obtain ⟨hg, hid⟩ := cleanupGraph_ok hgraph
  rw [← hid]
  exact .none (ledger_putCleanup_self hg.job (by rfl))

theorem scheduleCleanupRetry_steps [Platform] (hw : s.ledger.Wf) {r : RetryRequest}
    (h : scheduleCleanupRetry env r s = .ok (record, s')) :
    Steps clock [.clean] s.ledger s'.ledger := by
  simp only [scheduleCleanupRetry, ok_rules] at h
  obtain ⟨_, _, _, _, g, hgraph, _, hlive, h⟩ := h
  obtain ⟨hg, hid⟩ := cleanupGraph_ok hgraph
  have hopen := hg.uncleaned hw (by simp [assertCleanupExecution_ok hlive])
  split at h
  · simp only [ok_rules] at h
    obtain ⟨_, rfl⟩ := h
    exact .single (deadLetterCleanup_step hg hopen _ _ _) (by simp)
  · simp only [ok_rules] at h
    obtain ⟨_, rfl⟩ := h
    have hversion : ∀ job, (s.putCleanup r.jobId job).versions.get g.versionId = some g.version :=
      fun _ => hg.version
    rw [ledger_putVersion_self (hversion _) (by rfl), ledger_putCleanup, ← hid]
    exact .single (hg.tend hopen (by simp [retried]) (by simp [retried])) (by simp)

theorem deadLetterCleanupJob_steps [Platform] (hw : s.ledger.Wf) {r : CleanupDeadLetterRequest}
    (h : deadLetterCleanupJob env r s = .ok (record, s')) :
    Steps clock [.clean] s.ledger s'.ledger := by
  simp only [deadLetterCleanupJob, ok_rules] at h
  obtain ⟨_, _, g, hgraph, _, hlive, _, rfl⟩ := h
  obtain ⟨hg, -⟩ := cleanupGraph_ok hgraph
  have hopen := hg.uncleaned hw (by simp [assertCleanupExecution_ok hlive])
  exact .single (deadLetterCleanup_step hg hopen _ _ _) (by simp)

/-! ## Completion and requeue -/

theorem completeCleanupJob_steps {jobId : Id} {execution : CleanupJobExecution}
    (h : completeCleanupJob env jobId execution s = .ok (build, s')) :
    Steps clock [.clean] s.ledger s'.ledger := by
  simp only [completeCleanupJob, ok_rules] at h
  obtain ⟨g, hgraph, _, _, _, _, _, _, _, rfl⟩ := h
  obtain ⟨hg, hid⟩ := cleanupGraph_ok hgraph
  rw [ledger_bumpRevision, ledger_putCleanup, ledger_putVersion, ← hid]
  exact .single hg.complete (by simp)

theorem requeueCleanupJob_steps [Platform] {jobId : Id} {maxAttempts : Option ℤ}
    {now : Option Time} (h : requeueCleanupJob env jobId maxAttempts now s = .ok (build, s')) :
    Steps clock [.clean] s.ledger s'.ledger := by
  simp only [requeueCleanupJob, ok_rules, not_or, ne_eq, not_not] at h
  obtain ⟨_, _, g, hgraph, _, _, _, ⟨_, hopen⟩, _, _, _, _, _, rfl⟩ := h
  obtain ⟨hg, hid⟩ := cleanupGraph_ok hgraph
  have hversion : ∀ job, (s.putCleanup jobId job).versions.get g.versionId = some g.version :=
    fun _ => hg.version
  rw [ledger_putVersion_self (hversion _) (by rfl), ledger_putCleanup, ← hid]
  exact .single (hg.tend hopen (by simp [requeued]) (by simp [requeued])) (by simp)

/-! ## Cleanup recorded without a worker -/

theorem recordOutcome_steps [Platform] (hg : s.CleanupJoined g)
    {errorCode : Option String} {now : Time}
    (h : recordOutcome g.versionId g.version (some (g.jobId, g.job)) errorCode now s = .ok s') :
    Steps clock [.clean] s.ledger s'.ledger := by
  unfold recordOutcome at h
  split at h
  · simp only [ok_rules] at h
    obtain ⟨code, _, rfl⟩ := h
    simp only [recordCleanupError]
    split
    all_goals
      rw [ledger_putCleanup_self (s := s.putVersion _ _) hg.job (by rfl)]
      exact .none (ledger_putVersion_self hg.version (by rfl))
  · cases h
    simp only [recordCleanupDone]
    rw [ledger_putCleanup, ledger_putVersion]
    exact .single hg.complete (by simp)

theorem recordCleanup_steps [Platform] (hw : s.ledger.Wf) {v : Id} {errorCode : Option String}
    {record : Id × DocumentVersion} (h : recordCleanup env v errorCode s = .ok (record, s')) :
    Steps clock [.clean] s.ledger s'.ledger := by
  simp only [recordCleanup, ok_rules] at h
  obtain ⟨⟨version, document, _⟩, hjoin, _, hdead, _, _, recorded, _, h⟩ := h
  simp only [joinVersion, bind, Option.bind_eq_some_iff, pure, Option.some.injEq,
    Prod.mk.injEq] at hjoin
  obtain ⟨_, hv, _, hd, kb, _, rfl, rfl, rfl⟩ := hjoin
  split at h
  · simp only [ok_rules] at h
    exact .none (by rw [h.2])
  · have hphase := DocumentVersionStatus.phase_dead.mpr (not_and_or.mp hdead |>.imp not_not.mp not_not.mp)
    obtain ⟨c, job, hfind, hc, rfl⟩ := cleanupForVersion_some hw.cleanups hv hphase
    simp only [ok_rules, hfind] at h
    obtain ⟨s₁, hs₁, _, _, _, rfl⟩ := h
    rw [ledger_bumpRevision]
    exact recordOutcome_steps (g := ⟨c, job, _, _, kb⟩) ⟨hc, hv, hd⟩ hs₁

end SuperMew.Documents
