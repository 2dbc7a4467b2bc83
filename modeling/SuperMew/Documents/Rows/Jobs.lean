import SuperMew.Documents.Refinement.Jobs
import SuperMew.Documents.Refinement.Retire
import SuperMew.Documents.Rows.Rule

/-! The operations on documents and index jobs keep the properties of rows. -/

namespace SuperMew.Documents

open Relational Rule.Holds

variable {P : Rule} {s s' : Catalog} {env : Env} {draws : Draws} {t : Time}

/-! ## Progress -/

theorem runningVersionStatus_building (step : String) :
    (runningVersionStatus step).phase = .candidate ∧ runningVersionStatus step ≠ .staged := by
  unfold runningVersionStatus
  split <;> decide

theorem claimedVersionStatus_building (step : String) :
    (claimedVersionStatus step).phase = .candidate ∧ claimedVersionStatus step ≠ .staged := by
  unfold claimedVersionStatus
  split <;> decide

variable {g : JobGraph} {record : JobRecord} {r : UpdateRequest} {next : IndexJobStatus}

theorem endVersion_rows [Platform] (hc : P.Closed t) (h : P.Holds s)
    (hs : endVersion env r g next t s = .ok s') : P.Holds s' := by
  unfold endVersion at hs
  split at hs
  · exact supersedeVersion_rows hc h hs
  · simp only [ok_rules] at hs
    obtain ⟨_, _, rfl⟩ := hs
    exact h.putVersion (hc.due rfl rfl)

theorem updateTerminal_rows [Platform] (hc : P.Closed t) (h : P.Holds s)
    (hdoc : P.document g.document) {job : IndexJob} (hjob : job.status ≠ .retryWait)
    (hs : updateTerminal env r g job next t s = .ok s') : P.Holds s' := by
  simp only [updateTerminal, ok_rules] at hs
  obtain ⟨s₁, hs₁, -, -, s₂, hs₂, rfl⟩ := hs
  have hcleared : P.Holds (s₁.putDocument g.documentId (g.document.withoutPending t)) :=
    (endVersion_rows hc h hs₁).putDocument (hc.document hdoc rfl)
  refine putJob ?_ (hc.job.busy hjob)
  split at hs₂
  · exact ensureCleanupJob_rows hc hcleared hs₂
  · exact Except.ok.inj hs₂ ▸ hcleared

theorem updateTo_rows [Platform] (hc : P.Closed t) (h : P.Holds s) (hg : s.Joined g)
    {step : Option String} (hjob : P.job (g.job.updated r next step t))
    (hs : updateTo env r g step next t s = .ok s') : P.Holds s' := by
  unfold updateTo at hs
  split at hs
  · simp only [ok_rules] at hs
    obtain ⟨_, _, hs⟩ := hs
    exact failLocked_rows hc h hg hs
  · simp only [updateWrites, ok_rules] at hs
    obtain ⟨-, -, s₁, hs₁, rfl⟩ := hs
    have hput : P.Holds (s.putJob r.jobId (g.job.updated r next step t)) := h.putJob hjob
    have hdoc := h.document _ _ hg.document
    refine bumpRevision ?_
    cases next with
    | running =>
      cases hs₁
      have hstatus := runningVersionStatus_building (g.job.updated r .running step t).currentStep
      exact hput.putVersion (hc.building hstatus.1 hstatus.2)
    | cancelled | deadLetter =>
      exact updateTerminal_rows hc hput hdoc (by simp [IndexJob.updated]) hs₁
    | pending | retryWait | staged | completed | failed => exact Except.ok.inj hs₁ ▸ hput

theorem updateJob_rows [Platform] (hc : P.Closed env.databaseNow) (h : P.Holds s)
    (hjob : ∀ job step, s.jobs.get r.jobId = some job →
    P.job (job.updated r (r.status.getD job.status) step env.databaseNow))
    (hs : updateJob env r s = .ok (record, s')) : P.Holds s' := by
  simp only [updateJob, ok_rules] at hs
  obtain ⟨-, -, step, _, g, hgraph, -, -, -, -, -, -, s₁, hs₁, _, _, _, rfl⟩ := hs
  obtain ⟨hg, hid⟩ := jobGraph_ok hgraph
  exact updateTo_rows hc h hg (hjob g.job step (hid ▸ hg.job)) hs₁

/-! ## Claiming -/

theorem cancelOrphan_rows (hc : P.Closed t) (h : P.Holds s)
    (hs : cancelOrphan env g t s = .ok s') : P.Holds s' := by
  have hput : P.Holds (s.putJob g.jobId (g.job.cancelled t)) :=
    h.putJob (hc.job.busy (by simp [IndexJob.cancelled]))
  simp only [cancelOrphan] at hs
  split at hs
  · exact supersedeVersion_rows hc hput hs
  · exact Except.ok.inj hs ▸ hput

theorem grantJob_rows (hc : P.Closed t) (h : P.Holds s) {worker : String}
    {leaseSeconds : ℤ} : P.Holds (grantJob g worker t leaseSeconds s) := by
  have hput : P.Holds (s.putJob g.jobId (g.job.claimed worker t leaseSeconds)) := by
    refine h.putJob (hc.job.busy ?_)
    simp only [IndexJob.claimed]
    split <;> simp
  unfold grantJob
  split
  · exact hput
  · have hstatus := claimedVersionStatus_building g.job.currentStep
    exact hput.putVersion (hc.building hstatus.1 hstatus.2)

theorem claimLoop_rows (hc : P.Closed t) {worker : String} {capability : Option String}
    {leaseSeconds : ℤ} {fuel : ℕ} (h : P.Holds s) {claimed : Option Id}
    (hs : claimLoop env worker capability t leaseSeconds fuel s = .ok (claimed, s')) :
    P.Holds s' := by
  induction fuel generalizing s with
  | zero => simp [claimLoop] at hs
  | succ fuel ih =>
    rw [claimLoop] at hs
    split at hs
    · cases hs
      exact h
    · rename_i g hready
      split at hs
      · simp only [ok_rules] at hs
        obtain ⟨s₁, hs₁, hs⟩ := hs
        exact ih (cancelOrphan_rows hc h hs₁) hs
      · split at hs
        · simp only [ok_rules] at hs
          obtain ⟨s₁, hs₁, hs⟩ := hs
          exact ih (deadLetterLocked_rows hc h (readyJob_some hready).1 hs₁) hs
        · cases hs
          exact grantJob_rows hc h

theorem claimIndexJob_rows [Platform] {r : ClaimRequest} (hc : P.Closed (env.leaseClock r.now))
    (h : P.Holds s) {build : Option VersionBuild}
    (hs : claimIndexJob env r s = .ok (build, s')) : P.Holds s' := by
  simp only [claimIndexJob, ok_rules] at hs
  obtain ⟨_, _, _, _, _, _, ⟨claimed, s₁⟩, hclaim, _, _, _, rfl⟩ := hs
  unfold renewOrClaim at hclaim
  split at hclaim
  · rename_i g howned
    cases hclaim
    exact h.putJob (hc.job.kept (h.job _ _ (ownedJob_some howned).1.job) rfl rfl)
  · exact claimLoop_rows hc h hclaim

/-! ## Calls of an execution -/

theorem heartbeatIndexJob_rows (hc : P.Closed t) (h : P.Holds s) {r : LeaseRequest}
    (hs : heartbeatIndexJob env r s = .ok (record, s')) : P.Holds s' := by
  simp only [heartbeatIndexJob, ok_rules] at hs
  obtain ⟨_, _, g, hgraph, _, _, _, _, _, _, _, rfl⟩ := hs
  exact h.putJob (hc.job.kept (h.job _ _ (jobGraph_ok hgraph).1.job) rfl rfl)

theorem scheduleIndexRetry_rows [Platform] {r : RetryRequest}
    (hc : P.Closed (env.leaseClock r.now)) (h : P.Holds s)
    (hs : scheduleIndexRetry env r s = .ok (record, s')) : P.Holds s' := by
  simp only [scheduleIndexRetry, ok_rules] at hs
  obtain ⟨_, _, _, _, g, hgraph, _, _, _, _, s₁, hs₁, _, _, _, rfl⟩ := hs
  split at hs₁
  · exact deadLetterLocked_rows hc h (jobGraph_ok hgraph).1 hs₁
  · cases hs₁
    exact h.putJob (hc.job.delayed (by simp [IndexJob.retried]))

theorem deadLetterIndexJob_rows [Platform] (hc : P.Closed env.databaseNow) (h : P.Holds s)
    {r : DeadLetterRequest} (hs : deadLetterIndexJob env r s = .ok (record, s')) : P.Holds s' := by
  simp only [deadLetterIndexJob, ok_rules] at hs
  obtain ⟨_, _, g, hgraph, _, _, s₁, hs₁, _, _, _, rfl⟩ := hs
  exact deadLetterLocked_rows hc h (jobGraph_ok hgraph).1 hs₁

theorem fail_rows [Platform] (hc : P.Closed env.databaseNow) (h : P.Holds s) {r : FailRequest}
    (hs : fail env r s = .ok (record, s')) : P.Holds s' := by
  simp only [fail, ok_rules] at hs
  obtain ⟨_, _, g, hgraph, s₁, hs₁, _, _, _, rfl⟩ := hs
  exact failLocked_rows hc h (jobGraph_ok hgraph).1 hs₁

/-- The manifest and the status that `record_manifest` writes are for the caller to judge. -/
theorem recordManifest_rows [Platform] (hc : P.Closed t) (h : P.Holds s) {r : ManifestRequest}
    (hstage : ∀ g row, s.Joined g → g.jobId = r.jobId → row.status = .staged →
      P.version g.versionId row)
    (hmanifest : ∀ g rows, s.Joined g → g.jobId = r.jobId →
      (∀ m ∈ rows, m.documentVersionId = g.versionId) → P.manifest (s.replaceManifest g.versionId rows).manifests)
    {build : VersionBuild} (hs : recordManifest env r s = .ok (build, s')) : P.Holds s' := by
  simp only [recordManifest, ok_rules] at hs
  obtain ⟨normalized, _, _, _, _, _, g, hgraph, _, _, _, _, _, _, _, rfl⟩ := hs
  obtain ⟨hg, hid⟩ := jobGraph_ok hgraph
  have hmanifested : P.Holds (s.replaceManifest g.versionId
      (normalized.map fun row => row.stored g.versionId env.databaseNow)) :=
    h.replaceManifest (hmanifest g _ hg hid (by simp [ManifestRow.stored]))
  refine bumpRevision (putJob (hmanifested.putVersion ?_) ?_)
  · exact hstage g _ hg hid rfl
  · exact hc.job.busy (by simp)

/-- The status that `publish` writes is for the caller to judge. -/
theorem publish_rows (hc : P.Closed (env.databaseNow + replacementCleanupGrace)) (h : P.Holds s)
    {r : PublishRequest}
    (hready : ∀ g row, s.Joined g → g.jobId = r.jobId → g.version.status = .staged →
      row.status = .ready → P.version g.versionId row)
    {result : PublicationResult} (hs : publish env r s = .ok (result, s')) : P.Holds s' := by
  obtain rfl | ⟨g, hg, hid, hp, hs⟩ := publish_ok hs
  · exact h
  simp only [publishCandidate, ok_rules] at hs
  obtain ⟨previous, _, s₁, hs₁, _, _, _, rfl⟩ := hs
  have hput : P.Holds (s.putDocument g.documentId
      (g.document.published g.versionId env.databaseNow)) :=
    h.putDocument (hc.document (h.document _ _ hg.document) rfl)
  have hprevious : P.Holds s₁ := by
    unfold supersedePrevious at hs₁
    split at hs₁
    · split at hs₁
      · exact supersedeVersion_rows hc hput hs₁
      · exact Except.ok.inj hs₁ ▸ hput
    · exact Except.ok.inj hs₁ ▸ hput
  refine bumpRevision (putJob (hprevious.putVersion ?_) ?_)
  · exact hready g _ hg hid hp.staged rfl
  · exact hc.job.busy (by simp [IndexJob.published])

/-! ## Reservation -/

variable {doc : Document} {d : Id}

section Reservation

variable {u : Upload} {result : UploadReservation}

theorem createCandidate_rows [Platform] (hc : P.Closed env.utcnow) (h : P.Holds s)
    (hdoc : P.document doc) {matching : List (Id × DocumentVersion)}
    (hs : createCandidate env draws u d doc matching s = .ok (result, s')) : P.Holds s' := by
  simp only [createCandidate, ok_rules] at hs
  obtain ⟨_, _, oldPending, _, s₁, hs₁, s₂, hs₂, s₃, hs₃, _, _, _, rfl⟩ := hs
  obtain ⟨-, rfl⟩ := insertVersion_ok hs₂
  obtain ⟨-, rfl⟩ := insertJob_ok hs₃
  have hpending : P.Holds s₁ := by
    unfold supersedePending at hs₁
    split at hs₁
    · exact supersedeVersion_rows hc h hs₁
    · exact Except.ok.inj hs₁ ▸ h
  refine bumpRevision (putJob (putDocument (hpending.putVersion ?_) ?_) ?_)
  · exact hc.building rfl (by simp [Upload.candidate])
  · exact hc.document hdoc rfl
  · exact hc.job.busy (by simp [Upload.job])

theorem reuseCurrent_rows [Platform] (hc : P.Closed t) (h : P.Holds s) {v : Id}
    {version : DocumentVersion}
    (hs : reuseCurrent env draws u d doc v version s = .ok (result, s')) : P.Holds s' := by
  simp only [reuseCurrent, ok_rules] at hs
  obtain ⟨_, _, ⟨⟨_, _⟩, s₁⟩, hs₁, _, _, _, rfl⟩ := hs
  unfold completedJob at hs₁
  split at hs₁
  · simp only [ok_rules] at hs₁
    obtain ⟨s₂, hs₂, _, rfl⟩ := hs₁
    obtain ⟨-, rfl⟩ := insertJob_ok hs₂
    exact h.putJob (hc.job.busy (by simp [Upload.reusedJob]))
  · simp only [ok_rules] at hs₁
    obtain ⟨_, _, _, rfl⟩ := hs₁
    exact h

variable (hc : P.Closed env.utcnow)

include hc

variable (h : P.Holds s)

include h

theorem reserveFor_rows [Platform] (hdoc : P.document doc)
    (hs : reserveFor env draws u d doc s = .ok (result, s')) : P.Holds s' := by
  simp only [reserveFor] at hs
  split at hs
  · exact reuseCurrent_rows hc h hs
  · split at hs
    · split at hs
      · simp only [ok_rules] at hs
        obtain ⟨_, _, _, rfl⟩ := hs
        exact h
      · exact createCandidate_rows hc h hdoc hs
    · exact createCandidate_rows hc h hdoc hs

variable (hbase : ∀ row : Document, s.knowledgeBases.get row.knowledgeBaseId ≠ none → P.document row)

include hbase

theorem reserveAttempt_rows [Platform] (hs : reserveAttempt env draws u s = .ok (result, s')) :
    P.Holds s' := by
  simp only [reserveAttempt, knowledgeBase, ok_rules, Option.filter_eq_some_iff] at hs
  obtain ⟨kb, ⟨hkb, -⟩, found, hfound, hs⟩ := hs
  cases found with
  | some e =>
    obtain ⟨d, doc⟩ := e
    simp only [ok_rules] at hs
    obtain ⟨_, _, hs⟩ := hs
    exact reserveFor_rows hc h (h.document d doc (documentByName_some hfound)) hs
  | none =>
    simp only [ok_rules] at hs
    obtain ⟨s₁, hs₁, hs⟩ := hs
    obtain ⟨-, rfl⟩ := insertDocument_ok hs₁
    have hdoc : P.document (u.document env.utcnow) := by
      refine hbase _ ?_
      rw [show (u.document env.utcnow).knowledgeBaseId = u.knowledgeBaseKey from rfl, hkb]
      simp
    exact reserveFor_rows hc (h.putDocument hdoc) hdoc hs

theorem reserveUpload_rows [Platform] {r : UploadRequest}
    (hs : reserveUpload env r s = .ok (result, s')) : P.Holds s' := by
  simp only [reserveUpload, ok_rules] at hs
  obtain ⟨u, _, hs⟩ := hs
  split at hs
  · split at hs
    · simp at hs
    · exact reserveAttempt_rows hc h hbase hs
  · exact reserveAttempt_rows hc h hbase hs

end Reservation

/-! ## Retirement -/

theorem upsertRetirementJob_rows [Platform] (h : P.Holds s) {retirementJobId : Option String}
    {versions : List Id} {fence : ℕ} {now : Time} {operation : Option String}
    (hs : upsertRetirementJob s retirementJobId d doc versions fence now = .ok (operation, s')) :
    P.Holds s' := by
  obtain rfl | ⟨r, row, rfl, -⟩ := upsertRetirementJob_ok hs
  · exact h
  · exact h.putRetirement

theorem expediteCleanup_rows (hc : P.Closed t) (h : P.Holds s) {e : Id × DocumentVersion}
    (hdead : e.2.status.phase = .dead) (hs : expediteCleanup env t s e = .ok s') : P.Holds s' := by
  simp only [expediteCleanup, ok_rules] at hs
  obtain ⟨s₁, hs₁, rfl⟩ := hs
  have hjob : P.Holds s₁ := by
    unfold expediteJob at hs₁
    split at hs₁
    · exact ensureCleanupJob_rows hc h hs₁
    · rename_i c job hfind
      split at hs₁
      · cases hs₁
        exact h.putCleanup (hc.moved (h.cleanup c job (Table.find_eq_some hfind).1))
      · exact Except.ok.inj hs₁ ▸ h
  split
  · exact hjob.putVersion (hc.due hdead rfl)
  · exact hjob

theorem expediteAll_rows (hc : P.Closed t) {rows : List (Id × DocumentVersion)} (h : P.Holds s)
    (hdead : ∀ e ∈ rows, e.2.status.phase = .dead)
    (hs : rows.foldlM (expediteCleanup env t) s = .ok s') : P.Holds s' := by
  induction rows generalizing s with
  | nil => exact pure_eq_ok.mp hs ▸ h
  | cons e rows ih =>
    rw [List.foldlM_cons, bind_eq_ok] at hs
    obtain ⟨s₁, hs₁, hs⟩ := hs
    have hrow := expediteCleanup_rows hc h (hdead e List.mem_cons_self) hs₁
    exact ih hrow (fun e he => hdead e (List.mem_cons_of_mem _ he)) hs

variable {result : RetirementResult}

theorem retireFirst_rows [Platform] (hc : P.Closed env.databaseNow) (h : P.Holds s)
    {r : RetireRequest} (hdoc : P.document doc) {current pending : Option (Id × DocumentVersion)}
    (hs : retireFirst env r d doc current pending s = .ok (result, s')) : P.Holds s' := by
  simp only [retireFirst, ok_rules] at hs
  obtain ⟨_, _, s₁, hs₁, s₂, hs₂, ⟨operation, s₃⟩, hs₃, _, rfl⟩ := hs
  have hcurrent : P.Holds s₁ := by
    unfold retireCurrent at hs₁
    split at hs₁
    · exact supersedeVersion_rows hc h hs₁
    · exact Except.ok.inj hs₁ ▸ h
  have hpending : P.Holds s₂ := by
    unfold retirePending at hs₂
    split at hs₂
    · split at hs₂
      · exact supersedeVersion_rows hc hcurrent hs₂
      · exact Except.ok.inj hs₂ ▸ hcurrent
    · exact Except.ok.inj hs₂ ▸ hcurrent
  have hretired : P.Holds (s₂.putDocument d (doc.retired env.databaseNow)) :=
    hpending.putDocument (hc.document hdoc rfl)
  exact upsertRetirementJob_rows hretired.bumpRevision hs₃

theorem retire_rows [Platform] (hc : P.Closed env.databaseNow) (h : P.Holds s) {r : RetireRequest}
    (hs : retire env r s = .ok (result, s')) : P.Holds s' := by
  obtain rfl | ⟨d, doc, hd, ⟨-, hs⟩ | ⟨current, pending, -, -, -, hs⟩⟩ := retire_ok hs
  · exact h
  · simp only [retireAgain, ok_rules] at hs
    obtain ⟨s₁, hs₁, ⟨operation, s₂⟩, hs₂, _, rfl⟩ := hs
    have hdead : ∀ e ∈ uncleanedVersions s d, e.2.status.phase = .dead := fun e he =>
      (mem_uncleanedVersions.mp he).2.2.1
    exact upsertRetirementJob_rows (expediteAll_rows hc h hdead hs₁) hs₂
  · exact retireFirst_rows hc h (h.document d doc hd.get) hs

theorem recordRetirementError_rows [Platform] (h : P.Holds s) {jobId tenantId errorCode : String}
    {row : DocumentRetirementJob}
    (hs : recordRetirementError env jobId tenantId errorCode s = .ok (row, s')) : P.Holds s' := by
  simp only [recordRetirementError, ok_rules] at hs
  obtain ⟨_, _, _, _, _, rfl⟩ := hs
  exact h.putRetirement

end SuperMew.Documents
