import SuperMew.Documents.Refinement.Cleanup
import SuperMew.Documents.Rows.Rule

/-! The operations on cleanup jobs keep the properties of rows. -/

namespace SuperMew.Documents

open Relational DocumentCleanupJob

/-- The rows that an operation on a cleanup job may write. -/
structure Rule.Tended (P : Rule) : Prop where
  version : ∀ {v : Id} {old new : DocumentVersion}, P.version v old → new.status = old.status →
    new.cleanupAfter = old.cleanupAfter → P.version v new
  taken : ∀ {row : DocumentCleanupJob}, row.status ≠ .pending ∧ row.status ≠ .retryWait →
    P.cleanup row
  waiting : ∀ {row : DocumentCleanupJob}, row.ownerWorkerId = none → row.nextRetryAt ≠ none →
    P.cleanup row
  kept : ∀ {old new : DocumentCleanupJob}, P.cleanup old → new.status = old.status →
    new.ownerWorkerId = old.ownerWorkerId → new.nextRetryAt = old.nextRetryAt → P.cleanup new

variable {P : Rule} {s s' : Catalog} {env : Env} {g : CleanupGraph} {clock : Time}

theorem deadLetterCleanup_rows (hc : P.Tended) (h : P.Holds s) (hg : s.CleanupJoined g)
    (code : String) (detail : Option String) :
    P.Holds (deadLetterCleanup g code detail clock s) := by
  refine Rule.Holds.putVersion (h.putCleanup (hc.taken ?_)) ?_
  · simp [deadLettered]
  · exact hc.version (h.version _ _ hg.version) rfl rfl

/-! ## Claiming -/

theorem claimCleanupLoop_rows (hc : P.Tended) {worker : String} {leaseSeconds : ℤ} {fuel : ℕ}
    (h : P.Holds s) {claimed : Option Id}
    (hs : claimCleanupLoop worker clock leaseSeconds fuel s = .ok (claimed, s')) : P.Holds s' := by
  induction fuel generalizing s with
  | zero => simp [claimCleanupLoop] at hs
  | succ fuel ih =>
    rw [claimCleanupLoop] at hs
    split at hs
    · cases hs
      exact h
    · rename_i g hready
      split at hs
      · exact ih (deadLetterCleanup_rows hc h (readyCleanup_some hready).1 _ _) hs
      · cases hs
        exact h.putCleanup (hc.taken (by simp [DocumentCleanupJob.claimed]))

theorem claimCleanupJob_rows [Platform] (hc : P.Tended) (h : P.Holds s) {r : CleanupClaimRequest}
    {build : Option CleanupBuild} (hs : claimCleanupJob env r s = .ok (build, s')) :
    P.Holds s' := by
  simp only [claimCleanupJob, ok_rules] at hs
  obtain ⟨_, _, _, _, ⟨claimed, s₁⟩, hclaim, _, _, _, rfl⟩ := hs
  unfold renewOrClaimCleanup at hclaim
  split at hclaim
  · rename_i g howned
    cases hclaim
    exact h.putCleanup (hc.kept (h.cleanup _ _ (ownedCleanup_some howned).1.job) rfl rfl rfl)
  · exact claimCleanupLoop_rows hc h hclaim

/-! ## Calls of the owner -/

variable {record : Id × DocumentCleanupJob}

section

variable (hc : P.Tended)

include hc

variable (h : P.Holds s)

include h

theorem heartbeatCleanupJob_rows {r : CleanupLeaseRequest}
    (hs : heartbeatCleanupJob env r s = .ok (record, s')) : P.Holds s' := by
  simp only [heartbeatCleanupJob, ok_rules] at hs
  obtain ⟨_, _, g, hgraph, _, _, _, rfl⟩ := hs
  exact h.putCleanup (hc.kept (h.cleanup _ _ (cleanupGraph_ok hgraph).1.job) rfl rfl rfl)

theorem updateCleanupJob_rows [Platform] {r : CleanupUpdateRequest}
    (hs : updateCleanupJob env r s = .ok (record, s')) : P.Holds s' := by
  simp only [updateCleanupJob, ok_rules] at hs
  obtain ⟨_, _, g, hgraph, _, _, _, rfl⟩ := hs
  exact h.putCleanup (hc.kept (h.cleanup _ _ (cleanupGraph_ok hgraph).1.job) rfl rfl rfl)

theorem scheduleCleanupRetry_rows [Platform] {r : RetryRequest}
    (hs : scheduleCleanupRetry env r s = .ok (record, s')) : P.Holds s' := by
  simp only [scheduleCleanupRetry, ok_rules] at hs
  obtain ⟨delay, _, code, _, g, hgraph, _, _, hs⟩ := hs
  obtain ⟨hg, -⟩ := cleanupGraph_ok hgraph
  split at hs
  · cases hs
    exact deadLetterCleanup_rows hc h hg _ _
  · cases hs
    refine Rule.Holds.putVersion (h.putCleanup ?_) ?_
    · exact hc.waiting rfl (by simp [retried])
    · exact hc.version (h.version _ _ hg.version) rfl rfl

theorem deadLetterCleanupJob_rows [Platform] {r : CleanupDeadLetterRequest}
    (hs : deadLetterCleanupJob env r s = .ok (record, s')) : P.Holds s' := by
  simp only [deadLetterCleanupJob, ok_rules] at hs
  obtain ⟨_, _, g, hgraph, _, _, _, rfl⟩ := hs
  exact deadLetterCleanup_rows hc h (cleanupGraph_ok hgraph).1 _ _

end

/-! ## Completion and requeue -/

variable (hc : P.Tended)

include hc

variable (h : P.Holds s)

include h

variable {build : CleanupBuild}

theorem completeCleanupJob_rows {jobId : Id} {execution : CleanupJobExecution}
    (hs : completeCleanupJob env jobId execution s = .ok (build, s')) : P.Holds s' := by
  simp only [completeCleanupJob, ok_rules] at hs
  obtain ⟨g, hgraph, _, _, _, _, _, _, _, rfl⟩ := hs
  have hold := h.version _ _ (cleanupGraph_ok hgraph).1.version
  have hversion : P.Holds (s.putVersion g.versionId (g.version.cleaned env.databaseNow)) :=
    h.putVersion (hc.version hold rfl rfl)
  exact (hversion.putCleanup (hc.taken (by simp [completed]))).bumpRevision

theorem requeueCleanupJob_rows [Platform] {jobId : Id} {maxAttempts : Option ℤ} {now : Option Time}
    (hs : requeueCleanupJob env jobId maxAttempts now s = .ok (build, s')) : P.Holds s' := by
  simp only [requeueCleanupJob, ok_rules] at hs
  obtain ⟨_, _, g, hgraph, _, _, _, _, requeues, _, _, _, _, rfl⟩ := hs
  refine Rule.Holds.putVersion (h.putCleanup ?_) ?_
  · exact hc.waiting rfl (by simp [requeued])
  · exact hc.version (h.version _ _ (cleanupGraph_ok hgraph).1.version) rfl rfl

variable {errorCode : Option String}

theorem recordOutcome_rows [Platform] {v : Id}
    {version : DocumentVersion} (hv : P.version v version)
    {job : Option (Id × DocumentCleanupJob)} (hjob : ∀ c row, job = some (c, row) → P.cleanup row)
    {now : Time} (hs : recordOutcome v version job errorCode now s = .ok s') : P.Holds s' := by
  unfold recordOutcome at hs
  split at hs
  · simp only [ok_rules] at hs
    obtain ⟨code, _, rfl⟩ := hs
    have hversion : ∀ row : DocumentVersion, row.status = version.status →
        row.cleanupAfter = version.cleanupAfter → P.Holds (s.putVersion v row) :=
      fun row hstatus hdue => h.putVersion (hc.version hv hstatus hdue)
    cases job with
    | some e =>
      obtain ⟨c, row⟩ := e
      refine Rule.Holds.putCleanup (hversion _ ?_ ?_) (hc.kept (hjob c row rfl) rfl rfl rfl) <;>
        split <;> rfl
    | none => refine hversion _ ?_ ?_ <;> split <;> rfl
  · cases hs
    have hversion : P.Holds (s.putVersion v (version.cleaned now)) :=
      h.putVersion (hc.version hv rfl rfl)
    cases job with
    | some e => exact hversion.putCleanup (hc.taken (by simp [completed]))
    | none => exact hversion

theorem recordCleanup_rows [Platform] {v : Id} {result : Id × DocumentVersion}
    (hs : recordCleanup env v errorCode s = .ok (result, s')) : P.Holds s' := by
  simp only [recordCleanup, ok_rules] at hs
  obtain ⟨⟨version, document, _⟩, hjoin, _, _, _, _, recorded, _, hs⟩ := hs
  simp only [Catalog.joinVersion, bind, Option.bind_eq_some_iff, pure, Option.some.injEq,
    Prod.mk.injEq] at hjoin
  obtain ⟨version, hrow, _, _, _, _, rfl, _⟩ := hjoin
  split at hs
  · cases hs
    exact h
  · obtain ⟨s₁, hs₁, hs⟩ := bind_eq_ok.mp hs
    obtain ⟨_, _, hs⟩ := bind_eq_ok.mp hs
    cases hs
    refine (recordOutcome_rows hc h (h.version v version hrow) ?_ hs₁).bumpRevision
    intro c row hfind
    exact h.cleanup c row (Table.find_eq_some hfind).1

end SuperMew.Documents
