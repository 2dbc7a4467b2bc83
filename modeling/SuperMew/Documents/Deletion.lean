import SuperMew.Documents.History

/-! What a deletion that is shown as completed says about the versions of the document. -/

namespace SuperMew.Documents

open Relational Catalog

variable {s s' : Catalog} {env : Env} {d v : Id} {doc : Document} {j : String}

/-! ## The view -/

variable {tenantId : String}

theorem listCleanupJobsForVersions_mem {ids : List Id}
    {jobs : List CleanupBuild} (h : listCleanupJobsForVersions s ids tenantId = .ok jobs)
    {item : CleanupBuild} (hi : item ∈ jobs) :
    s.cleanups.get item.job.1 = some item.job.2 ∧
      item.job.2.documentVersionId = item.version.1 := by
  obtain ⟨⟨c, job, v, version, document⟩, hmem, hitem⟩ := mem_of_mapM_eq_ok h hi
  simp only [ok_rules] at hitem
  obtain ⟨_, _, rfl⟩ := hitem
  obtain ⟨w, -, hrow⟩ := List.mem_filterMap.mp hmem
  simp only [bind, Option.bind_eq_some_iff] at hrow
  obtain ⟨⟨c', job'⟩, hfind, version', _, document', _, hrow⟩ := hrow
  split at hrow
  · simp only [pure, Option.some.injEq, Prod.mk.injEq] at hrow
    obtain ⟨rfl, rfl, rfl, -⟩ := hrow
    obtain ⟨hget, hkey⟩ := Table.find_eq_some hfind
    exact ⟨hget, by simpa using hkey⟩
  · cases hrow

/-- A deletion shown as completed has a completed cleanup for every recorded version. -/
theorem deleteJobView_completed {j : String} {view : DeleteJobView}
    (h : deleteJobView tenantId j s = .ok view) (hstatus : view.status = .completed) :
    ∃ operation, s.retirements.get j = some operation ∧
      ∀ v ∈ operation.cleanupVersionIds, ∃ c job, s.cleanups.get c = some job ∧
        job.documentVersionId = v ∧ job.status = .completed := by
  simp only [deleteJobView, ok_rules] at h
  obtain ⟨operation, hop, jobs, hjobs, rfl⟩ := h
  rw [getRetirementJob, orRaise_eq_ok, Option.filter_eq_some_iff] at hop
  refine ⟨operation, hop.1, fun v hv => ?_⟩
  have hdone : (deleteOutcome operation jobs).completed = true := by
    simp only [DeleteOutcome.status] at hstatus
    split_ifs at hstatus with h₁ h₂ h₃
    exact h₃
  simp only [deleteOutcome, Bool.and_eq_true, Bool.not_eq_true', List.all_eq_true,
    List.any_eq_false, beq_iff_eq] at hdone
  obtain ⟨⟨-, hcomplete⟩, hall⟩ := hdone
  have hlisted := hcomplete v hv
  simp only [not_forall, not_not] at hlisted
  obtain ⟨item, hitem, rfl⟩ := hlisted
  obtain ⟨hget, hkey⟩ := listCleanupJobsForVersions_mem hjobs hitem
  exact ⟨item.job.1, item.job.2, hget, hkey, hall item hitem⟩

/-! ## The snapshot -/

/-- The versions that a retirement of document `d` has to record: what the document points
to, and on a deleted document every version that is not cleaned. -/
def Catalog.Revoked (s : Catalog) (d : Id) (doc : Document) (v : Id) : Prop :=
  doc.currentVersionId = some v ∨ doc.pendingVersionId = some v ∨
    doc.deletedAt.isSome = true ∧ v ∈ (uncleanedVersions s d).map Prod.fst

theorem retirement_none_of_steps {kinds : List Kind} {clock : Time}
    (h : Steps clock kinds s.ledger s'.ledger) (hk : .record ∉ kinds)
    (hnew : s.retirements.get j = none) : s'.retirements.get j = none := by
  have hsame := congrFun (h.retirements_eq hk) j
  simp only [ledger, hnew, Option.map_none, Option.map_eq_none_iff] at hsame
  exact hsame

theorem Op.record_mem_kinds {op : Op} (h : .record ∈ op.kinds) :
    (∃ r, op = .retire r) ∨ ∃ jobId tenantId errorCode,
      op = .recordRetirementError jobId tenantId errorCode := by
  cases op <;> simp [Op.kinds] at h ⊢

def deletionStatus (tenantId j : String) (s : Catalog) : Option DeleteStatus :=
  (deleteJobView tenantId j s).toOption.map DeleteJobView.status

theorem deletionStatus_completed (h : deletionStatus tenantId j s = some .completed) :
    ∃ operation, s.retirements.get j = some operation ∧
      ∀ v ∈ operation.cleanupVersionIds, ∃ c job, s.cleanups.get c = some job ∧
        job.documentVersionId = v ∧ job.status = .completed := by
  obtain ⟨view, hview, hstatus⟩ := Option.map_eq_some_iff.mp h
  cases hres : deleteJobView tenantId j s with
  | error e => simp [hres, Except.toOption] at hview
  | ok shown =>
    rw [hres] at hview
    cases hview
    exact deleteJobView_completed hres hstatus

def Catalog.isCleaned (s : Catalog) (v : Id) : Bool :=
  (s.versions.get v).any fun row => row.indexCleanedAt.isSome

theorem isCleaned_of_row {row : DocumentVersion} (hv : s.versions.get v = some row)
    (h : row.indexCleanedAt ≠ none) : s.isCleaned v = true := by
  simp [isCleaned, hv, Option.isSome_iff_ne_none, h]

section Runs

variable [Platform] {operation : DocumentRetirementJob}

theorem upsertRetirementJob_new {retirementJobId : Option String} {versions : List Id} {fence : ℕ}
    {now : Time} {operation : Option String} {row : DocumentRetirementJob}
    (h : upsertRetirementJob s retirementJobId d doc versions fence now = .ok (operation, s'))
    (hnew : s.retirements.get j = none) (hrow : s'.retirements.get j = some row) :
    row.documentId = d ∧ ∀ v ∈ versions, v ∈ row.cleanupVersionIds := by
  obtain rfl | ⟨j', row', rfl, hdoc, hall, -⟩ := upsertRetirementJob_ok h
  · rw [hnew] at hrow
    cases hrow
  · rw [putRetirement, Table.get_put] at hrow
    by_cases hj : j = j'
    · subst hj
      rw [Function.update_self] at hrow
      cases hrow
      exact ⟨hdoc, hall⟩
    · rw [Function.update_of_ne hj, hnew] at hrow
      cases hrow

/-- The retirement that a retire creates records every version that it revokes. -/
theorem retire_snapshot (hw : s.ledger.Wf) {r : RetireRequest} {result : RetirementResult}
    (h : retire env r s = .ok (result, s'))
    (hnew : s.retirements.get j = none) (hop : s'.retirements.get j = some operation) :
    ∃ doc, s.documents.get operation.documentId = some doc ∧
      ∀ v, s.Revoked operation.documentId doc v → v ∈ operation.cleanupVersionIds := by
  obtain rfl | ⟨d, doc, hd, ⟨hdel, h⟩ | ⟨current, pending, hlive, hcur, hpend, h⟩⟩ := retire_ok h
  · rw [hnew] at hop
    cases hop
  · obtain ⟨⟨mid, _, hsteps, hrecord⟩, -⟩ := retireAgain_ok hw hd.get hdel h
    have hnone := retirement_none_of_steps hsteps (by simp) hnew
    obtain ⟨rfl, hall⟩ := upsertRetirementJob_new hrecord hnone hop
    refine ⟨doc, hd.get, ?_⟩
    obtain ⟨hc, hp⟩ := hw.deleted _ _ (ledger_document hd.get) hdel
    rintro v (hv | hv | ⟨-, hv⟩)
    · exact absurd (hc.symm.trans hv) (by simp)
    · exact absurd (hp.symm.trans hv) (by simp)
    · exact hall v hv
  · obtain ⟨mid, _, hsteps, hrecord⟩ := retireFirst_ok hw hd.get hcur hpend h
    have hnone := retirement_none_of_steps (hsteps env.databaseNow) (by simp) hnew
    obtain ⟨rfl, hall⟩ := upsertRetirementJob_new hrecord hnone hop
    refine ⟨doc, hd.get, ?_⟩
    rintro v (hv | hv | ⟨hdel, -⟩)
    · obtain ⟨-, hnone⟩ | ⟨w, row, rfl, hw', -⟩ := versionByPointer_ok hcur
      · simp [hnone] at hv
      · cases hv.symm.trans hw'
        exact hall v (by simp)
    · obtain ⟨-, hnone⟩ | ⟨w, row, rfl, hw', -⟩ := versionByPointer_ok hpend
      · simp [hnone] at hv
      · cases hv.symm.trans hw'
        exact hall v (by simp)
    · simp [hlive] at hdel

/-- Only a retire creates a retirement, and it records the versions that it revokes. -/
theorem exec_snapshot (hw : s.ledger.Wf) {call : Call} (hnew : s.retirements.get j = none)
    (hop : (exec s call).retirements.get j = some operation) :
    ∃ doc, s.documents.get operation.documentId = some doc ∧
      ∀ v, s.Revoked operation.documentId doc v → v ∈ operation.cleanupVersionIds := by
  have hrecord : .record ∈ call.op.kinds := by
    by_contra hnot
    rw [retirement_none_of_steps (exec_refines hw call) hnot hnew] at hop
    cases hop
  unfold exec at hop
  split at hop
  · rename_i s' hcommit
    obtain ⟨env, op⟩ := call
    obtain ⟨r, rfl⟩ | ⟨jobId, tenantId, errorCode, rfl⟩ := Op.record_mem_kinds hrecord
    · exact of_map_snd hcommit fun hok => retire_snapshot hw hok hnew hop
    · -- an error is recorded on a retirement that exists
      obtain ⟨⟨_, _⟩, hok, rfl⟩ := map_eq_ok.mp hcommit
      simp only [recordRetirementError, getRetirementJob, ok_rules] at hok
      obtain ⟨_, _, old, hold, _, rfl⟩ := hok
      rw [Option.filter_eq_some_iff] at hold
      rw [putRetirement, Table.get_put] at hop
      by_cases hj : j = jobId
      · subst hj
        rw [hnew] at hold
        cases hold.1
      · rw [Function.update_of_ne hj, hnew] at hop
        cases hop
  · rw [hnew] at hop
    cases hop

/-! ## Completed deletions -/

def Catalog.pendingVersion (s : Catalog) (d : Id) : Option Id :=
  (s.documents.get d).bind Document.pendingVersionId

def Catalog.isDeleted (s : Catalog) (d : Id) : Bool :=
  (s.documents.get d).any fun doc => doc.deletedAt.isSome

def Catalog.documentOf (s : Catalog) (v : Id) : Option Id :=
  (s.versions.get v).map DocumentVersion.documentId

def Catalog.retiredDocument (s : Catalog) (j : String) : Option Id :=
  (s.retirements.get j).map DocumentRetirementJob.documentId

theorem cleaned_of_completed (hw : s.ledger.Wf) (hop : s.retirements.get j = some operation)
    (hv : v ∈ operation.cleanupVersionIds) {later : List Call}
    (hdone : deletionStatus tenantId j (Machine.run exec s later) = some .completed) :
    ∃ row, (Machine.run exec s later).versions.get v = some row ∧ row.indexCleanedAt ≠ none := by
  obtain ⟨last, hlast, hall⟩ := deletionStatus_completed hdone
  obtain ⟨state, hstate, hgrown⟩ := (run_later hw later).retirements j operation.state (by
    simp [ledger, hop])
  obtain ⟨last', hlast', rfl⟩ := Option.map_eq_some_iff.mp hstate
  cases hlast.symm.trans hlast'
  obtain ⟨c, job, hc, rfl, hstatus⟩ := hall v (hgrown.versions v hv)
  have hw' := run_wf hw later
  obtain ⟨state, hrow, -⟩ := hw'.cleanups.sound c _ (ledger_cleanup hc)
  obtain ⟨row, hget, rfl⟩ := version_of_ledger hrow
  exact ⟨row, hget, ((cleanupLedger_of_wf hw').completed c job row hc hget).mp hstatus⟩

/-- A deletion shown as completed has cleaned every version that was current or pending
when the deletion was created, and on a document that was deleted already every version
that existed. -/
theorem completed_deletion_is_complete (before : List Call) (call : Call) (later : List Call)
    (tenantId j : String) (d v : Id) (hnew : (after before).retiredDocument j = none)
    (hop : (exec (after before) call).retiredDocument j = some d)
    (hdone : deletionStatus tenantId j (after (before ++ call :: later)) = some .completed)
    (hv : (after before).documentOf v = some d)
    (hrevoked : (after before).currentVersion d = some v ∨
      (after before).pendingVersion d = some v ∨ (after before).isDeleted d = true) :
    (after (before ++ call :: later)).isCleaned v = true := by
  have hw := after_wf before
  obtain ⟨row, hrow, hrowd⟩ := Option.map_eq_some_iff.mp hv
  obtain ⟨operation, hget, rfl⟩ := Option.map_eq_some_iff.mp hop
  rw [after_append] at hdone ⊢
  by_cases hclean : row.indexCleanedAt = none
  · obtain ⟨doc, hdoc, hall⟩ := exec_snapshot hw (Option.map_eq_none_iff.mp hnew) hget
    have hrecorded : v ∈ operation.cleanupVersionIds := by
      apply hall
      simp only [currentVersion, pendingVersion, isDeleted, hdoc,
        Option.bind_some, Option.any_some] at hrevoked
      by_cases hlinked : doc.currentVersionId = some v ∨ doc.pendingVersionId = some v
      · exact hlinked.elim .inl (fun h => .inr (.inl h))
      · rw [not_or] at hlinked
        have hdel := (hrevoked.resolve_left hlinked.1).resolve_left hlinked.2
        have hdead := invariant_others hw hrow (hrowd ▸ hdoc) hlinked.1 hlinked.2
        refine .inr (.inr ⟨hdel, List.mem_map.mpr ⟨(v, row), ?_, rfl⟩⟩)
        exact mem_uncleanedVersions.mpr
          ⟨hrow, hrowd, DocumentVersionStatus.phase_dead.mpr hdead, hclean⟩
    obtain ⟨last, hlast, hdone⟩ := cleaned_of_completed (exec_wf hw call) hget hrecorded hdone
    exact isCleaned_of_row hlast hdone
  · have hkept := irrevocable_of_later (run_wf hw _) (run_later hw (call :: later))
    obtain ⟨last, hlast, hdone⟩ := hkept.cleaned v row hrow hclean
    exact isCleaned_of_row hlast hdone

end Runs

open PlainPlatform in
theorem completed_deletion_of_replacement :
    let cleaning := [Sample.claimCleanup 8 "w", Sample.completeCleanup 9 2 "w" 1]
    let s := after (Sample.replaced ++ Sample.retire 7 (some "r") :: cleaning)
    deletionStatus "tenant" "r" s = some .completed ∧ s.isCleaned 2 = true :=
  ⟨by decide +kernel, completed_deletion_is_complete Sample.replaced (Sample.retire 7 (some "r")) _
    "tenant" "r" 1 2 (by decide +kernel) (by decide +kernel) (by decide +kernel)
    (by decide +kernel) (.inl (by decide +kernel))⟩

open PlainPlatform in
/-- A document whose only upload has failed is shown as deleted completely while nothing
of the failed version has been cleaned. -/
theorem completed_deletion_leaves_failed_version :
    let s := after [Sample.createBase, Sample.upload 1 1 'a', Sample.fail 2 1 1]
    let s' := exec s (Sample.retire 3 (some "r"))
    s.retiredDocument "r" = none ∧ s'.retiredDocument "r" = some 1 ∧
      deletionStatus "tenant" "r" s' = some .completed ∧ s.documentOf 1 = some 1 ∧
      s'.isCleaned 1 = false := by
  decide +kernel

end SuperMew.Documents
