import SuperMew.Documents.Guards
import SuperMew.Documents.LedgerWf

/-! The ledger behind a catalog, and what the guards and the shared updates of the
catalog say about it. -/

namespace SuperMew.Documents

open Relational

/-! ## Rows -/

def Document.state (row : Document) : DocumentState :=
  ⟨row.currentVersionId, row.pendingVersionId, row.publicationFence, row.versionCounter,
    row.deletedAt.isSome⟩

def DocumentVersion.state (row : DocumentVersion) : VersionState :=
  ⟨row.documentId, row.versionNumber, row.status, row.chunkCount, row.parentChunkCount,
    row.cleanupAfter, row.indexCleanedAt.isSome⟩

def IndexJob.state (row : IndexJob) : JobState :=
  ⟨row.documentVersionId, row.status, row.publicationFence,
    ⟨row.ownerWorkerId, row.executionFence, row.leaseExpiresAt⟩⟩

def DocumentCleanupJob.state (row : DocumentCleanupJob) : CleanupState :=
  ⟨row.documentVersionId, row.status⟩

def DocumentRetirementJob.state (row : DocumentRetirementJob) : RetirementState :=
  ⟨row.documentId, row.cleanupVersionIds⟩

def Catalog.ledger (s : Catalog) : Ledger where
  documents d := (s.documents.get d).map Document.state
  versions v := (s.versions.get v).map DocumentVersion.state
  jobs j := (s.jobs.get j).map IndexJob.state
  cleanups c := (s.cleanups.get c).map DocumentCleanupJob.state
  retirements r := (s.retirements.get r).map DocumentRetirementJob.state
  manifest v kind := s.manifestCount v kind

namespace Catalog

variable (s : Catalog)

theorem ledger_empty : Catalog.empty.ledger = Ledger.empty := by
  simp [ledger, empty, Ledger.empty, manifestCount, manifestOf]

/-! ## Writes -/

theorem map_update {κ ρ τ : Type} [DecidableEq κ] (f : ρ → τ) (t : Table κ ρ) (k : κ) (row : ρ) :
    (fun k' => ((t.put k row).get k').map f) =
      Function.update (fun k' => (t.get k').map f) k (some (f row)) := by
  funext k'
  rw [Table.get_put]
  by_cases h : k' = k
  · simp [h]
  · simp [h]

@[simp] theorem ledger_putDocument (d : Id) (row : Document) :
    (s.putDocument d row).ledger = s.ledger.setDocument d row.state := by
  simp [ledger, Ledger.setDocument, putDocument, map_update, manifestCount, manifestOf]

@[simp] theorem ledger_putVersion (v : Id) (row : DocumentVersion) :
    (s.putVersion v row).ledger = s.ledger.setVersion v row.state := by
  simp [ledger, Ledger.setVersion, putVersion, map_update, manifestCount, manifestOf]

@[simp] theorem ledger_putJob (j : Id) (row : IndexJob) :
    (s.putJob j row).ledger = s.ledger.setJob j row.state := by
  simp [ledger, Ledger.setJob, putJob, map_update, manifestCount, manifestOf]

@[simp] theorem ledger_putCleanup (c : Id) (row : DocumentCleanupJob) :
    (s.putCleanup c row).ledger = s.ledger.setCleanup c row.state := by
  simp [ledger, Ledger.setCleanup, putCleanup, map_update, manifestCount, manifestOf]

@[simp] theorem ledger_putRetirement (r : String) (row : DocumentRetirementJob) :
    (s.putRetirement r row).ledger = s.ledger.setRetirement r row.state := by
  simp [ledger, Ledger.setRetirement, putRetirement, map_update, manifestCount, manifestOf]

@[simp] theorem ledger_bumpRevision (kb : String) (now : Time) :
    (s.bumpRevision kb now).ledger = s.ledger := by
  unfold bumpRevision
  split <;> rfl

/-! ## Lookups -/

@[simp] theorem cleanupForVersion_putVersion (v w : Id) (row : DocumentVersion) :
    (s.putVersion v row).cleanupForVersion w = s.cleanupForVersion w := rfl

@[simp] theorem cleanupForVersion_putJob (j w : Id) (row : IndexJob) :
    (s.putJob j row).cleanupForVersion w = s.cleanupForVersion w := rfl

@[simp] theorem cleanupForVersion_putDocument (d w : Id) (row : Document) :
    (s.putDocument d row).cleanupForVersion w = s.cleanupForVersion w := rfl

@[simp] theorem jobForVersion_putVersion (v w : Id) (row : DocumentVersion) :
    (s.putVersion v row).jobForVersion w = s.jobForVersion w := rfl

variable {s}

theorem ledger_document {d : Id} {row : Document} (h : s.documents.get d = some row) :
    s.ledger.documents d = some row.state := by
  simp [ledger, h]

theorem ledger_version {v : Id} {row : DocumentVersion} (h : s.versions.get v = some row) :
    s.ledger.versions v = some row.state := by
  simp [ledger, h]

theorem ledger_job {j : Id} {row : IndexJob} (h : s.jobs.get j = some row) :
    s.ledger.jobs j = some row.state := by
  simp [ledger, h]

theorem ledger_cleanup {c : Id} {row : DocumentCleanupJob} (h : s.cleanups.get c = some row) :
    s.ledger.cleanups c = some row.state := by
  simp [ledger, h]

theorem ledger_cleanup_none {c : Id} : s.ledger.cleanups c = none ↔ s.cleanups.get c = none := by
  simp [ledger]

end Catalog

/-! ## Joins -/

/-- The rows of the graph stand in the catalog. -/
structure Catalog.Joined (s : Catalog) (g : JobGraph) : Prop where
  job : s.jobs.get g.jobId = some g.job
  version : s.versions.get g.versionId = some g.version
  document : s.documents.get g.documentId = some g.document

variable {s : Catalog} {g : JobGraph}

theorem joined_of_join {j : Id} (h : s.joinJob j = some g) : s.Joined g ∧ g.jobId = j := by
  simp only [Catalog.joinJob, bind, Option.bind_eq_some_iff, pure, Option.some.injEq] at h
  obtain ⟨job, hj, version, hv, document, hd, kb, _, rfl⟩ := h
  exact ⟨⟨hj, hv, hd⟩, rfl⟩

theorem jobGraph_ok {j : Id} {tenantId : Option String}
    (h : jobGraph s j tenantId = .ok g) : s.Joined g ∧ g.jobId = j := by
  rw [jobGraph, orRaise_eq_ok, Option.filter_eq_some_iff] at h
  exact joined_of_join h.1

/-- The rows of the cleanup graph stand in the catalog. -/
structure Catalog.CleanupJoined (s : Catalog) (g : CleanupGraph) : Prop where
  job : s.cleanups.get g.jobId = some g.job
  version : s.versions.get g.versionId = some g.version
  document : s.documents.get g.documentId = some g.document

theorem cleanupJoined_of_join {c : Id} {g : CleanupGraph}
    (h : s.joinCleanup c = some g) : s.CleanupJoined g ∧ g.jobId = c := by
  simp only [Catalog.joinCleanup, bind, Option.bind_eq_some_iff, pure, Option.some.injEq] at h
  obtain ⟨job, hj, version, hv, document, hd, kb, _, rfl⟩ := h
  exact ⟨⟨hj, hv, hd⟩, rfl⟩

theorem cleanupGraph_ok {c : Id} {g : CleanupGraph} (h : cleanupGraph s c = .ok g) :
    s.CleanupJoined g ∧ g.jobId = c := by
  rw [cleanupGraph, orRaise_eq_ok] at h
  exact cleanupJoined_of_join h

theorem versionByPointer_ok {d : Id} {pointer : Option Id}
    {found : Option (Id × DocumentVersion)} (h : versionByPointer s d pointer = .ok found) :
    found = none ∧ pointer = none ∨ ∃ v row, found = some (v, row) ∧ pointer = some v ∧
      s.versions.get v = some row ∧ row.documentId = d := by
  unfold versionByPointer at h
  split at h
  · simp_all
  · split at h
    · split at h <;> simp_all
    · simp_all

/-! ## Guards -/

def IndexJob.lease (job : IndexJob) : Lease.Register String := job.state.lease

theorem liveExecution_iff {job : IndexJob} {workerId : String} {fence : ℕ} {now : Time} :
    liveExecution job.ownerWorkerId job.executionFence job.leaseExpiresAt workerId fence now = true ↔
      job.lease.Holds now ⟨workerId, fence⟩ := by
  simp [liveExecution, Lease.Register.Holds, IndexJob.lease, IndexJob.state, Option.any_eq_true,
    and_assoc]

theorem assertIndexExecution_some {job : IndexJob} {e : IndexJobExecution} {now : Time} {u : Unit} :
    assertIndexExecution job (some e) now = .ok u ↔
      job.lease.Holds now ⟨e.workerId, e.executionFence⟩ := by
  rw [assertIndexExecution, raiseIf_eq_ok, not_not, liveExecution_iff]

/-- The job graph belongs to the candidate of its document. -/
structure JobGraph.IsCandidate (g : JobGraph) : Prop where
  open_job : g.job.status.terminal = false
  pending : g.document.pendingVersionId = some g.versionId
  fence : g.job.publicationFence = g.document.publicationFence
  live : g.document.deletedAt = none

theorem assertCandidate_ok {publicationFence : ℕ} {u : Unit}
    (h : assertCandidate g publicationFence = .ok u) :
    g.IsCandidate ∧ publicationFence = g.document.publicationFence := by
  simp only [assertCandidate, ok_rules] at h
  obtain ⟨_, hterm, _, hfence, hlive⟩ := h
  simp only [not_or, ne_eq, not_not] at hfence hlive
  obtain ⟨h1, h2, h3⟩ := hfence
  exact ⟨⟨by simpa using hterm, h3, h1 ▸ h2, hlive⟩, h2⟩

end SuperMew.Documents
