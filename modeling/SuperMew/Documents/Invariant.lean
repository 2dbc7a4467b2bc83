import SuperMew.Documents.Refinement.Calls

/-! The representation invariant of the catalog, in terms of its tables. -/

namespace SuperMew.Documents

open Relational

/-- What the tables of a catalog agree on. -/
structure Catalog.Invariant (s : Catalog) : Prop where
  current : ∀ d doc v, s.documents.get d = some doc → doc.currentVersionId = some v →
    ∃ row, s.versions.get v = some row ∧ row.documentId = d ∧ row.status = .ready ∧
      (∃ j job, s.jobs.get j = some job ∧ job.documentVersionId = v) ∧
      (∀ j job, s.jobs.get j = some job → job.documentVersionId = v → job.status = .completed) ∧
      1 ≤ s.manifestCount v .vector ∧ s.manifestCount v .vector = row.chunkCount ∧
      s.manifestCount v .parent = row.parentChunkCount
  pending : ∀ d doc v, s.documents.get d = some doc → doc.pendingVersionId = some v →
    doc.currentVersionId ≠ some v ∧
    ∃ row, s.versions.get v = some row ∧ row.documentId = d ∧
      row.status ∈ [.uploaded, .parsing, .indexing, .staged] ∧
      row.versionNumber = doc.versionCounter
  others : ∀ v row doc, s.versions.get v = some row → s.documents.get row.documentId = some doc →
    doc.currentVersionId ≠ some v → doc.pendingVersionId ≠ some v →
    row.status = .failed ∨ row.status = .superseded
  jobs : ∀ j job, s.jobs.get j = some job →
    ∃ row doc, s.versions.get job.documentVersionId = some row ∧
      s.documents.get row.documentId = some doc ∧
      (job.status.terminal = false ↔ doc.pendingVersionId = some job.documentVersionId) ∧
      (job.status.terminal = false → job.publicationFence = doc.publicationFence)

namespace Catalog

variable {s : Catalog}

/-! ## Rows behind the ledger -/

variable {v d : Id} {doc : Document}

theorem document_of_ledger {state : DocumentState}
    (h : s.ledger.documents d = some state) : ∃ doc, s.documents.get d = some doc ∧ doc.state = state :=
  Option.map_eq_some_iff.mp h

theorem version_of_ledger {state : VersionState} (h : s.ledger.versions v = some state) :
    ∃ row, s.versions.get v = some row ∧ row.state = state :=
  Option.map_eq_some_iff.mp h

theorem job_of_ledger {j : Id} {state : JobState} (h : s.ledger.jobs j = some state) :
    ∃ job, s.jobs.get j = some job ∧ job.state = state :=
  Option.map_eq_some_iff.mp h

theorem home_of_version (hw : s.ledger.Wf) {row : DocumentVersion}
    (hv : s.versions.get v = some row) : ∃ doc, s.documents.get row.documentId = some doc := by
  obtain ⟨state, hstate⟩ := hw.home v _ (ledger_version hv)
  obtain ⟨doc, hdoc, -⟩ := document_of_ledger hstate
  exact ⟨doc, hdoc⟩

/-! ## The invariant -/

variable (hw : s.ledger.Wf)

include hw

theorem invariant_current (hd : s.documents.get d = some doc) (hc : doc.currentVersionId = some v) :
    ∃ row, s.versions.get v = some row ∧ row.documentId = d ∧ row.status = .ready ∧
      (∃ j job, s.jobs.get j = some job ∧ job.documentVersionId = v) ∧
      (∀ j job, s.jobs.get j = some job → job.documentVersionId = v → job.status = .completed) ∧
      1 ≤ s.manifestCount v .vector ∧ s.manifestCount v .vector = row.chunkCount ∧
      s.manifestCount v .parent = row.parentChunkCount := by
  obtain ⟨state, hstate, hdoc, hready⟩ := hw.current d _ v (ledger_document hd) hc
  obtain ⟨row, hrow, rfl⟩ := version_of_ledger hstate
  obtain ⟨j, job, -, hj, hjv⟩ := jobForVersion_some hw.jobs hrow
  obtain ⟨hpos, hvector, hparent⟩ := (hw.shape v _ hstate).counts (.inr hready)
  refine ⟨row, hrow, hdoc, hready, ⟨j, job, hj, hjv⟩, ?_, ?_, hvector, hparent⟩
  · rintro j job hj rfl
    exact (hw.agrees j _ _ (ledger_job hj) hstate).ready hready
  · change s.manifestCount v .vector = row.chunkCount at hvector
    rw [hvector]
    exact hpos

theorem invariant_pending (hd : s.documents.get d = some doc) (hp : doc.pendingVersionId = some v) :
    doc.currentVersionId ≠ some v ∧ ∃ row, s.versions.get v = some row ∧ row.documentId = d ∧
      row.status ∈ [.uploaded, .parsing, .indexing, .staged] ∧
      row.versionNumber = doc.versionCounter := by
  refine ⟨fun hc => hw.current_ne_pending (ledger_document hd) hc hp rfl, ?_⟩
  obtain ⟨state, hstate, hdoc, hcand, hnumber⟩ := hw.pending d _ v (ledger_document hd) hp
  obtain ⟨row, hrow, rfl⟩ := version_of_ledger hstate
  exact ⟨row, hrow, hdoc, DocumentVersionStatus.phase_candidate.mp hcand, hnumber⟩

theorem invariant_others {row : DocumentVersion} (hv : s.versions.get v = some row)
    (hd : s.documents.get row.documentId = some doc) (hc : doc.currentVersionId ≠ some v)
    (hp : doc.pendingVersionId ≠ some v) : row.status = .failed ∨ row.status = .superseded := by
  have hfiled := hw.filed v _ _ (ledger_version hv) (ledger_document hd)
  rw [← DocumentVersionStatus.phase_dead]
  cases hphase : row.status.phase with
  | candidate => exact absurd (hfiled.pending hphase) hp
  | ready => exact absurd (hfiled.current hphase) hc
  | dead => rfl

theorem invariant_jobs {j : Id} {job : IndexJob} (hj : s.jobs.get j = some job) :
    ∃ row doc, s.versions.get job.documentVersionId = some row ∧
      s.documents.get row.documentId = some doc ∧
      (job.status.terminal = false ↔ doc.pendingVersionId = some job.documentVersionId) ∧
      (job.status.terminal = false → job.publicationFence = doc.publicationFence) := by
  have hsome := hw.jobs.sound j _ (ledger_job hj)
  obtain ⟨state, hstate⟩ := Option.ne_none_iff_exists'.mp hsome
  obtain ⟨row, hrow, rfl⟩ := version_of_ledger hstate
  obtain ⟨doc, hdoc⟩ := home_of_version hw hrow
  have hagrees := hw.agrees j _ _ (ledger_job hj) hstate
  have hdoc' := ledger_document hdoc
  refine ⟨row, doc, hrow, hdoc, ⟨fun hopen => ?_, fun hp => ?_⟩, fun hopen => ?_⟩
  · exact (hw.filed _ _ _ hstate hdoc').pending (hagrees.building.mpr hopen)
  · exact hagrees.building.mp (hw.pending_version hdoc' hp hstate).2.1
  · exact hw.fence j _ _ _ (ledger_job hj) hstate (hagrees.building.mpr hopen) hdoc'

end Catalog

/-- Every catalog that calls can reach keeps the invariant. -/
theorem catalog_invariant [Platform] (calls : List Call) : (Catalog.after calls).Invariant := by
  have hw := after_wf calls
  constructor
  · intro d doc v hd hc
    exact Catalog.invariant_current hw hd hc
  · intro d doc v hd hp
    exact Catalog.invariant_pending hw hd hp
  · intro v row doc hv hd hc hp
    exact Catalog.invariant_others hw hv hd hc hp
  · intro j job hj
    exact Catalog.invariant_jobs hw hj

end SuperMew.Documents
